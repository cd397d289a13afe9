import QueryFederation.Proofs.Json.Numbers
import QueryFederation.Proofs.Time.Calendar
import QueryFederation.Time.Timestamp

/-!
# Points in time that are written and read

The writer gives every number a width and puts a mark after it, so each part of a text is found again
where it was written.  Years have four digits, or a sign and at least four, and end at the dash that
follows; months, days and the parts of the time of day have two digits; a fraction has as many as are
exact and ends at the letter for UTC.  The lenient reader skips white space before each part, but in a
written text there is none.
-/

namespace QueryFederation

namespace Digits

variable {width number : Nat}

/-! ## Padded numbers -/

theorem isDigit_of_mem_padded {digit : Char} (isMember : digit ∈ padded width number) :
    digit.isDigit = true := by
  rcases List.mem_append.mp isMember with isZero | isOwn
  · rw [List.eq_of_mem_replicate isZero]
    rfl
  · exact isDigit_of_mem_ofNat isOwn

theorem padded_ne_nil : padded width number ≠ [] :=
  List.append_ne_nil_of_right_ne_nil _ (ofNat_ne_nil number)

theorem exists_padded_eq_cons (width number : Nat) :
    exists first others, padded width number = first :: others ∧ first.isDigit = true :=
  exists_eq_cons padded_ne_nil fun _ => isDigit_of_mem_padded

/-- Zeros in front do not change a number. -/
theorem toNat_padded (width number : Nat) : toNat (padded width number) = number := by
  have zeros (count : Nat) : Nat.ofDigitChars 10 (List.replicate count '0') 0 = 0 := by
    induction count with
    | zero => rfl
    | succ count inductionHypothesis =>
        rw [List.replicate_succ, Nat.ofDigitChars_cons]
        exact inductionHypothesis
  rw [toNat, padded, Nat.ofDigitChars_append, zeros]
  exact toNat_ofNat number

/-- A number that fits into a width is padded to it. -/
theorem length_padded (positive : 0 < width) (fits : number < Nat.pow 10 width) :
    (padded width number).length = width := by
  have short : (ofNat number).length ≤ width :=
    (Nat.length_toDigits_le_iff (by decide) positive).mpr fits
  rw [padded, List.length_append, List.length_replicate]
  omega

/-- A padded number of known width is taken from the front as it was written. -/
theorem take?_padded (positive : 0 < width) (fits : number < Nat.pow 10 width) (rest : List Char) :
    take? width (padded width number ++ rest) = some (number, rest) := by
  have length := length_padded positive fits
  have areDigits : (padded width number).all Char.isDigit = true :=
    List.all_eq_true.mpr fun _ => isDigit_of_mem_padded
  rw [take?, List.take_left' length, List.drop_left' length, if_pos ⟨length, areDigits⟩, toNat_padded]

theorem take?_two (short : number < 100) (rest : List Char) :
    take? 2 (padded 2 number ++ rest) = some (number, rest) :=
  take?_padded (by decide) short rest

end Digits

namespace Timestamp

open Digits (padded padded_ne_nil exists_padded_eq_cons isDigit_of_mem_padded toNat_padded
  length_padded split_append_of_digits ne_of_isDigit toNat_of_isDigit)
open Blank (isBlank dropLeading)

/-! ## No white space in front -/

theorem isBlank_of_isDigit {character : Char} (isDigit : character.isDigit = true) :
    isBlank character = false := by
  have range := toNat_of_isDigit isDigit
  simp only [isBlank, Blank.scattered, Bool.or_eq_false_iff, decide_eq_false_iff_not,
    List.contains_eq_mem, List.mem_cons, List.not_mem_nil, or_false]
  omega

theorem dropLeading_cons {first : Char} (solid : isBlank first = false) (rest : List Char) :
    dropLeading (first :: rest) = first :: rest :=
  List.dropWhile_cons_of_neg (by simp [solid])

theorem dropLeading_padded (width number : Nat) (rest : List Char) :
    dropLeading (padded width number ++ rest) = padded width number ++ rest := by
  rcases exists_padded_eq_cons width number with ⟨first, others, digits, isDigit⟩
  rw [digits]
  exact dropLeading_cons (isBlank_of_isDigit isDigit) (others ++ rest)

theorem looseExpect_cons {mark : Char} (solid : isBlank mark = false) (rest : List Char) :
    looseExpect mark (mark :: rest) = some rest := by
  rw [looseExpect, dropLeading_cons solid, expect, if_pos rfl]

/-! ## Numbers of a fixed width -/

theorem looseNumber?_padded {width number : Nat} (positive : 0 < width) (fits : number < Nat.pow 10 width)
    (rest : List Char) :
    looseNumber? width (padded width number ++ rest) = some (number, rest) := by
  have length := length_padded positive fits
  have front : (padded width number ++ rest).take width = padded width number :=
    List.take_left' length
  have digits : (padded width number).takeWhile Char.isDigit = padded width number :=
    List.takeWhile_eq_self_iff.mpr fun _ => isDigit_of_mem_padded
  rw [looseNumber?, dropLeading_padded, front, digits, if_neg (by simpa using padded_ne_nil),
    toNat_padded, length, List.drop_left' length]

/-! ## Years -/

/-- The digits of a year with a sign, however many they are, end at the dash. -/
theorem split_padded_dash (width number : Nat) (rest : List Char) :
    Digits.split (padded width number ++ '-' :: rest) = (padded width number, '-' :: rest) :=
  split_append_of_digits (fun _ => isDigit_of_mem_padded) (ended_cons rfl rest)

theorem looseYear?_minus (width number : Nat) (rest : List Char) :
    looseYear? ('-' :: (padded width number ++ '-' :: rest)) = some (-(number : Int), '-' :: rest) := by
  rw [looseYear?, dropLeading_cons (by decide)]
  simp only [split_padded_dash, toNat_padded]
  rw [if_neg (by simpa using padded_ne_nil)]

theorem looseYear?_plus (width number : Nat) (rest : List Char) :
    looseYear? ('+' :: (padded width number ++ '-' :: rest)) = some ((number : Int), '-' :: rest) := by
  rw [looseYear?, dropLeading_cons (by decide)]
  simp only [split_padded_dash, toNat_padded]
  rw [if_neg (by simpa using padded_ne_nil)]

/-- A year of four digits begins with no sign. -/
theorem looseYear?_padded {number : Nat} (fits : number < Nat.pow 10 4) (rest : List Char) :
    looseYear? (padded 4 number ++ rest) = some ((number : Int), rest) := by
  have read := looseNumber?_padded (by decide) fits rest
  rcases exists_padded_eq_cons 4 number with ⟨first, others, digits, isDigit⟩
  rw [looseYear?, dropLeading_padded]
  rw [digits, List.cons_append] at read ⊢
  split
  · rename_i signed
    exact absurd (List.cons.inj signed).1 (ne_of_isDigit isDigit rfl)
  · rename_i signed
    exact absurd (List.cons.inj signed).1 (ne_of_isDigit isDigit rfl)
  · rw [read, Option.map_some]

theorem looseYear?_writeYear (year : Int) (rest : List Char) :
    looseYear? (writeYear year ++ '-' :: rest) = some (year, '-' :: rest) := by
  unfold writeYear
  by_cases plain : 0 ≤ year ∧ year ≤ 9999
  · have fits : year.toNat < Nat.pow 10 4 := by
      rw [Nat.pow_eq]
      omega
    rw [if_pos plain, looseYear?_padded fits, Int.toNat_of_nonneg plain.1]
  · rw [if_neg plain]
    by_cases negative : year < 0
    · rw [if_pos negative, List.cons_append, looseYear?_minus]
      congr 2
      omega
    · rw [if_neg negative, List.cons_append, looseYear?_plus]
      congr 2
      omega

/-! ## Fractions -/

/-- A fraction of some width, at most nine, is read as the nanoseconds that it stands for. -/
theorem fraction?_padded {width number : Nat} (positive : 0 < width) (narrow : width ≤ 9)
    (fits : number < Nat.pow 10 width) {rest : List Char}
    (ended : forall next, next ∈ rest.head? -> next.isDigit = false) :
    fraction? ('.' :: (padded width number ++ rest)) =
      some (number * Nat.pow 10 (9 - width), rest) := by
  have length := length_padded positive fits
  rw [fraction?, split_append_of_digits (fun _ => isDigit_of_mem_padded) ended]
  dsimp only
  rw [if_neg (by simpa using padded_ne_nil), List.take_of_length_le (by omega), toNat_padded, length,
    Nat.pow_eq]

/-- Without a point there is no fraction. -/
theorem fraction?_of_head {rest : List Char} (notPoint : forall next, next ∈ rest.head? -> next ≠ '.') :
    fraction? rest = some (0, rest) := by
  cases rest with
  | nil => rfl
  | cons next others =>
      rw [fraction?]
      intro afterPoint same
      exact notPoint next rfl (List.cons.inj same).1

theorem fraction?_writeFraction {nanos : Nat} (fits : nanos < nanosPerSecond) {rest : List Char}
    (ended : forall next, next ∈ rest.head? -> next.isDigit = false ∧ next ≠ '.') :
    fraction? (writeFraction nanos ++ rest) = some (nanos, rest) := by
  have notDigit : forall next, next ∈ rest.head? -> next.isDigit = false :=
    fun next isNext => (ended next isNext).1
  unfold nanosPerSecond at fits
  unfold writeFraction
  split
  · rename_i isZero
    subst isZero
    exact fraction?_of_head fun next isNext => (ended next isNext).2
  · split
    · have fits : nanos / 1000000 < Nat.pow 10 3 := by
        rw [Nat.pow_eq]
        omega
      rw [List.cons_append, fraction?_padded (by decide) (by decide) fits notDigit, Nat.pow_eq]
      congr 2
      omega
    · split
      · have fits : nanos / 1000 < Nat.pow 10 6 := by
          rw [Nat.pow_eq]
          omega
        rw [List.cons_append, fraction?_padded (by decide) (by decide) fits notDigit, Nat.pow_eq]
        congr 2
        omega
      · have fits : nanos < Nat.pow 10 9 := by
          rw [Nat.pow_eq]
          omega
        rw [List.cons_append, fraction?_padded (by decide) (by decide) fits notDigit, Nat.pow_eq]
        congr 2
        omega

/-! ## Whole texts -/

/-- A reader goes on with what its first part has found.  The readers are composed of many parts, and this
form of the step keeps their later parts out of the way. -/
theorem some_bind {First Second : Type} (found : First) (next : First -> Option Second) :
    (some found >>= next) = next found :=
  rfl

/-- The text of a date and time of day is read part by part. -/
theorem lenientCivil?_write (instant : Instant) :
    lenientCivil? (write instant) = some instant.civil := by
  have date : instant.civil.date.month < 100 ∧ instant.civil.date.day < 100 :=
    Calendar.month_day_lt (Calendar.ofDayNumber_spec (instant.seconds / 86400)).1
  rcases instant.civil_timeOfDay with ⟨hour, minute, second, _⟩
  have number {number : Nat} (short : number < 100) (rest : List Char) :
      looseNumber? 2 (padded 2 number ++ rest) = some (number, rest) :=
    looseNumber?_padded (by decide) short rest
  have fraction : fraction? (writeFraction instant.civil.nanos ++ ['Z']) =
      some (instant.civil.nanos, ['Z']) := by
    apply fraction?_writeFraction instant.civil_nanos_lt
    intro next isNext
    rw [← Option.mem_some.mp isNext]
    decide
  have offset : lenientOffset? ['Z'] = some (0, []) := by decide
  unfold lenientCivil? write
  simp only [List.append_assoc, List.cons_append, some_bind, looseYear?_writeYear,
    looseExpect_cons (show isBlank '-' = false by decide), number date.1, number date.2, separator?,
    true_or, if_true, number (show instant.civil.hour < 100 by omega),
    looseExpect_cons (show isBlank ':' = false by decide),
    number (show instant.civil.minute < 100 by omega),
    number (show instant.civil.second < 100 by omega), fraction, offset]
  rfl

/-- The strict reader finds the parts of a date and time of day where they have been written, if it finds the
fraction and the distance from UTC. -/
theorem strictCivil?_parts {civil : CivilTime} {year : Nat} {separator : Char}
    {fraction offset : List Char} (isYear : year = civil.date.year) (fits : year < 10000)
    (month : civil.date.month < 100) (day : civil.date.day < 100) (hour : civil.hour < 100)
    (minute : civil.minute < 100) (second : civil.second < 100)
    (isSeparator : separator = 'T' ∨ separator = 't' ∨ separator = ' ')
    (isFraction : fraction? (fraction ++ offset) = some (civil.nanos, offset))
    (isOffset : strictOffset? offset = some (civil.offset, [])) :
    strictCivil? (padded 4 year ++ '-' :: (padded 2 civil.date.month ++ '-' :: (padded 2 civil.date.day ++
      separator :: (padded 2 civil.hour ++ ':' :: (padded 2 civil.minute ++
        ':' :: (padded 2 civil.second ++ (fraction ++ offset))))))) = some civil := by
  have yearRead := Digits.take?_padded (by decide : 0 < 4) fits
  have separated (rest : List Char) : separator? (separator :: rest) = some rest := if_pos isSeparator
  have expected (mark : Char) (rest : List Char) : expect mark (mark :: rest) = some rest := if_pos rfl
  unfold strictCivil?
  simp only [some_bind, yearRead, expected, Digits.take?_two month, Digits.take?_two day, separated,
    Digits.take?_two hour, Digits.take?_two minute, Digits.take?_two second, isFraction, isOffset, isYear]
  rfl

/-- What is written for a point in time is read as that point in time. -/
theorem lenient?_write (instant : Instant) : lenient? (write instant) = some instant := by
  rw [lenient?, lenientCivil?_write, Option.bind_some, instant.instant?_civil]

end Timestamp
end QueryFederation

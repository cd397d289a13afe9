import QueryFederation.Proofs.Number.Numerals
import QueryFederation.Proofs.Time.Timestamps
import QueryFederation.Time.Reading

/-!
# Dates and times that are typed

A point in time may be typed as a date and a time of day at any distance from UTC that is less than a day
and is given in minutes.  The text leaves a choice of separator, of the digits of the fraction, and of the
letter or the mark in front of the distance; every choice is read as the same point in time.  None of these
texts is a number, so none is taken for seconds.

The clock at a distance from UTC is the clock in UTC at another point in time: the one that lies later by
that distance.  Minutes do not move the second within the minute, so a leap second stays the sixtieth there,
and all that is known of the calendar in UTC carries over.
-/

namespace QueryFederation

open Digits (padded padded_ne_nil isDigit_of_mem_padded ne_of_isDigit split_append_of_digits)

/-- A text with a dash after its leading digits is no number. -/
theorem Decimal.read?_dash {digits : List Char} (nonempty : digits ≠ [])
    (areDigits : forall digit, digit ∈ digits -> digit.isDigit = true) (rest : List Char) :
    read? (String.ofList (digits ++ '-' :: rest)) = none := by
  rcases Digits.exists_eq_cons nonempty areDigits with ⟨first, others, cons, isDigit⟩
  have numeric := read?_numeric .absent (.inl isDigit) (others ++ '-' :: rest)
  rw [Sign.text, List.nil_append, ← List.cons_append, ← cons] at numeric
  rw [numeric, digits?, split_append_of_digits areDigits (ended_cons rfl rest)]
  simp [power?]

namespace Instant

/-! ## Clocks at a distance from UTC -/

/-- The date and time of day at a distance of so many minutes from UTC. -/
def civilAt (instant : Instant) (minutes : Int) : CivilTime :=
  let seconds := instant.seconds + 60 * minutes
  let ofDay := (seconds % 86400).toNat
  let leap := decide (nanosPerSecond ≤ instant.nanos)
  { date := Calendar.ofDayNumber (seconds / 86400)
    hour := ofDay / 3600
    minute := ofDay % 3600 / 60
    second := ofDay % 60 + if leap then 1 else 0
    nanos := if leap then instant.nanos - nanosPerSecond else instant.nanos
    offset := 60 * minutes }

variable {instant : Instant} {minutes : Int}

/-- The clock shows the time in UTC of another point in time. -/
theorem exists_civilAt_eq
    (range : firstSecond ≤ instant.seconds + 60 * minutes ∧ instant.seconds + 60 * minutes ≤ lastSecond) :
    exists shifted : Instant, shifted.seconds = instant.seconds + 60 * minutes ∧
      shifted.nanos = instant.nanos ∧
      instant.civilAt minutes = { shifted.civil with offset := 60 * minutes } := by
  have valid := instant.nanos_valid
  exact ⟨⟨instant.seconds + 60 * minutes, instant.nanos, range, by omega⟩, rfl, rfl, rfl⟩

/-- Years of four digits are far from the ends of the calendar. -/
theorem range_of_fourDigits
    (fourDigits : 0 ≤ (instant.civilAt minutes).date.year ∧ (instant.civilAt minutes).date.year ≤ 9999) :
    firstSecond ≤ instant.seconds + 60 * minutes ∧ instant.seconds + 60 * minutes ≤ lastSecond := by
  have year := (Calendar.ofDayNumber_spec ((instant.seconds + 60 * minutes) / 86400)).2.2
  rcases Calendar.yearOf_bounds ((instant.seconds + 60 * minutes) / 86400) with ⟨fromFirst, beforeNext⟩
  rw [civilAt, year] at fourDigits
  have begun := Calendar.daysBeforeYear_le fourDigits.1
  have ended := Calendar.daysBeforeYear_le (Int.add_le_add_right fourDigits.2 1)
  have first : Calendar.daysBeforeYear 0 = -719528 := by decide
  have last : Calendar.daysBeforeYear (9999 + 1) = 2932897 := by decide
  unfold firstSecond lastSecond
  omega

/-- The point in time is found again from the clock at a distance of less than a day from UTC. -/
theorem instant?_civilAt (near : -1440 < minutes ∧ minutes < 1440)
    (fourDigits : 0 ≤ (instant.civilAt minutes).date.year ∧ (instant.civilAt minutes).date.year ≤ 9999) :
    (instant.civilAt minutes).instant? = some instant := by
  rcases exists_civilAt_eq (range_of_fourDigits fourDigits) with ⟨shifted, seconds, nanos, civil⟩
  have valid : ({ shifted.civil with offset := 60 * minutes } : CivilTime).isValid = true := by
    have inUtc := shifted.civil_isValid
    simp only [CivilTime.isValid, Bool.and_eq_true, decide_eq_true_eq] at inUtc ⊢
    rcases inUtc with ⟨date, hour, minute, second, fraction, _⟩
    exact ⟨date, hour, minute, second, fraction, by omega, by omega⟩
  have earlier : ({ shifted.civil with offset := 60 * minutes } : CivilTime).seconds = instant.seconds := by
    have inUtc := shifted.civil_seconds
    have utc : shifted.civil.offset = 0 := rfl
    unfold CivilTime.seconds at inUtc ⊢
    dsimp only at inUtc ⊢
    omega
  rw [civil, CivilTime.instant?, if_pos valid, earlier, shifted.civil_nanos, nanos, instant.ofParts?_parts]

/-! ## Texts -/

/-- How a distance from UTC in minutes may be written. -/
inductive WritesOffset : Int -> List Char -> Prop where
  | utc {letter : Char} (isLetter : letter = 'Z' ∨ letter = 'z') : WritesOffset 0 [letter]
  | east {hours minutes : Nat} (hoursLt : hours < 24) (minutesLt : minutes < 60) :
      WritesOffset (60 * hours + minutes) ('+' :: (padded 2 hours ++ ':' :: padded 2 minutes))
  | west {mark : Char} (isMark : mark = '-' ∨ mark = '\u2212') {hours minutes : Nat} (hoursLt : hours < 24)
      (minutesLt : minutes < 60) :
      WritesOffset (-(60 * hours + minutes)) (mark :: (padded 2 hours ++ ':' :: padded 2 minutes))

/-- How nanoseconds may be written: with any number of digits that is exact, up to nine. -/
inductive WritesFraction : Nat -> List Char -> Prop where
  | absent : WritesFraction 0 []
  | digits {width number : Nat} (positive : 0 < width) (narrow : width ≤ 9)
      (fits : number < Nat.pow 10 width) :
      WritesFraction (number * Nat.pow 10 (9 - width)) ('.' :: padded width number)

/-- A way to write a point in time as it is on the clock at a distance from UTC. -/
structure Writing (instant : Instant) where
  minutes : Int
  separator : Char
  fraction : List Char
  offset : List Char
  fourDigits : 0 ≤ (instant.civilAt minutes).date.year ∧ (instant.civilAt minutes).date.year ≤ 9999
  isSeparator : separator = 'T' ∨ separator = 't' ∨ separator = ' '
  writesFraction : WritesFraction (instant.civilAt minutes).nanos fraction
  writesOffset : WritesOffset minutes offset

/-- The text of a way to write a point in time. -/
def Writing.text (writing : Writing instant) : List Char :=
  let civil := instant.civilAt writing.minutes
  padded 4 civil.date.year.toNat ++ '-' :: (padded 2 civil.date.month ++ '-' :: (padded 2 civil.date.day ++
    writing.separator :: (padded 2 civil.hour ++ ':' :: (padded 2 civil.minute ++
      ':' :: (padded 2 civil.second ++ (writing.fraction ++ writing.offset))))))

theorem WritesOffset.near {offset : List Char} (writes : WritesOffset minutes offset) :
    -1440 < minutes ∧ minutes < 1440 := by
  cases writes <;> omega

/-- Hours and minutes are read with the sign in front of them. -/
theorem strictOffset?_sign {mark : Char} {direction : Int}
    (isSign : forall rest, Timestamp.offsetSign? (mark :: rest) = some (direction, rest))
    (noLetter : mark ≠ 'Z' ∧ mark ≠ 'z') {hours minutes : Nat} (hoursLt : hours < 24)
    (minutesLt : minutes < 60) :
    Timestamp.strictOffset? (mark :: (padded 2 hours ++ ':' :: padded 2 minutes)) =
      some (direction * (hours * 3600 + minutes * 60), []) := by
  have hoursRead := Digits.take?_two (by omega : hours < 100) (':' :: padded 2 minutes)
  have minutesRead := Digits.take?_two (by omega : minutes < 100) []
  rw [List.append_nil] at minutesRead
  unfold Timestamp.strictOffset?
  split
  · rename_i same
    exact absurd (List.cons.inj same).1 noLetter.1
  · rename_i same
    exact absurd (List.cons.inj same).1 noLetter.2
  · unfold Timestamp.numericOffset?
    simp only [isSign, Timestamp.some_bind, hoursRead, Timestamp.expect, if_true,
      minutesRead, minutesLt]

theorem WritesOffset.strictOffset? {offset : List Char} (writes : WritesOffset minutes offset) :
    Timestamp.strictOffset? offset = some (60 * minutes, []) := by
  cases writes with
  | utc isLetter => rcases isLetter with rfl | rfl <;> rfl
  | east hoursLt minutesLt =>
      rw [strictOffset?_sign (fun _ => rfl) (by decide) hoursLt minutesLt]
      congr 2
      ring
  | west isMark hoursLt minutesLt =>
      have isSign (rest : List Char) : Timestamp.offsetSign? (_ :: rest) = some (-1, rest) :=
        (if_neg (by rcases isMark with rfl | rfl <;> decide)).trans (if_pos isMark)
      rw [strictOffset?_sign isSign (by rcases isMark with rfl | rfl <;> decide) hoursLt minutesLt]
      congr 2
      ring

/-- A distance from UTC goes on with no digits and with no point. -/
theorem WritesOffset.head {offset : List Char} (writes : WritesOffset minutes offset) :
    forall next, next ∈ offset.head? -> next.isDigit = false ∧ next ≠ '.' := by
  intro next isNext
  cases writes with
  | utc isLetter =>
      rw [← Option.some.inj isNext]
      rcases isLetter with rfl | rfl <;> decide
  | east _ _ =>
      rw [← Option.some.inj isNext]
      decide
  | west isMark _ _ =>
      rw [← Option.some.inj isNext]
      rcases isMark with rfl | rfl <;> decide

theorem WritesFraction.fraction? {nanos : Nat} {fraction rest : List Char}
    (writes : WritesFraction nanos fraction)
    (ended : forall next, next ∈ rest.head? -> next.isDigit = false ∧ next ≠ '.') :
    Timestamp.fraction? (fraction ++ rest) = some (nanos, rest) := by
  cases writes with
  | absent => exact Timestamp.fraction?_of_head fun next isNext => (ended next isNext).2
  | digits positive narrow fits =>
      exact Timestamp.fraction?_padded positive narrow fits fun next isNext => (ended next isNext).1

/-- The text of a date and time of day is read part by part. -/
theorem Writing.strictCivil?_text (writing : Writing instant) :
    Timestamp.strictCivil? writing.text = some (instant.civilAt writing.minutes) := by
  rcases exists_civilAt_eq (range_of_fourDigits writing.fourDigits) with ⟨shifted, _, _, civil⟩
  have date : shifted.civil.date.month < 100 ∧ shifted.civil.date.day < 100 :=
    Calendar.month_day_lt (Calendar.ofDayNumber_spec (shifted.seconds / 86400)).1
  rcases shifted.civil_timeOfDay with ⟨hour, minute, second, _⟩
  have fourDigits := writing.fourDigits
  have fraction := writing.writesFraction.fraction? writing.writesOffset.head
  rw [Writing.text]
  rw [civil] at fourDigits fraction ⊢
  exact Timestamp.strictCivil?_parts (Int.toNat_of_nonneg fourDigits.1) (by omega) date.1 date.2
    (hour.trans (by decide)) (minute.trans (by decide)) (second.trans_lt (by decide)) writing.isSeparator
    fraction writing.writesOffset.strictOffset?

/-- At every distance from UTC there is a way to write a point in time whose year there has four digits. -/
theorem exists_writing (near : -1440 < minutes ∧ minutes < 1440)
    (fourDigits : 0 ≤ (instant.civilAt minutes).date.year ∧ (instant.civilAt minutes).date.year ≤ 9999) :
    exists writing : Writing instant, writing.minutes = minutes := by
  have hoursLt : minutes.natAbs / 60 < 24 := by omega
  have minutesLt : minutes.natAbs % 60 < 60 := Nat.mod_lt _ (by decide)
  have offset : exists offset, WritesOffset minutes offset := by
    rcases Int.le_total 0 minutes with east | west
    · have writes := WritesOffset.east hoursLt minutesLt
      rw [show (60 * (minutes.natAbs / 60 : Nat) + (minutes.natAbs % 60 : Nat) : Int) = minutes by omega]
        at writes
      exact ⟨_, writes⟩
    · have writes := WritesOffset.west (.inl rfl) hoursLt minutesLt
      rw [show (-(60 * (minutes.natAbs / 60 : Nat) + (minutes.natAbs % 60 : Nat)) : Int) = minutes by omega]
        at writes
      exact ⟨_, writes⟩
  rcases exists_civilAt_eq (range_of_fourDigits fourDigits) with ⟨shifted, _, _, civil⟩
  have fits : (instant.civilAt minutes).nanos < Nat.pow 10 9 := by
    rw [civil]
    exact shifted.civil_nanos_lt
  have writesFraction := WritesFraction.digits (by decide) (by decide) fits
  rw [Nat.sub_self, Nat.pow_eq, Nat.pow_zero, Nat.mul_one] at writesFraction
  rcases offset with ⟨offset, writesOffset⟩
  exact ⟨⟨minutes, 'T', _, offset, fourDigits, .inl rfl, writesFraction, writesOffset⟩, rfl⟩

/-- A typed date and time is answered with the point in time that it was written for, to the nanosecond, and
is not taken for a number of seconds. -/
theorem typed_timestamp_answered (writing : Writing instant) :
    Decimal.read? (String.ofList writing.text) = none ∧
      read (String.ofList writing.text) = .ok instant := by
  have noNumber : Decimal.read? (String.ofList writing.text) = none :=
    Decimal.read?_dash padded_ne_nil (fun _ => isDigit_of_mem_padded) _
  refine ⟨noNumber, ?_⟩
  rw [read, noNumber, String.toList_ofList, Timestamp.strict?, writing.strictCivil?_text, Option.bind_some,
    instant?_civilAt writing.writesOffset.near writing.fourDigits]

/-- In the middle of a leap second, on a clock that is ahead by some hours and already in the new year. -/
example : read "2017-01-01 05:29:60.25+05:30" =
    .ok ⟨1483228799, 1250000000, by decide, by decide⟩ := by
  decide +kernel

end Instant
end QueryFederation

import Mathlib.Data.List.TakeWhile
import QueryFederation.Json.Record

/-!
# Numbers that are written and read

A number is kept as its digits, so the question is only where its digits end.  The text of a number is
read back as that number if it has digits where the grammar asks for them, if its whole part does not
begin with a zero to which more digits are attached, and if what follows in the text does not go on with
the number.  Integers are written like that.  Doubles are written in digits too; whether a zero stands
in front of them is not decided here, nor what double a number denotes.
-/

namespace QueryFederation

/-- Characters of one kind are divided from a text that does not go on with them. -/
theorem divide_append {isKind : Char -> Bool} {front rest : List Char}
    (areKind : forall character, character ∈ front -> isKind character = true)
    (ended : forall next, next ∈ rest.head? -> isKind next = false) :
    (front ++ rest).takeWhile isKind = front ∧ (front ++ rest).dropWhile isKind = rest := by
  have divided : rest.takeWhile isKind = [] ∧ rest.dropWhile isKind = rest := by
    cases rest with
    | nil => exact ⟨rfl, rfl⟩
    | cons next others =>
        have notKind : ¬ isKind next = true := by simp [ended next rfl]
        exact ⟨List.takeWhile_cons_of_neg notKind, List.dropWhile_cons_of_neg notKind⟩
  constructor
  · rw [List.takeWhile_append_of_pos areKind, divided.1, List.append_nil]
  · rw [List.dropWhile_append_of_pos areKind, divided.2]

/-- A text whose first character is of another kind does not go on. -/
theorem ended_cons {isKind : Char -> Bool} {first : Char} (notKind : isKind first = false)
    (rest : List Char) : forall next, next ∈ (first :: rest).head? -> isKind next = false := by
  intro next isNext
  rw [← Option.some.inj isNext]
  exact notKind

namespace Digits

theorem ne_of_isDigit {digit other : Char} (isDigit : digit.isDigit = true)
    (notDigit : other.isDigit = false) : digit ≠ other := by
  rintro rfl
  rw [notDigit] at isDigit
  cases isDigit

theorem toNat_of_isDigit {digit : Char} (isDigit : digit.isDigit = true) :
    48 ≤ digit.toNat ∧ digit.toNat ≤ 57 := by
  simpa [Char.isDigit, UInt32.le_iff_toNat_le] using isDigit

/-- Digits begin with a digit. -/
theorem exists_eq_cons {digits : List Char} (nonempty : digits ≠ [])
    (areDigits : forall digit, digit ∈ digits -> digit.isDigit = true) :
    exists first others, digits = first :: others ∧ first.isDigit = true := by
  rcases List.exists_cons_of_ne_nil nonempty with ⟨first, others, rfl⟩
  exact ⟨first, others, rfl, areDigits first List.mem_cons_self⟩

theorem isDigit_of_mem_ofNat {number : Nat} {digit : Char} (isMember : digit ∈ ofNat number) :
    digit.isDigit = true :=
  Nat.isDigit_of_mem_toDigits (by decide) (Nat.le_refl 10) isMember

theorem ofNat_ne_nil (number : Nat) : ofNat number ≠ [] :=
  Nat.toDigits_ne_nil

theorem exists_ofNat_eq_cons (number : Nat) :
    exists first others, ofNat number = first :: others ∧ first.isDigit = true :=
  exists_eq_cons (ofNat_ne_nil number) fun _ => isDigit_of_mem_ofNat

/-- Only the digits of zero begin with a zero. -/
theorem ofNat_leading_zero {number : Nat} {rest : List Char} (leading : ofNat number = '0' :: rest) :
    rest = [] := by
  induction number using Nat.strongRecOn generalizing rest with
  | ind number inductionHypothesis =>
      unfold ofNat at leading
      rcases Nat.lt_or_ge number 10 with small | large
      · rw [Nat.toDigits_of_lt_base small] at leading
        exact (List.cons.inj leading).2.symm
      · rw [Nat.toDigits_of_base_le (by decide) large] at leading
        -- The first digit is that of a tenth of the number, which is not zero.
        cases digits : Nat.toDigits 10 (number / 10) with
        | nil => exact absurd digits Nat.toDigits_ne_nil
        | cons first others =>
            rw [digits] at leading
            cases (List.cons.inj leading).1
            have alone := inductionHypothesis (number / 10) (by omega) digits
            rw [alone] at digits
            have isZero := congrArg toNat digits
            have same : toNat (Nat.toDigits 10 (number / 10)) = number / 10 := toNat_ofNat _
            rw [same] at isZero
            have none : toNat ['0'] = 0 := rfl
            omega

/-- Digits are split off up to the first character that is none. -/
theorem split_append_of_digits {digits rest : List Char}
    (areDigits : forall digit, digit ∈ digits -> digit.isDigit = true)
    (ended : forall next, next ∈ rest.head? -> next.isDigit = false) :
    split (digits ++ rest) = (digits, rest) :=
  Prod.ext (divide_append areDigits ended).1 (divide_append areDigits ended).2

end Digits

namespace JsonNumber

/-! ## Grammatical numbers -/

/-- That a number has digits, and nothing but digits, where it must have them. -/
structure HasDigits (number : JsonNumber) : Prop where
  whole_ne_nil : number.whole ≠ []
  whole : forall digit, digit ∈ number.whole -> digit.isDigit = true
  fraction : forall digit, digit ∈ number.fraction -> digit.isDigit = true
  exponent : forall negative digits, number.exponent = some (negative, digits) ->
    digits ≠ [] ∧ forall digit, digit ∈ digits -> digit.isDigit = true

/-- That the text of a number is one that the grammar has. -/
structure IsGrammatical (number : JsonNumber) : Prop extends HasDigits number where
  leading : forall rest, number.whole = '0' :: rest -> rest = []

/-- That a text does not go on with a number that stands before it. -/
def EndsNumber (text : List Char) : Prop :=
  forall next, next ∈ text.head? ->
    next.isDigit = false ∧ next ≠ '.' ∧ next ≠ 'e' ∧ next ≠ 'E'

theorem endsNumber_nil : EndsNumber [] :=
  fun _ isNext => nomatch isNext

/-! ## The parts of the text -/

/-- The text of a fraction, with its point. -/
def fractionText (fraction : List Char) : List Char :=
  if fraction.isEmpty then [] else '.' :: fraction

/-- The text of a power of ten. -/
def exponentText : Option (Bool × List Char) -> List Char
  | none => []
  | some (negative, digits) => 'e' :: (if negative then '-' else '+') :: digits

theorem write_append (number : JsonNumber) (rest : List Char) :
    number.write ++ rest = (if number.negative then ['-'] else []) ++
      (number.whole ++ (fractionText number.fraction ++ (exponentText number.exponent ++ rest))) := by
  rcases number with ⟨negative, whole, fraction, exponent⟩
  cases exponent with
  | none => simp only [write, fractionText, exponentText, List.append_assoc]
  | some exponent => simp only [write, fractionText, exponentText, List.append_assoc]

/-- The text of a number begins with a sign or a digit. -/
theorem HasDigits.write_head {number : JsonNumber} (digits : number.HasDigits) :
    exists first rest, number.write = first :: rest ∧ (first = '-' ∨ first.isDigit = true) := by
  have text := number.write_append []
  rw [List.append_nil] at text
  rw [text]
  cases number.negative with
  | true => exact ⟨'-', _, rfl, Or.inl rfl⟩
  | false =>
      cases whole : number.whole with
      | nil => exact absurd whole digits.whole_ne_nil
      | cons first others =>
          refine ⟨first, _, rfl, Or.inr (digits.whole first ?_)⟩
          rw [whole]
          exact List.mem_cons_self

theorem exponentText_head {exponent : Option (Bool × List Char)} {rest : List Char} {next : Char}
    (isNext : next ∈ (exponentText exponent ++ rest).head?) : next = 'e' ∨ next ∈ rest.head? := by
  cases exponent with
  | none => exact Or.inr isNext
  | some exponent => exact Or.inl (Option.mem_some.mp isNext).symm

theorem fractionText_head {fraction rest : List Char} {next : Char}
    (isNext : next ∈ (fractionText fraction ++ rest).head?) : next = '.' ∨ next ∈ rest.head? := by
  cases fraction with
  | nil => exact Or.inr isNext
  | cons first others => exact Or.inl (Option.mem_some.mp isNext).symm

end JsonNumber

namespace Json

open JsonNumber (EndsNumber fractionText exponentText fractionText_head exponentText_head)

/-! ## The parts of a number -/

theorem wholeDigits?_append {digits rest : List Char} (nonempty : digits ≠ [])
    (areDigits : forall digit, digit ∈ digits -> digit.isDigit = true)
    (leading : forall others, digits = '0' :: others -> others = [])
    (ended : forall next, next ∈ rest.head? -> next.isDigit = false) :
    wholeDigits? (digits ++ rest) = some (digits, rest) := by
  cases digits with
  | nil => exact absurd rfl nonempty
  | cons first others =>
      by_cases isZero : first = '0'
      · subst isZero
        cases leading others rfl
        rfl
      · rw [List.cons_append, wholeDigits?]
        · rw [← List.cons_append, Digits.split_append_of_digits areDigits ended]
          rfl
        · intro rest same
          exact isZero (List.cons.inj same).1

theorem fractionDigits?_append {digits rest : List Char}
    (areDigits : forall digit, digit ∈ digits -> digit.isDigit = true)
    (ended : forall next, next ∈ rest.head? -> next.isDigit = false ∧ next ≠ '.') :
    fractionDigits? (fractionText digits ++ rest) = some (digits, rest) := by
  cases digits with
  | nil =>
      change fractionDigits? rest = _
      cases rest with
      | nil => rfl
      | cons next others =>
          rw [fractionDigits?]
          intro others same
          exact (ended next rfl).2 (List.cons.inj same).1
  | cons first others =>
      change fractionDigits? ('.' :: ((first :: others) ++ rest)) = _
      rw [fractionDigits?,
        Digits.split_append_of_digits areDigits fun next isNext => (ended next isNext).1]
      rfl

theorem exponentDigits?_append {exponent : Option (Bool × List Char)} {rest : List Char}
    (areDigits : forall negative digits, exponent = some (negative, digits) ->
      digits ≠ [] ∧ forall digit, digit ∈ digits -> digit.isDigit = true)
    (ended : EndsNumber rest) :
    exponentDigits? (exponentText exponent ++ rest) = some (exponent, rest) := by
  cases exponent with
  | none =>
      change exponentDigits? rest = _
      cases rest with
      | nil => rfl
      | cons next others =>
          rcases ended next rfl with ⟨_, _, notSmall, notLarge⟩
          rw [exponentDigits?, if_neg (not_or.mpr ⟨notSmall, notLarge⟩)]
  | some exponent =>
      rcases exponent with ⟨negative, digits⟩
      rcases areDigits negative digits rfl with ⟨nonempty, areDigits⟩
      have signed : Decimal.sign ((if negative then '-' else '+') :: (digits ++ rest)) =
          (negative, digits ++ rest) := by
        cases negative <;> rfl
      change exponentDigits? ('e' :: (if negative then '-' else '+') :: (digits ++ rest)) = _
      rw [exponentDigits?, if_pos (Or.inl rfl), signed]
      dsimp only
      rw [Digits.split_append_of_digits areDigits fun next isNext => (ended next isNext).1]
      dsimp only
      rw [if_neg (by simpa using nonempty)]

/-- A grammatical number is read back, if the text does not go on with it. -/
theorem numberText?_write {number : JsonNumber} (grammatical : number.IsGrammatical)
    {rest : List Char} (ended : EndsNumber rest) :
    numberText? (number.write ++ rest) = some (number, rest) := by
  have afterFraction : forall next, next ∈ (exponentText number.exponent ++ rest).head? ->
      next.isDigit = false ∧ next ≠ '.' := by
    intro next isNext
    rcases exponentText_head isNext with rfl | isNext
    · decide
    · exact ⟨(ended next isNext).1, (ended next isNext).2.1⟩
  have afterWhole : forall next, next ∈ (fractionText number.fraction ++
      (exponentText number.exponent ++ rest)).head? -> next.isDigit = false := by
    intro next isNext
    rcases fractionText_head isNext with rfl | isNext
    · decide
    · exact (afterFraction next isNext).1
  have whole := wholeDigits?_append grammatical.whole_ne_nil grammatical.whole grammatical.leading
    afterWhole
  have fraction := fractionDigits?_append grammatical.fraction afterFraction
  have exponent := exponentDigits?_append grammatical.exponent ended
  rcases number with ⟨negative, digits, fractionDigits, power⟩
  rw [JsonNumber.write_append]
  dsimp only at whole fraction exponent ⊢
  unfold numberText?
  cases negative with
  | true =>
      simp only [if_true, List.singleton_append]
      rw [whole]
      simp only [Option.bind_eq_bind, Option.bind_some, fraction, exponent]
  | false =>
      simp only [Bool.false_eq_true, if_false, List.nil_append]
      split
      · -- A whole part does not begin with a sign.
        rename_i others signed
        cases digits with
        | nil => exact absurd rfl grammatical.whole_ne_nil
        | cons first more =>
            cases (List.cons.inj signed).1
            exact absurd (grammatical.whole '-' List.mem_cons_self) (by decide)
      · rw [whole]
        simp only [Option.bind_eq_bind, Option.bind_some, fraction, exponent]

/-- After a zero in front nothing is taken that looks like one more digit of the whole part. -/
theorem numberText?_zero_digit (negative : Bool) {next : Char} (isDigit : next.isDigit = true)
    (others : List Char) :
    numberText? ((if negative then ['-'] else []) ++ '0' :: next :: others) =
      some (⟨negative, ['0'], [], none⟩, next :: others) := by
  have notPoint : next ≠ '.' := by
    rintro rfl
    cases isDigit
  have notMarker : ¬ (next = 'e' ∨ next = 'E') := by
    rintro (rfl | rfl) <;> cases isDigit
  have fraction : fractionDigits? (next :: others) = some ([], next :: others) := by
    rw [fractionDigits?]
    intro rest same
    exact notPoint (List.cons.inj same).1
  have exponent : exponentDigits? (next :: others) = some (none, next :: others) := by
    rw [exponentDigits?, if_neg notMarker]
  cases negative <;> simp [numberText?, wholeDigits?, fraction, exponent]

end Json

namespace JsonNumber

/-- The text of a number in digits is grammatical, or one more digit is attached to a zero in front. -/
theorem HasDigits.isGrammatical_or {number : JsonNumber} (digits : number.HasDigits) :
    number.IsGrammatical ∨ exists next others, next.isDigit = true ∧
      number.write = (if number.negative then ['-'] else []) ++ '0' :: next :: others := by
  by_cases leading : forall rest, number.whole = '0' :: rest -> rest = []
  · exact Or.inl ⟨digits, leading⟩
  · right
    simp only [not_forall] at leading
    rcases leading with ⟨rest, leads, longer⟩
    cases rest with
    | nil => exact absurd rfl longer
    | cons next others =>
        have text := number.write_append []
        rw [List.append_nil, leads] at text
        refine ⟨next, _, digits.whole next ?_, text⟩
        rw [leads]
        exact List.mem_cons_of_mem _ List.mem_cons_self

/-! ## Integers and doubles -/

theorem isGrammatical_ofInt (value : Int) : (ofInt value).IsGrammatical where
  whole_ne_nil := Digits.ofNat_ne_nil _
  whole := fun _ isMember => Digits.isDigit_of_mem_ofNat isMember
  fraction := fun _ isMember => nomatch isMember
  exponent := fun _ _ isExponent => nomatch isExponent
  leading := fun _ leads => Digits.ofNat_leading_zero leads

/-- An integer is read as it was written. -/
theorem toInt?_ofInt (value : Int) : (ofInt value).toInt? = some value := by
  simp only [toInt?, ofInt, Digits.toNat_ofNat, List.isEmpty_nil, Option.isNone_none, and_self,
    if_true, decide_eq_true_eq, Int.natAbs_eq_zero]
  split
  · rename_i negative
    rw [if_neg (by omega)]
    congr 1
    omega
  · congr 1
    omega

theorem isDigit_of_mem_zeros (count : Nat) {digit : Char}
    (isMember : digit ∈ List.replicate count '0') : digit.isDigit = true := by
  rw [List.eq_of_mem_replicate isMember]
  rfl

theorem hasDigits_ofDecimal (negative : Bool) (decimal : Shortest.Decimal) :
    (ofDecimal negative decimal).HasDigits := by
  have nonempty := Digits.ofNat_ne_nil decimal.digits
  have areDigits {digit : Char} (isMember : digit ∈ Digits.ofNat decimal.digits) :
      digit.isDigit = true :=
    Digits.isDigit_of_mem_ofNat isMember
  have isZero {digit : Char} (isMember : digit ∈ ['0']) : digit.isDigit = true :=
    isDigit_of_mem_zeros 1 isMember
  have noExponent {negative : Bool} {digits : List Char}
      (impossible : (none : Option (Bool × List Char)) = some (negative, digits)) :
      digits ≠ [] ∧ forall digit, digit ∈ digits -> digit.isDigit = true :=
    nomatch impossible
  unfold ofDecimal
  dsimp only
  split
  · split
    · -- The digits and zeros up to the point.
      refine ⟨List.append_ne_nil_of_left_ne_nil nonempty _, ?_, fun _ => isZero,
        fun _ _ => noExponent⟩
      intro digit isMember
      rcases List.mem_append.mp isMember with own | zero
      · exact areDigits own
      · exact isDigit_of_mem_zeros _ zero
    · split
      · -- The point between two digits.
        refine ⟨?_, fun _ isMember => areDigits (List.mem_of_mem_take isMember),
          fun _ isMember => areDigits (List.mem_of_mem_drop isMember), fun _ _ => noExponent⟩
        rw [Ne, List.take_eq_nil_iff, not_or]
        exact ⟨by omega, nonempty⟩
      · -- Zeros between the point and the digits.
        refine ⟨List.cons_ne_nil _ _, fun _ => isZero, ?_, fun _ _ => noExponent⟩
        intro digit isMember
        rcases List.mem_append.mp isMember with zero | own
        · exact isDigit_of_mem_zeros _ zero
        · exact areDigits own
  · -- The point after the first digit, and a power of ten.
    refine ⟨?_, fun _ isMember => areDigits (List.mem_of_mem_take isMember),
      fun _ isMember => areDigits (List.mem_of_mem_drop isMember), ?_⟩
    · rw [Ne, List.take_eq_nil_iff, not_or]
      exact ⟨Nat.one_ne_zero, nonempty⟩
    · intro powerNegative digits isExponent
      cases isExponent
      exact ⟨Digits.ofNat_ne_nil _, fun _ => Digits.isDigit_of_mem_ofNat⟩

theorem hasDigits_of_ofFloat? {value : Float} {number : JsonNumber}
    (isWritten : ofFloat? value = some number) : number.HasDigits := by
  unfold ofFloat? at isWritten
  split at isWritten
  · split at isWritten
    · cases isWritten
      exact ⟨List.cons_ne_nil _ _, fun _ => isDigit_of_mem_zeros 1,
        fun _ => isDigit_of_mem_zeros 1, fun _ _ none => nomatch none⟩
    · cases isWritten
      exact hasDigits_ofDecimal _ _
  · cases isWritten

end JsonNumber

namespace Json

/-- A 64-bit integer is read as it was written. -/
theorem int64?_ofInt (value : Int64) : int64? (ofInt value.toInt) = some value := by
  have above := value.le_toInt
  have below := value.toInt_lt
  unfold int64? intBetween? ofInt
  dsimp only
  rw [JsonNumber.toInt?_ofInt]
  dsimp only
  rw [if_pos ⟨above, by simp; omega⟩, Option.map_some, Int64.ofInt_toInt]

/-- A natural number is written as the integer that it is. -/
theorem ofNat_eq_ofInt (value : Nat) : ofNat value = ofInt value := by
  have notNegative : ¬ (value : Int) < 0 := by omega
  rw [ofNat, ofInt, JsonNumber.ofNat, JsonNumber.ofInt, decide_eq_false notNegative,
    Int.natAbs_natCast]

/-- A natural number below a bound is read as it was written. -/
theorem natBelow?_ofNat {bound value : Nat} (below : value < bound) :
    natBelow? bound (ofNat value) = some value := by
  rw [ofNat_eq_ofInt]
  unfold natBelow? intBetween? ofInt
  dsimp only
  rw [JsonNumber.toInt?_ofInt]
  dsimp only
  rw [if_pos (by omega), Option.map_some, Int.toNat_natCast]

end Json
end QueryFederation

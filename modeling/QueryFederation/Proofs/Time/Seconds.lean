import QueryFederation.Proofs.Number.Numerals
import QueryFederation.Time.Reading

/-!
# Seconds that are typed

A typed number of seconds is rounded twice, as the number that the text spells and as a thousand times that
number, before it is rounded to whole milliseconds and held within 64 bits.  What comes of these steps is
given here without them: the double nearest to the spelled quantity, the double nearest to a thousand times
this double, and the whole number nearest to that.  The cut to 64 bits never shows, because what it changes
lies outside the calendar before and after.

Whole seconds pass all steps unchanged as long as the calendar has them, and those beyond it stay beyond it.
A text for "not a number" is the one exception to the rule that what is answered is what was typed.
-/

namespace QueryFederation

open Binary64 (Double Magnitude Number RoundsTo signed)
open Decimal (Spelling)
open Rounding (awayFromZero)

namespace Instant

/-! ## Milliseconds of the calendar -/

/-- Whether a count of milliseconds is that of a point in time. -/
def HasMillis (millis : Int) : Prop :=
  firstSecond * 1000 ≤ millis ∧ millis ≤ lastSecond * 1000 + 999

theorem exists_ofMillis? {millis : Int} (has : HasMillis millis) :
    exists instant, ofMillis? millis = some instant ∧ instant.seconds = millis / 1000 ∧
      instant.nanos = (millis % 1000).toNat * 1000000 := by
  unfold HasMillis firstSecond lastSecond at has
  have range : firstSecond ≤ millis / 1000 ∧ millis / 1000 ≤ lastSecond := by
    unfold firstSecond lastSecond
    omega
  have plain : (millis % 1000).toNat * 1000000 < nanosPerSecond := by
    unfold nanosPerSecond
    omega
  rw [ofMillis?, ofParts?, dif_pos range, dif_pos (.inl plain)]
  exact ⟨_, rfl, rfl, rfl⟩

theorem ofMillis?_eq_none {millis : Int} (hasNot : ¬ HasMillis millis) : ofMillis? millis = none := by
  rw [ofMillis?, ofParts?, dif_neg]
  intro range
  apply hasNot
  unfold HasMillis
  unfold firstSecond lastSecond at range ⊢
  omega

/-- A count that does not fit into 64 bits is no point in time, and neither is what is made of it. -/
theorem ofMillis?_clampMillis (millis : Int) : ofMillis? (clampMillis millis) = ofMillis? millis := by
  by_cases fits : -(2 ^ 63) ≤ millis ∧ millis ≤ 2 ^ 63 - 1
  · have same : clampMillis millis = millis := by
      simp only [clampMillis, Nat.pow_eq]
      omega
    rw [same]
  · rw [ofMillis?_eq_none, ofMillis?_eq_none]
    · unfold HasMillis firstSecond lastSecond
      omega
    · simp only [HasMillis, firstSecond, lastSecond, clampMillis, Nat.pow_eq]
      omega

/-! ## A thousand times a number -/

/-- The rounded product of a number and a thousand. -/
inductive Thousandfold : Number -> Number -> Prop where
  | notANumber : Thousandfold .notANumber .notANumber
  | infinite (negative : Bool) : Thousandfold (.infinite negative) (.infinite negative)
  | finite {value : ℚ} {product : Number} (rounds : RoundsTo (1000 * value) product) :
      Thousandfold (.finite value) product

/-- The milliseconds that a product stands for before they are held within 64 bits. -/
def wholeMillis : Number -> Int
  | .notANumber => 0
  | .infinite negative => if negative then -(Nat.pow 2 64) else Nat.pow 2 64
  | .finite value => awayFromZero value

theorem wholePart_eq_round (mantissa : Nat) (exponent : Int) :
    (wholePart mantissa exponent : Int) = round (mantissa * 2 ^ exponent : ℚ) := by
  have two : ((2 : Nat) : ℚ) = 2 := Nat.cast_two
  rw [← two]
  unfold wholePart
  split
  · rename_i nonneg
    rw [zpow_eq_pow nonneg, ← Nat.cast_mul, round_natCast]
  · rename_i negative
    rw [zpow_eq_inv negative, ← div_eq_mul_inv]
    exact (Rounding.round_eq_halfUp mantissa (Nat.two_pow_pos _)).symm

theorem awayFromZero_signed (negative : Bool) {quantity : ℚ} (nonneg : 0 ≤ quantity) :
    awayFromZero (signed negative quantity) = if negative then -round quantity else round quantity := by
  unfold awayFromZero signed
  cases negative with
  | false => exact if_neg (not_lt_of_ge nonneg)
  | true =>
      rcases nonneg.eq_or_lt with rfl | positive
      · simp
      · have below : -quantity < 0 := neg_neg_of_pos positive
        simp only [if_true, if_pos below, neg_neg]

/-- The milliseconds of a rounded magnitude under a sign, before they are held within 64 bits. -/
def magnitudeMillis (negative : Bool) (magnitude : Magnitude) : Int :=
  let millis : Int :=
    match magnitudeMillis? magnitude with
    | none => Nat.pow 2 64
    | some millis => millis
  if negative then -millis else millis

/-- The procedure computes the product with a thousand and rounds it to whole milliseconds. -/
theorem exists_product (negative : Bool) (magnitude : Magnitude) :
    exists product, Thousandfold (magnitude.number negative) product ∧
      wholeMillis product = magnitudeMillis negative magnitude := by
  cases magnitude with
  | overflow => exact ⟨_, .infinite negative, rfl⟩
  | value mantissa exponent =>
      have nonneg : (0 : ℚ) ≤ mantissa * 2 ^ exponent := by positivity
      have factor : (1000 : Nat) * signed negative (mantissa * 2 ^ exponent) =
          signed negative ((1000 : Nat) * (mantissa * 2 ^ exponent)) := by
        cases negative with
        | false => rfl
        | true => exact mul_neg _ _
      have rounds := (Binary64.nearestMultiple_isRounded 1000 mantissa exponent).roundsTo
        (by positivity) negative
      rw [← factor] at rounds
      refine ⟨_, .finite rounds, ?_⟩
      cases rounded : Binary64.nearestMultiple 1000 mantissa exponent with
      | overflow => simp only [magnitudeMillis, magnitudeMillis?, rounded, Magnitude.number, wholeMillis]
      | value product power =>
          have productNonneg : (0 : ℚ) ≤ product * 2 ^ power := by positivity
          simp only [magnitudeMillis, magnitudeMillis?, rounded, wholePart_eq_round]
          exact awayFromZero_signed negative productNonneg

theorem ofMillis?_infinite (negative : Bool) : ofMillis? (wholeMillis (.infinite negative)) = none := by
  cases negative <;> decide

theorem Thousandfold.unique {reading product other : Number} (thousandfold : Thousandfold reading product)
    (otherThousandfold : Thousandfold reading other) : product = other := by
  cases thousandfold with
  | notANumber =>
      cases otherThousandfold
      rfl
  | infinite negative =>
      cases otherThousandfold
      rfl
  | finite rounds =>
      cases otherThousandfold with
      | finite otherRounds => exact rounds.unique otherRounds

theorem exists_readings (spelling : Spelling) :
    exists reading product, spelling.ReadsAs reading ∧ Thousandfold reading product ∧
      ofMillis? (literalMillis spelling.literal) = ofMillis? (wholeMillis product) := by
  cases spelling with
  | notANumber sign word isWord => exact ⟨_, _, .notANumber isWord, .notANumber, rfl⟩
  | infinite sign word isWord => exact ⟨_, _, .infinite isWord, .infinite _, ofMillis?_clampMillis _⟩
  | inDigits numeral =>
      rcases exists_product numeral.sign.isNegative
        (Decimal.nearest numeral.significand numeral.scale) with ⟨product, thousandfold, millis⟩
      refine ⟨_, product, Spelling.readsAs_number numeral, thousandfold, ?_⟩
      rw [millis]
      exact ofMillis?_clampMillis _

/-! ## What is answered -/

section Answers

variable {spelling : Spelling} {reading product : Number}

/-- A text for a number is answered with the milliseconds of the product. -/
theorem read_text (readsAs : spelling.ReadsAs reading) (thousandfold : Thousandfold reading product) :
    read spelling.text =
      (ofMillis? (wholeMillis product)).elim (.error (.outOfRange spelling.text)) .ok := by
  rcases exists_readings spelling with ⟨reading', product', readsAs', thousandfold', millis⟩
  have sameReading : reading = reading' := readsAs.unique readsAs'
  subst sameReading
  have sameProduct : product = product' := thousandfold.unique thousandfold'
  subst sameProduct
  rw [read, Decimal.read?_text, ← millis]
  dsimp only
  cases ofMillis? (literalMillis spelling.literal) <;> rfl

/-- What should be answered to a text whose number has a given thousandfold. -/
inductive IsAnswered (text : String) : Number -> Except TimeFault Instant -> Prop where
  /-- The point in time that many milliseconds after the beginning of 1970. -/
  | time {value : ℚ} {instant : Instant} (millis : instant.millis = awayFromZero value)
      (whole : instant.nanos % 1000000 = 0) (plain : instant.nanos < nanosPerSecond) :
      IsAnswered text (.finite value) (.ok instant)
  | outside {value : ℚ} (hasNot : ¬ HasMillis (awayFromZero value)) :
      IsAnswered text (.finite value) (.error (.outOfRange text))
  | infinite (negative : Bool) : IsAnswered text (.infinite negative) (.error (.outOfRange text))
  | notANumber (fault : TimeFault) : IsAnswered text .notANumber (.error fault)

theorem isAnswered_finite (text : String) (value : ℚ) :
    IsAnswered text (.finite value)
      ((ofMillis? (awayFromZero value)).elim (.error (.outOfRange text)) .ok) := by
  by_cases has : HasMillis (awayFromZero value)
  · rcases exists_ofMillis? has with ⟨instant, found, seconds, nanos⟩
    rw [found]
    refine .time ?_ ?_ ?_
    · rw [millis, seconds, nanos]
      omega
    · omega
    · unfold nanosPerSecond
      omega
  · rw [ofMillis?_eq_none has]
    exact .outside has

/-- Every text for a number is answered as its number demands, except that a text for "not a number" is
taken for the beginning of 1970. -/
theorem number_answered_unless_nan (readsAs : spelling.ReadsAs reading)
    (thousandfold : Thousandfold reading product) :
    (IsAnswered spelling.text product (read spelling.text) <-> reading ≠ .notANumber) ∧
      (reading = .notANumber -> read spelling.text = .ok .epoch) := by
  have answer := read_text readsAs thousandfold
  cases thousandfold with
  | notANumber =>
      have atEpoch : read spelling.text = .ok .epoch := answer
      refine ⟨iff_of_false ?_ (fun differs => differs rfl), fun _ => atEpoch⟩
      rw [atEpoch]
      rintro ⟨⟩
  | infinite negative =>
      rw [answer, ofMillis?_infinite]
      exact ⟨iff_of_true (.infinite negative) nofun, nofun⟩
  | @finite value _ rounds =>
      refine ⟨iff_of_true ?_ nofun, nofun⟩
      rw [answer]
      cases product with
      | notANumber => cases rounds
      | infinite negative =>
          rw [ofMillis?_infinite]
          exact .infinite negative
      | finite value => exact isAnswered_finite spelling.text value

end Answers

/-- Half a millisecond before 1970 is rounded away from zero. -/
theorem number_answered_unless_nan_half :
    exists spelling : Spelling, exists product instant,
      spelling.text = "-0.0005" ∧ IsAnswered "-0.0005" product (read "-0.0005") ∧
        read "-0.0005" = .ok instant ∧ instant.millis = -1 := by
  let numeral : Decimal.Numeral :=
    ⟨.minus, ['0'], some ['0', '0', '0', '5'], none, List.all_eq_true.mp (by decide),
      List.all_eq_true.mp (by decide), by decide⟩
  have text : (Spelling.inDigits numeral).text = "-0.0005" := by decide
  rcases exists_readings (.inDigits numeral) with ⟨reading, product, readsAs, thousandfold, _⟩
  have finite : reading ≠ .notANumber := by
    rintro rfl
    cases readsAs with
    | inDigits rounds => cases rounds
  have answered := (number_answered_unless_nan readsAs thousandfold).1.mpr finite
  rw [text] at answered
  exact ⟨_, product, ⟨-1, 999000000, by decide, by decide⟩, text, answered, by decide +kernel, by decide⟩

/-- Not every text for a number is answered as its number demands: a text for "not a number" stands for no
point in time, and yet it is answered with one. -/
theorem nan_answered_with_epoch :
    ¬ forall (spelling : Spelling) (reading product : Number), spelling.ReadsAs reading ->
      Thousandfold reading product -> IsAnswered spelling.text product (read spelling.text) := by
  intro always
  let spelling : Spelling := .notANumber .absent "nan".toList (by decide)
  have text : spelling.text = "nan" := by decide
  have atEpoch : read spelling.text = .ok .epoch := by
    rw [text]
    decide +kernel
  have answered := always spelling .notANumber .notANumber (.notANumber (by decide)) .notANumber
  rw [atEpoch] at answered
  cases answered

/-! ## Whole seconds -/

/-- Whole seconds at least this far from 1970 lie outside the calendar.  Below this bound a thousandfold is
exact. -/
def farSeconds : Nat :=
  2 ^ 43

theorem not_hasMillis_of_far {millis : Int} (far : 1000 * farSeconds ≤ millis.natAbs) :
    ¬ HasMillis millis := by
  unfold farSeconds at far
  unfold HasMillis firstSecond lastSecond
  omega

theorem far_wholeMillis {quantity : ℚ} (large : (farSeconds : ℚ) ≤ |quantity|) {reading product : Number}
    (rounds : RoundsTo quantity reading) (thousandfold : Thousandfold reading product) :
    1000 * farSeconds ≤ (wholeMillis product).natAbs := by
  have infinite (negative : Bool) :
      1000 * farSeconds ≤ (wholeMillis (.infinite negative)).natAbs := by
    cases negative <;> decide
  have range : (-1074 : Int) ≤ 43 ∧ (43 : Int) ≤ 971 := by decide
  rcases Double.exists_of_digits (by decide : 1 < 2 ^ 53) range with ⟨seconds, _, secondsMagnitude⟩
  rcases Double.exists_of_digits (by decide : 1000 < 2 ^ 53) range with ⟨millis, _, millisMagnitude⟩
  have secondsFar : seconds.magnitude = farSeconds := by
    rw [secondsMagnitude]
    norm_num [farSeconds]
  have millisFar : millis.magnitude = (1000 * farSeconds : Nat) := by
    rw [millisMagnitude]
    norm_num [farSeconds]
  rw [← secondsFar] at large
  rcases rounds.far seconds large with ⟨negative, rfl⟩ | ⟨value, rfl, valueLarge⟩
  · cases thousandfold
    exact infinite negative
  · cases thousandfold with
    | finite rounds =>
        have productLarge : millis.magnitude ≤ |1000 * value| := by
          rw [secondsFar] at valueLarge
          rw [millisFar, abs_mul, abs_of_pos (by norm_num : (0 : ℚ) < 1000)]
          push_cast
          linarith
        rcases rounds.far millis productLarge with ⟨negative, rfl⟩ | ⟨rounded, rfl, roundedLarge⟩
        · exact infinite negative
        · rw [millisFar] at roundedLarge
          exact Rounding.le_awayFromZero roundedLarge

theorem wholeMillis_of_int {seconds : Int} (near : seconds.natAbs < farSeconds) {reading product : Number}
    (rounds : RoundsTo seconds reading) (thousandfold : Thousandfold reading product) :
    wholeMillis product = 1000 * seconds := by
  unfold farSeconds at near
  have exact : reading = .finite seconds := rounds.unique (.of_int (by omega))
  subst exact
  cases thousandfold with
  | finite productRounds =>
      have cast : ((1000 * seconds : Int) : ℚ) = 1000 * seconds := by push_cast; rfl
      have exactProduct := RoundsTo.of_int (by omega : (1000 * seconds).natAbs < 2 ^ 53)
      rw [← cast] at productRounds
      rw [productRounds.unique exactProduct]
      exact Rounding.awayFromZero_intCast _

/-- Whole seconds keep exact, or they are far from the calendar before and after rounding. -/
theorem wholeMillis_cases {seconds : Int} {reading product : Number} (rounds : RoundsTo seconds reading)
    (thousandfold : Thousandfold reading product) :
    wholeMillis product = 1000 * seconds ∨
      farSeconds ≤ seconds.natAbs ∧ ¬ HasMillis (wholeMillis product) := by
  rcases lt_or_ge seconds.natAbs farSeconds with near | far
  · exact .inl (wholeMillis_of_int near rounds thousandfold)
  · have large : (farSeconds : ℚ) ≤ |(seconds : ℚ)| := by
      have cast : ((seconds.natAbs : Nat) : ℚ) = |(seconds : ℚ)| := by
        rw [Nat.cast_natAbs, Int.cast_abs]
      rw [← cast]
      exact_mod_cast far
    exact .inr ⟨far, not_hasMillis_of_far (far_wholeMillis large rounds thousandfold)⟩

/-- A typed integer is answered with exactly that many seconds if the calendar has them, and refused with its
own text if not. -/
theorem integer_seconds_exact {text : String} {sign : Decimal.Sign} {digits : List Char}
    (written : text.toList = sign.text ++ digits) (nonempty : digits ≠ [])
    (areDigits : forall digit, digit ∈ digits -> digit.isDigit = true) :
    (-8334601228800 ≤ sign.integer digits ∧ sign.integer digits ≤ 8210266876799 ->
      exists instant, read text = .ok instant ∧ instant.seconds = sign.integer digits ∧
        instant.nanos = 0) ∧
    (¬ (-8334601228800 ≤ sign.integer digits ∧ sign.integer digits ≤ 8210266876799) ->
      exists fault, read text = .error fault ∧ fault.message = "timestamp out of range: " ++ text) := by
  let numeral := Decimal.Numeral.ofDigits sign nonempty areDigits
  have spelled : (Spelling.inDigits numeral).text = text := by
    rw [Spelling.text, Decimal.Numeral.ofDigits_unsignedText]
    exact (congrArg String.ofList written.symm).trans String.ofList_toList
  rcases exists_readings (.inDigits numeral) with ⟨reading, product, readsAs, thousandfold, _⟩
  have answer := read_text readsAs thousandfold
  rw [spelled] at answer
  cases readsAs with
  | inDigits rounds =>
      rw [Decimal.Numeral.ofDigits_value] at rounds
      generalize sign.integer digits = seconds at rounds ⊢
      have millis := wholeMillis_cases rounds thousandfold
      constructor
      · intro range
        have exact : wholeMillis product = 1000 * seconds := by
          rcases millis with exact | ⟨far, _⟩
          · exact exact
          · unfold farSeconds at far
            omega
        have has : HasMillis (wholeMillis product) := by
          unfold HasMillis firstSecond lastSecond
          omega
        rcases exists_ofMillis? has with ⟨instant, found, instantSeconds, nanos⟩
        rw [found] at answer
        exact ⟨instant, answer, by omega, by omega⟩
      · intro outside
        have hasNot : ¬ HasMillis (wholeMillis product) := by
          rcases millis with exact | ⟨_, hasNot⟩
          · unfold HasMillis firstSecond lastSecond
            omega
          · exact hasNot
        rw [ofMillis?_eq_none hasNot] at answer
        exact ⟨_, answer, rfl⟩

/-- The first second of the calendar, with a leading zero. -/
theorem integer_seconds_exact_first :
    exists instant, read "-08334601228800" = .ok instant ∧ instant.seconds = -8334601228800 ∧
      instant.nanos = 0 :=
  (integer_seconds_exact (by decide : "-08334601228800".toList = Decimal.Sign.minus.text ++
    ['0', '8', '3', '3', '4', '6', '0', '1', '2', '2', '8', '8', '0', '0']) (by decide)
    (List.all_eq_true.mp (by decide))).1 (by decide)

end Instant
end QueryFederation

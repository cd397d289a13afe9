import QueryFederation.Number.Decimal
import QueryFederation.Proofs.Json.Numbers
import QueryFederation.Proofs.Number.Nearest

/-!
# Numbers in decimal spelling

How a number may be typed, and what number it then is.  A spelling is a word or a numeral: digits with a
sign, a point and a power of ten, of which all but one digit may be left out.  The exact quantity that a
numeral stands for is given by its digits alone; the reader has to find the spelling again in the text, and
to round that quantity to the nearest double.  It takes no text that has no spelling.

Far beyond the doubles the reader decides by the number of digits and the power of ten without computing
any quotient.  What it decides is what rounding would give.
-/

namespace QueryFederation
namespace Decimal

open Digits (ne_of_isDigit split_append_of_digits toNat_of_isDigit)

/-! ## Spellings -/

/-- The sign in front of a number or of a power. -/
inductive Sign where
  | absent
  | plus
  | minus
  deriving DecidableEq

namespace Sign

def text : Sign -> List Char
  | absent => []
  | plus => ['+']
  | minus => ['-']

def isNegative : Sign -> Bool
  | minus => true
  | _ => false

/-- The integer that digits are under a sign. -/
def integer (sign : Sign) (digits : List Char) : Int :=
  if sign.isNegative then -(Digits.toNat digits : Int) else Digits.toNat digits

end Sign

/-- A power of ten at the end of a numeral. -/
structure Power where
  marker : Char
  sign : Sign
  digits : List Char
  isMarker : marker = 'e' ∨ marker = 'E'
  nonempty : digits ≠ []
  areDigits : forall digit, digit ∈ digits -> digit.isDigit = true

namespace Power

def text (power : Power) : List Char :=
  power.marker :: (power.sign.text ++ power.digits)

def value (power : Power) : Int :=
  power.sign.integer power.digits

end Power

/-- A number in digits.  The fraction is what follows the point, if there is a point. -/
structure Numeral where
  sign : Sign
  whole : List Char
  fraction : Option (List Char)
  power : Option Power
  wholeDigits : forall digit, digit ∈ whole -> digit.isDigit = true
  fractionDigits : forall digit, digit ∈ fraction.getD [] -> digit.isDigit = true
  nonempty : whole ++ fraction.getD [] ≠ []

namespace Numeral

/-- The point and what follows it. -/
def pointText (numeral : Numeral) : List Char :=
  numeral.fraction.elim [] ('.' :: ·)

def powerText (numeral : Numeral) : List Char :=
  numeral.power.elim [] Power.text

def unsignedText (numeral : Numeral) : List Char :=
  numeral.whole ++ (numeral.pointText ++ numeral.powerText)

/-- The digits on both sides of the point, as one number. -/
def significand (numeral : Numeral) : Nat :=
  Digits.toNat (numeral.whole ++ numeral.fraction.getD [])

/-- The power of ten by which the digits are scaled: each digit after the point lowers it by one. -/
def scale (numeral : Numeral) : Int :=
  numeral.power.elim 0 Power.value - (numeral.fraction.getD []).length

/-- The exact quantity that a numeral stands for. -/
def value (numeral : Numeral) : ℚ :=
  Binary64.signed numeral.sign.isNegative (numeral.significand * 10 ^ numeral.scale)

/-- An integer has neither a point nor a power of ten. -/
def ofDigits (sign : Sign) {digits : List Char} (nonempty : digits ≠ [])
    (areDigits : forall digit, digit ∈ digits -> digit.isDigit = true) : Numeral where
  sign := sign
  whole := digits
  fraction := none
  power := none
  wholeDigits := areDigits
  fractionDigits := nofun
  nonempty := by
    rw [Option.getD_none, List.append_nil]
    exact nonempty

section Integers

variable {sign : Sign} {digits : List Char} (nonempty : digits ≠ [])
  (areDigits : forall digit, digit ∈ digits -> digit.isDigit = true)

@[simp]
theorem ofDigits_unsignedText : (ofDigits sign nonempty areDigits).unsignedText = digits := by
  simp [ofDigits, unsignedText, pointText, powerText]

@[simp]
theorem ofDigits_value : (ofDigits sign nonempty areDigits).value = sign.integer digits := by
  simp only [ofDigits, value, significand, scale, Option.elim_none, Option.getD_none, List.append_nil,
    List.length_nil, Binary64.signed, Sign.integer]
  split <;> simp

end Integers
end Numeral

/-- Everything that is read as a floating-point number. -/
inductive Spelling where
  | notANumber (sign : Sign) (word : List Char) (isWord : word.map Char.toLower = "nan".toList)
  | infinite (sign : Sign) (word : List Char)
      (isWord : word.map Char.toLower = "inf".toList ∨ word.map Char.toLower = "infinity".toList)
  | inDigits (numeral : Numeral)

namespace Spelling

def text : Spelling -> String
  | notANumber sign word _ => String.ofList (sign.text ++ word)
  | infinite sign word _ => String.ofList (sign.text ++ word)
  | inDigits numeral => String.ofList (numeral.sign.text ++ numeral.unsignedText)

/-- The number that a text in this spelling is: for a numeral the quantity it stands for, rounded. -/
inductive ReadsAs : Spelling -> Binary64.Number -> Prop where
  | notANumber {sign : Sign} {word : List Char} (isWord : word.map Char.toLower = "nan".toList) :
      ReadsAs (.notANumber sign word isWord) .notANumber
  | infinite {sign : Sign} {word : List Char}
      (isWord : word.map Char.toLower = "inf".toList ∨ word.map Char.toLower = "infinity".toList) :
      ReadsAs (.infinite sign word isWord) (.infinite sign.isNegative)
  | inDigits {numeral : Numeral} {number : Binary64.Number}
      (rounds : Binary64.RoundsTo numeral.value number) : ReadsAs (.inDigits numeral) number

/-- What the reader finds in a text of this spelling. -/
def literal : Spelling -> Literal
  | notANumber _ _ _ => .notANumber
  | infinite sign _ _ => .infinite sign.isNegative
  | inDigits numeral => .finite numeral.sign.isNegative numeral.significand numeral.scale

end Spelling

/-! ## Finding the spelling -/

theorem sign_text (written : Sign) {first : Char} (isNone : first ≠ '-' ∧ first ≠ '+')
    (rest : List Char) : sign (written.text ++ first :: rest) = (written.isNegative, first :: rest) := by
  cases written with
  | plus => rfl
  | minus => rfl
  | absent =>
      rw [Sign.text, List.nil_append, sign]
      · rfl
      · exact fun _ same => isNone.1 (List.cons.inj same).1
      · exact fun _ same => isNone.2 (List.cons.inj same).1

theorem toLower_of_isDigit {digit : Char} (isDigit : digit.isDigit = true) : digit.toLower = digit := by
  have range : digit.val.toNat ≤ 57 := (toNat_of_isDigit isDigit).2
  refine dif_neg fun upper => ?_
  have letter : 65 ≤ digit.val.toNat := UInt32.le_iff_toNat_le.mp upper.1
  omega

theorem power?_text (power : Power) : power? power.text = some power.value := by
  rcases Digits.exists_eq_cons power.nonempty power.areDigits with ⟨first, others, digits, isDigit⟩
  have unsigned : first ≠ '-' ∧ first ≠ '+' :=
    ⟨ne_of_isDigit isDigit (by decide), ne_of_isDigit isDigit (by decide)⟩
  have found := sign_text power.sign unsigned others
  have all : power.digits.all Char.isDigit = true := List.all_eq_true.mpr power.areDigits
  rw [← digits] at found
  rw [Power.text, power?, if_pos power.isMarker, found]
  dsimp only
  rw [if_neg (by simp [power.nonempty, all])]
  rfl

namespace Numeral

variable (numeral : Numeral)

/-- A power of ten goes on with no digits and with no point. -/
theorem powerText_head : forall next, next ∈ numeral.powerText.head? ->
    next.isDigit = false ∧ next ≠ '.' := by
  intro next isNext
  unfold powerText at isNext
  cases written : numeral.power with
  | none =>
      rw [written] at isNext
      cases isNext
  | some power =>
      rw [written] at isNext
      rw [← Option.some.inj isNext]
      rcases power.isMarker with marker | marker <;> rw [marker] <;> decide

theorem power?_powerText : power? numeral.powerText = some (numeral.power.elim 0 Power.value) := by
  unfold powerText
  cases numeral.power with
  | none => rfl
  | some power => exact power?_text power

theorem digits?_unsignedText (negative : Bool) :
    digits? negative numeral.unsignedText = some (.finite negative numeral.significand numeral.scale) := by
  have notDigit : forall next, next ∈ numeral.powerText.head? -> next.isDigit = false :=
    fun next isNext => (numeral.powerText_head next isNext).1
  have notPoint : forall afterPoint, numeral.powerText ≠ '.' :: afterPoint := by
    intro afterPoint same
    exact (numeral.powerText_head '.' (by rw [same]; rfl)).2 rfl
  have power := numeral.power?_powerText
  have nonempty := numeral.nonempty
  have fractionDigits := numeral.fractionDigits
  unfold digits? unsignedText pointText significand scale
  cases written : numeral.fraction with
  | none =>
      rw [written] at nonempty
      rw [Option.elim_none, List.nil_append, split_append_of_digits numeral.wholeDigits notDigit]
      dsimp only
      split
      · rename_i same
        exact absurd same (notPoint _)
      · dsimp only
        rw [if_neg (by simpa using nonempty), power]
        rfl
  | some fraction =>
      rw [written, Option.getD_some] at nonempty fractionDigits
      have ended : forall next, next ∈ ('.' :: (fraction ++ numeral.powerText)).head? ->
          next.isDigit = false := ended_cons rfl _
      rw [Option.elim_some, List.cons_append, split_append_of_digits numeral.wholeDigits ended]
      simp only [split_append_of_digits fractionDigits notDigit]
      rw [if_neg (by simpa using nonempty), power]
      rfl

theorem exists_unsignedText_eq_cons : exists first others,
    numeral.unsignedText = first :: others ∧ (first.isDigit = true ∨ first = '.') := by
  have nonempty := numeral.nonempty
  unfold unsignedText pointText
  cases whole : numeral.whole with
  | cons first others =>
      refine ⟨first, _, List.cons_append, .inl (numeral.wholeDigits first ?_)⟩
      rw [whole]
      exact List.mem_cons_self
  | nil =>
      cases written : numeral.fraction with
      | none =>
          rw [whole, written] at nonempty
          exact absurd rfl nonempty
      | some fraction => exact ⟨'.', _, rfl, .inr rfl⟩

end Numeral

/-- A word has no sign of its own. -/
theorem sign_word (written : Sign) {word : List Char} {letter : Char} {letters : List Char}
    (isWord : word.map Char.toLower = letter :: letters) (isNone : letter ≠ '-' ∧ letter ≠ '+') :
    sign (written.text ++ word) = (written.isNegative, word) := by
  cases word with
  | nil => cases isWord
  | cons first others =>
      have lower : first.toLower = letter := (List.cons.inj isWord).1
      refine sign_text written ⟨?_, ?_⟩ others
      · rintro rfl
        exact isNone.1 lower.symm
      · rintro rfl
        exact isNone.2 lower.symm

/-- Numerals do not begin with a letter, so they are no words. -/
theorem ne_of_numeric {first : Char} (isNumeric : first.isDigit = true ∨ first = '.')
    (others : List Char) {letter : Char} (isLetter : letter.isDigit = false ∧ letter ≠ '.')
    (letters : List Char) :
    String.ofList ((first :: others).map Char.toLower) ≠ String.ofList (letter :: letters) := by
  intro same
  have head : first.toLower = letter := (List.cons.inj (String.ofList_injective same)).1
  rcases isNumeric with isDigit | rfl
  · rw [toLower_of_isDigit isDigit] at head
    exact ne_of_isDigit isDigit isLetter.1 head
  · exact isLetter.2 head.symm

/-- What begins with a digit or a point after its sign is read in digits. -/
theorem read?_numeric (written : Sign) {first : Char} (isNumeric : first.isDigit = true ∨ first = '.')
    (others : List Char) :
    read? (String.ofList (written.text ++ first :: others)) =
      digits? written.isNegative (first :: others) := by
  have noSign : first ≠ '-' ∧ first ≠ '+' := by
    rcases isNumeric with isDigit | rfl
    · exact ⟨ne_of_isDigit isDigit (by decide), ne_of_isDigit isDigit (by decide)⟩
    · decide
  have notNan := ne_of_numeric isNumeric others (by decide : 'n'.isDigit = false ∧ 'n' ≠ '.') ['a', 'n']
  have notInfinite := ne_of_numeric isNumeric others (by decide : 'i'.isDigit = false ∧ 'i' ≠ '.')
  rw [read?, String.toList_ofList, sign_text written noSign others]
  dsimp only
  rw [if_neg notNan, if_neg]
  rintro (isInf | isInfinity)
  · exact notInfinite ['n', 'f'] isInf
  · exact notInfinite ['n', 'f', 'i', 'n', 'i', 't', 'y'] isInfinity

/-- The reader finds the spelling of every text that has one. -/
theorem read?_text (spelling : Spelling) : read? spelling.text = some spelling.literal := by
  cases spelling with
  | notANumber written word isWord =>
      have found := sign_word written isWord (by decide)
      rw [read?, Spelling.text, String.toList_ofList, found]
      dsimp only
      rw [isWord, String.ofList_toList, if_pos rfl]
      rfl
  | infinite written word isWord =>
      have found : sign (written.text ++ word) = (written.isNegative, word) := by
        rcases isWord with isShort | isLong
        · exact sign_word written isShort (by decide)
        · exact sign_word written isLong (by decide)
      rw [read?, Spelling.text, String.toList_ofList, found]
      dsimp only
      rcases isWord with isShort | isLong
      · have isInf : String.ofList (word.map Char.toLower) = "inf" := by
          rw [isShort, String.ofList_toList]
        rw [isInf, if_neg (by decide), if_pos (.inl rfl)]
        rfl
      · have isInfinity : String.ofList (word.map Char.toLower) = "infinity" := by
          rw [isLong, String.ofList_toList]
        rw [isInfinity, if_neg (by decide), if_pos (.inr rfl)]
        rfl
  | inDigits numeral =>
      rcases numeral.exists_unsignedText_eq_cons with ⟨first, others, unsigned, isNumeric⟩
      rw [Spelling.text, unsigned, read?_numeric numeral.sign isNumeric others, ← unsigned,
        numeral.digits?_unsignedText]
      rfl

/-! ## Every text that is read is spelled -/

theorem exists_sign (text : List Char) : exists written : Sign, written.text ++ (sign text).2 = text := by
  unfold sign
  split
  · exact ⟨.minus, rfl⟩
  · exact ⟨.plus, rfl⟩
  · exact ⟨.absent, rfl⟩

theorem exists_power {text : List Char} {value : Int} (found : power? text = some value) :
    exists power : Option Power, power.elim [] Power.text = text := by
  cases text with
  | nil => exact ⟨none, rfl⟩
  | cons marker rest =>
      rcases exists_sign rest with ⟨written, parts⟩
      rw [power?] at found
      by_cases isMarker : marker = 'e' ∨ marker = 'E'
      · rw [if_pos isMarker] at found
        dsimp only at found
        by_cases isBad : (sign rest).2.isEmpty ∨ !(sign rest).2.all Char.isDigit
        · rw [if_pos isBad] at found
          cases found
        · simp only [List.isEmpty_iff, Bool.not_eq_true', not_or, Bool.not_eq_false, List.all_eq_true]
            at isBad
          exact ⟨some ⟨marker, written, (sign rest).2, isMarker, isBad.1, isBad.2⟩,
            congrArg (marker :: ·) parts⟩
      · rw [if_neg isMarker] at found
        cases found

theorem exists_numeral (written : Sign) {negative : Bool} {text : List Char} {literal : Literal}
    (found : digits? negative text = some literal) :
    exists numeral : Numeral, numeral.sign = written ∧ numeral.unsignedText = text := by
  have wholeDigits : forall digit, digit ∈ (Digits.split text).1 -> digit.isDigit = true :=
    fun _ => Digits.isDigit_of_mem_split
  have parts := Digits.split_append text
  unfold digits? at found
  dsimp only at found
  split at found
  · rename_i afterPoint point
    have fractionDigits : forall digit, digit ∈ (Digits.split afterPoint).1 -> digit.isDigit = true :=
      fun _ => Digits.isDigit_of_mem_split
    have fractionParts := Digits.split_append afterPoint
    split at found
    · cases found
    · rename_i nonempty
      rcases Option.map_eq_some_iff.mp found with ⟨value, isPower, _⟩
      rcases exists_power isPower with ⟨power, powerText⟩
      refine ⟨⟨written, (Digits.split text).1, some (Digits.split afterPoint).1, power, wholeDigits,
        fractionDigits, ?_⟩, rfl, ?_⟩
      · simpa using nonempty
      · simp only [Numeral.unsignedText, Numeral.pointText, Numeral.powerText, powerText]
        rw [Option.elim_some, List.cons_append, fractionParts, ← point, parts]
  · split at found
    · cases found
    · rename_i nonempty
      rcases Option.map_eq_some_iff.mp found with ⟨value, isPower, _⟩
      rcases exists_power isPower with ⟨power, powerText⟩
      refine ⟨⟨written, (Digits.split text).1, none, power, wholeDigits, nofun, ?_⟩, rfl, ?_⟩
      · simpa using nonempty
      · simp only [Numeral.unsignedText, Numeral.pointText, Numeral.powerText, powerText]
        rw [Option.elim_none, List.nil_append, parts]

/-- The texts that are read as numbers are those that have a spelling. -/
theorem read?_isSome_iff (text : String) :
    (read? text).isSome = true <-> exists spelling : Spelling, spelling.text = text := by
  constructor
  · intro isRead
    rcases Option.isSome_iff_exists.mp isRead with ⟨literal, found⟩
    rcases exists_sign text.toList with ⟨written, parts⟩
    unfold read? at found
    dsimp only at found
    split at found
    · rename_i isNan
      refine ⟨.notANumber written (sign text.toList).2 ?_, ?_⟩
      · rw [← isNan, String.toList_ofList]
      · rw [Spelling.text, parts, String.ofList_toList]
    · split at found
      · rename_i isInfinite
        refine ⟨.infinite written (sign text.toList).2 ?_, ?_⟩
        · exact isInfinite.imp (fun same => by rw [← same, String.toList_ofList])
            (fun same => by rw [← same, String.toList_ofList])
        · rw [Spelling.text, parts, String.ofList_toList]
      · rcases exists_numeral written found with ⟨numeral, isSign, unsigned⟩
        refine ⟨.inDigits numeral, ?_⟩
        rw [Spelling.text, isSign, unsigned, parts, String.ofList_toList]
  · rintro ⟨spelling, rfl⟩
    rw [read?_text]
    rfl

/-! ## Rounding the quantity -/

open Binary64 (IsNearest overflowBound)

/-- The number of digits of a number bounds it by powers of ten. -/
theorem length_bounds {number : Nat} (positive : 0 < number) :
    (10 : ℚ) ^ (((Digits.ofNat number).length : Int) - 1) ≤ number ∧
      (number : ℚ) < 10 ^ ((Digits.ofNat number).length : Int) := by
  have lengths (width : Nat) (isWide : 0 < width) :
      (Digits.ofNat number).length ≤ width <-> number < 10 ^ width :=
    Nat.length_toDigits_le_iff (by decide) isWide
  have length : 0 < (Digits.ofNat number).length := List.length_pos_iff.mpr (Digits.ofNat_ne_nil number)
  constructor
  · have lower : 10 ^ ((Digits.ofNat number).length - 1) ≤ number := by
      by_cases single : (Digits.ofNat number).length = 1
      · rw [single]
        exact positive
      · exact not_lt.mp (mt (lengths _ (by omega)).mpr (by omega))
    rw [← Nat.cast_one, ← Nat.cast_sub length, zpow_natCast]
    exact_mod_cast lower
  · rw [zpow_natCast]
    exact_mod_cast (lengths _ length).mp (le_refl _)

theorem overflowBound_le : overflowBound ≤ 10 ^ (310 : Int) := by
  have mantissa : (2 ^ 54 - 1 : ℚ) = (18014398509481983 : Nat) := by norm_num
  have bound : overflowBound = (18014398509481983 * 2 ^ 970 : Nat) := by
    rw [overflowBound, mantissa, Nat.cast_mul, Nat.cast_pow, Nat.cast_ofNat, Nat.cast_ofNat]
  have power : (10 : ℚ) ^ (310 : Int) = (10 ^ 310 : Nat) :=
    (zpow_natCast (10 : ℚ) 310).trans (Nat.cast_pow 10 310).symm
  have below : 18014398509481983 * 2 ^ 970 ≤ 10 ^ 310 := by decide +kernel
  rw [bound, power]
  exact_mod_cast below

theorem tiny_lt : (10 : ℚ) ^ (-331 : Int) < 2 ^ (-1075 : Int) := by
  have below : 2 ^ 1075 < 10 ^ 331 := by decide +kernel
  have cast : (2 : ℚ) ^ (1075 : Nat) < 10 ^ (331 : Nat) := by exact_mod_cast below
  exact inv_strictAnti₀ (by positivity) cast

/-- A decimal quantity is rounded to the nearest double. -/
theorem nearest_isRounded (significand : Nat) (power : Int) :
    (nearest significand power).IsRounded (significand * 10 ^ power) := by
  have nonneg : (0 : ℚ) ≤ significand * 10 ^ power := by positivity
  have ten : ((10 : Nat) : ℚ) = 10 := Nat.cast_ofNat
  unfold nearest
  dsimp only
  by_cases isZero : significand = 0
  · rw [if_pos isZero, isZero, Nat.cast_zero, zero_mul]
    exact Binary64.isRounded_zero (le_refl 0) (by positivity) _
  · rcases length_bounds (Nat.pos_of_ne_zero isZero) with ⟨lower, upper⟩
    rw [if_neg isZero]
    by_cases huge : 310 < ((Digits.ofNat significand).length : Int) + power
    · rw [if_pos huge]
      refine .overflow (overflowBound_le.trans ?_)
      calc (10 : ℚ) ^ (310 : Int) ≤ 10 ^ ((Digits.ofNat significand).length - 1 + power : Int) :=
            zpow_le_zpow_right₀ (by norm_num) (by omega)
        _ = 10 ^ ((Digits.ofNat significand).length - 1 : Int) * 10 ^ power :=
            zpow_add₀ (by norm_num) _ _
        _ ≤ significand * 10 ^ power := mul_le_mul_of_nonneg_right lower (by positivity)
    · rw [if_neg huge]
      by_cases tiny : ((Digits.ofNat significand).length : Int) + power < -330
      · rw [if_pos tiny]
        refine Binary64.isRounded_zero nonneg (lt_of_lt_of_le ?_ tiny_lt.le) _
        calc (significand * 10 ^ power : ℚ)
            < 10 ^ ((Digits.ofNat significand).length : Int) * 10 ^ power :=
              mul_lt_mul_of_pos_right upper (by positivity)
          _ = 10 ^ ((Digits.ofNat significand).length + power : Int) :=
              (zpow_add₀ (by norm_num) _ _).symm
          _ ≤ 10 ^ (-331 : Int) := zpow_le_zpow_right₀ (by norm_num) (by omega)
      · rw [if_neg tiny, ← ten]
        split
        · rename_i whole
          have rounded := Binary64.nearest_isRounded (significand * Nat.pow 10 power.toNat) Nat.one_pos
          rw [Nat.cast_one, div_one, Nat.cast_mul] at rounded
          rwa [zpow_eq_pow whole]
        · rename_i negative
          have rounded := Binary64.nearest_isRounded significand
            (Nat.pow_pos (by decide) : 0 < Nat.pow 10 (-power).toNat)
          rwa [zpow_eq_inv negative, ← div_eq_mul_inv]

namespace Spelling

variable {spelling : Spelling} {number other : Binary64.Number}

/-- A text is read as one number. -/
theorem ReadsAs.unique (readsAs : spelling.ReadsAs number) (otherReadsAs : spelling.ReadsAs other) :
    number = other := by
  cases readsAs with
  | notANumber _ =>
      cases otherReadsAs
      rfl
  | infinite _ =>
      cases otherReadsAs
      rfl
  | inDigits rounds =>
      cases otherReadsAs with
      | inDigits otherRounds => exact rounds.unique otherRounds

/-- The number that a numeral is read as. -/
theorem readsAs_number (numeral : Numeral) :
    (inDigits numeral).ReadsAs
      ((nearest numeral.significand numeral.scale).number numeral.sign.isNegative) := by
  have nonneg : (0 : ℚ) ≤ numeral.significand * 10 ^ numeral.scale := by positivity
  exact .inDigits ((nearest_isRounded numeral.significand numeral.scale).roundsTo nonneg _)

end Spelling
end Decimal
end QueryFederation

import Mathlib.Algebra.GroupWithZero.Nat
import QueryFederation.Series.NameMap

/-!
# The order of texts and the order of their bytes

Texts are compared character by character.  Their UTF-8 forms are compared byte by byte, and the two
orders are the same.  That is not a matter of the alphabet: the forms of characters have one to four
bytes, and a text ends wherever it ends, so bytes of different characters may come to stand against each
other.

What makes it true is that the form of a lesser character differs from that of a greater one in a byte
that both have, and the first such byte is less.  The first byte of a form tells how many follow and
holds the leading bits; each of the others holds six bits.
-/

namespace QueryFederation

/-- The bytes of a text in UTF-8. -/
def bytesOf (text : String) : List UInt8 :=
  text.toUTF8.data.toList

theorem bytesOf_eq (text : String) : bytesOf text = text.toList.flatMap String.utf8EncodeChar := by
  rw [bytesOf, String.toUTF8_eq_toByteArray, ← String.utf8Encode_toList, List.utf8Encode,
    List.toList_data_toByteArray]

namespace Utf8

/-! ## The form of a character -/

/-- Bytes that hold the last bits of a number, six each. -/
def sixBits (number : Nat) : Nat -> List UInt8
  | 0 => []
  | count + 1 => UInt8.ofNat (number / 64 ^ count % 64 + 128) :: sixBits number count

/-- How many bytes follow the first one. -/
def followers (number : Nat) : Nat :=
  if number < 128 then 0 else if number < 2048 then 1 else if number < 65536 then 2 else 3

/-- How the first byte tells how many follow. -/
def mark : Nat -> Nat
  | 0 => 0
  | 1 => 192
  | 2 => 224
  | _ => 240

/-- The first byte. -/
def lead (number : Nat) : Nat :=
  number / 64 ^ followers number + mark (followers number)

theorem toNat_lt (character : Char) : character.toNat < 1114112 := by
  have valid : character.toNat.isValidChar := character.valid
  unfold Nat.isValidChar at valid
  omega

/-- The ranges of numbers whose forms have the same length, and the first bytes of these forms. -/
theorem form_cases (number : Nat) :
    number < 128 ∧ followers number = 0 ∧ lead number = number ∨
    128 ≤ number ∧ number < 2048 ∧ followers number = 1 ∧ lead number = number / 64 + 192 ∨
    2048 ≤ number ∧ number < 65536 ∧ followers number = 2 ∧ lead number = number / 4096 + 224 ∨
    65536 ≤ number ∧ followers number = 3 ∧ lead number = number / 262144 + 240 := by
  by_cases one : number < 128
  · have length : followers number = 0 := if_pos one
    refine Or.inl ⟨one, length, ?_⟩
    rw [lead, length]
    exact Nat.div_one number
  · by_cases two : number < 2048
    · have length : followers number = 1 := by rw [followers, if_neg one, if_pos two]
      refine Or.inr (Or.inl ⟨Nat.le_of_not_lt one, two, length, ?_⟩)
      rw [lead, length]
      rfl
    · by_cases three : number < 65536
      · have length : followers number = 2 := by
          rw [followers, if_neg one, if_neg two, if_pos three]
        refine Or.inr (Or.inr (Or.inl ⟨Nat.le_of_not_lt two, three, length, ?_⟩))
        rw [lead, length]
        rfl
      · have length : followers number = 3 := by
          rw [followers, if_neg one, if_neg two, if_neg three]
        refine Or.inr (Or.inr (Or.inr ⟨Nat.le_of_not_lt three, length, ?_⟩))
        rw [lead, length]
        rfl

theorem lead_lt {number : Nat} (bounded : number < 1114112) : lead number < 256 := by
  have form := form_cases number
  omega

theorem utf8EncodeChar_eq (character : Char) :
    String.utf8EncodeChar character =
      UInt8.ofNat (lead character.toNat) ::
        sixBits character.toNat (followers character.toNat) := by
  have bounded := toNat_lt character
  simp only [String.utf8EncodeChar, Char.toNat_val]
  generalize character.toNat = number at bounded ⊢
  rcases form_cases number with ⟨most, length, first⟩ | ⟨least, most, length, first⟩ |
    ⟨least, most, length, first⟩ | ⟨least, length, first⟩
  · rw [length, first, if_pos (by omega)]
    simp [sixBits]
  · rw [length, first, if_neg (by omega), if_pos (by omega),
      Nat.mod_eq_of_lt (show number / 64 < 32 by omega)]
    simp [sixBits]
  · rw [length, first, if_neg (by omega), if_neg (by omega), if_pos (by omega),
      Nat.mod_eq_of_lt (show number / 4096 < 16 by omega)]
    simp [sixBits]
  · rw [length, first, if_neg (by omega), if_neg (by omega), if_neg (by omega),
      Nat.mod_eq_of_lt (show number / 262144 < 8 by omega)]
    simp [sixBits]

/-! ## Lesser characters -/

/-- Whether two lists of bytes differ where both have a byte, and the first list is less there. -/
inductive Precedes : List UInt8 -> List UInt8 -> Prop where
  | here {first second : UInt8} (less : first < second) (firstRest secondRest : List UInt8) :
      Precedes (first :: firstRest) (second :: secondRest)
  | later {firstRest secondRest : List UInt8} (byte : UInt8)
      (further : Precedes firstRest secondRest) : Precedes (byte :: firstRest) (byte :: secondRest)

/-- Whatever comes after the difference does not matter. -/
theorem Precedes.append_lt {first second : List UInt8} (precedes : Precedes first second)
    (firstRest secondRest : List UInt8) : first ++ firstRest < second ++ secondRest := by
  induction precedes with
  | here less _ _ => exact List.cons_lt_cons_iff.mpr (Or.inl less)
  | later byte _ inductionHypothesis =>
      exact List.cons_lt_cons_iff.mpr (Or.inr ⟨rfl, inductionHypothesis⟩)

/-- Of two numbers in units of any size, the lesser one has fewer whole units or less of a rest. -/
theorem div_lt_or_mod_lt {first second : Nat} (less : first < second) (unit : Nat) :
    first / unit < second / unit ∨ first / unit = second / unit ∧ first % unit < second % unit := by
  rcases Nat.lt_or_eq_of_le (Nat.div_le_div_right (c := unit) (Nat.le_of_lt less)) with fewer | same
  · exact Or.inl fewer
  · have firstParts := Nat.div_add_mod first unit
    have secondParts := Nat.div_add_mod second unit
    rw [same] at firstParts
    refine Or.inr ⟨same, ?_⟩
    omega

theorem ofNat_lt_ofNat {first second : Nat} (less : first < second) (bounded : second < 256) :
    UInt8.ofNat first < UInt8.ofNat second := by
  rw [UInt8.lt_iff_toNat_lt, UInt8.toNat_ofNat', UInt8.toNat_ofNat',
    Nat.mod_eq_of_lt (Nat.lt_trans less bounded), Nat.mod_eq_of_lt bounded]
  exact less

theorem sixBits_precedes {first second : Nat} (count : Nat)
    (less : first % 64 ^ count < second % 64 ^ count) :
    Precedes (sixBits first count) (sixBits second count) := by
  induction count with
  | zero =>
      rw [Nat.pow_zero, Nat.mod_one, Nat.mod_one] at less
      exact absurd less (Nat.lt_irrefl 0)
  | succ count inductionHypothesis =>
      rw [Nat.pow_succ] at less
      have parts := div_lt_or_mod_lt less (64 ^ count)
      simp only [Nat.mod_mul_right_div_self, Nat.mod_mul_right_mod] at parts
      rcases parts with fewer | ⟨same, lessRest⟩
      · refine .here (ofNat_lt_ofNat (Nat.add_lt_add_right fewer 128) ?_) _ _
        have bound := Nat.mod_lt (second / 64 ^ count) (show 0 < 64 by decide)
        omega
      · rw [sixBits, sixBits, same]
        exact .later _ (inductionHypothesis lessRest)

/-- Where forms have different lengths, the first bytes decide. -/
theorem lead_lt_or_followers_eq {first second : Nat} (less : first < second) :
    lead first < lead second ∨ followers first = followers second := by
  have firstForm := form_cases first
  have secondForm := form_cases second
  omega

theorem utf8EncodeChar_precedes {first second : Char} (less : first < second) :
    Precedes (String.utf8EncodeChar first) (String.utf8EncodeChar second) := by
  rw [utf8EncodeChar_eq, utf8EncodeChar_eq]
  have lessNumber : first.toNat < second.toNat := less
  have bounded := lead_lt (toNat_lt second)
  rcases lead_lt_or_followers_eq lessNumber with lessLead | sameLength
  · exact .here (ofNat_lt_ofNat lessLead bounded) _ _
  · rcases div_lt_or_mod_lt lessNumber (64 ^ followers second.toNat) with fewer | ⟨same, lessRest⟩
    · refine .here (ofNat_lt_ofNat ?_ bounded) _ _
      rw [lead, lead, sameLength]
      exact Nat.add_lt_add_right fewer _
    · rw [lead, lead, sameLength, same]
      exact .later _ (sixBits_precedes _ lessRest)

/-! ## Lesser texts -/

theorem flatMap_utf8EncodeChar_lt {first second : List Char} (less : first < second) :
    first.flatMap String.utf8EncodeChar < second.flatMap String.utf8EncodeChar := by
  induction less with
  | nil =>
      rw [List.flatMap_nil, List.flatMap_cons, utf8EncodeChar_eq]
      exact List.nil_lt_cons _ _
  | rel lessCharacter =>
      rw [List.flatMap_cons, List.flatMap_cons]
      exact (utf8EncodeChar_precedes lessCharacter).append_lt _ _
  | cons _ inductionHypothesis =>
      rw [List.flatMap_cons, List.flatMap_cons]
      exact List.append_left_lt inductionHypothesis

end Utf8

/-- A text is less than another exactly if its bytes are. -/
theorem bytesOf_lt_iff (first second : String) : bytesOf first < bytesOf second <-> first < second := by
  rw [bytesOf_eq, bytesOf_eq]
  constructor
  · intro lessBytes
    apply Decidable.byContradiction
    intro notLess
    by_cases same : first = second
    · subst same
      exact List.lt_irrefl _ lessBytes
    · have greater : second < first :=
        Std.lt_of_le_of_ne (String.not_lt.mp notLess) (Ne.symm same)
      exact List.lt_asymm lessBytes (Utf8.flatMap_utf8EncodeChar_lt greater)
  · exact Utf8.flatMap_utf8EncodeChar_lt

/-- Three bytes before four, although two units of sixteen bits would come before the one. -/
example : bytesOf "\uffff" < bytesOf "😀" := by decide

end QueryFederation

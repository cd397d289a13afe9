import QueryFederation.Proofs.Toml.Strings
import QueryFederation.Toml.Parser

/-!
# TOML lines that are written and read

A line is written as one of three kinds: blank, the header of an element of a list of tables, or the
assignment of a value to a bare name.  Each is read as what it is, whatever lines follow it, and so a
text that is put together from such lines is read as these lines in their order.

Of values, integers and strings are gone through.  A value is known by its text and the end of its line:
digits go on up to there, while a string has an end of its own and may itself span lines.
-/

namespace QueryFederation
namespace Toml

/-! ## Integers -/

section Integers

open Digits (ofNat ofNat_ne_nil ofNat_leading_zero isDigit_of_mem_ofNat toNat_ofNat
  exists_ofNat_eq_cons ne_of_isDigit toNat_of_isDigit)

theorem joinDigits?_of_digits {digits : List Char} (nonempty : digits ≠ [])
    (areDigits : forall digit, digit ∈ digits -> digit.isDigit = true) :
    joinDigits? Char.isDigit digits = some digits := by
  induction digits with
  | nil => exact absurd rfl nonempty
  | cons digit others inductionHypothesis =>
      have isDigit := areDigits digit List.mem_cons_self
      cases others with
      | nil => rw [joinDigits?, if_pos isDigit]
      | cons second more =>
          have later := inductionHypothesis (List.cons_ne_nil second more)
            fun other isOther => areDigits other (List.mem_cons_of_mem _ isOther)
          have notJoint : second ≠ '_' :=
            ne_of_isDigit (areDigits second (List.mem_cons_of_mem _ List.mem_cons_self)) rfl
          rw [joinDigits?, if_pos isDigit, later, Option.map_some]
          · exact List.cons_ne_nil second more
          · rintro rest same
            exact notJoint (List.cons.inj same).1

theorem decimalDigits?_ofNat (number : Nat) : decimalDigits? (ofNat number) = some (ofNat number) := by
  unfold decimalDigits?
  rw [joinDigits?_of_digits (ofNat_ne_nil number) fun _ isMember => isDigit_of_mem_ofNat isMember]
  split
  · rename_i alone
    exact alone.symm
  · rename_i rest notAlone leading
    have alone := ofNat_leading_zero (Option.some.inj leading)
    exact absurd alone notAlone
  · rfl

theorem integer?_ofNat (number : Nat) : integer? (ofNat number) = some (number : Int) := by
  have unsigned : Decimal.sign (ofNat number) = (false, ofNat number) := by
    rcases exists_ofNat_eq_cons number with ⟨first, others, digits, isDigit⟩
    rw [digits]
    unfold Decimal.sign
    split
    · rename_i same
      exact absurd (List.cons.inj same).1 (ne_of_isDigit isDigit rfl)
    · rename_i same
      exact absurd (List.cons.inj same).1 (ne_of_isDigit isDigit rfl)
    · rfl
  have noBase : forall mark rest, ofNat number ≠ '0' :: mark :: rest := by
    intro mark rest leading
    exact List.cons_ne_nil mark rest (ofNat_leading_zero leading)
  unfold integer?
  split
  · exact absurd ‹_› (noBase _ _)
  · exact absurd ‹_› (noBase _ _)
  · exact absurd ‹_› (noBase _ _)
  · rw [unsigned]
    dsimp only
    rw [decimalDigits?_ofNat, Option.map_some, if_neg Bool.false_ne_true, toNat_ofNat]

theorem scalar?_ofNat {number : Nat} (fits : number < Nat.pow 2 128) :
    scalar? (ofNat number) = some (.integer number) := by
  have noWord : forall {first : Char} {others : List Char}, first.isDigit = false ->
      ofNat number ≠ first :: others := by
    intro first others notDigit same
    exact ne_of_isDigit (isDigit_of_mem_ofNat (same ▸ List.mem_cons_self)) notDigit rfl
  have notTrue : ofNat number ≠ "true".toList := noWord rfl
  have notFalse : ofNat number ≠ "false".toList := noWord rfl
  have within : isWithinBits (number : Int) = true := by
    have positive : -((Nat.pow 2 127 : Nat) : Int) ≤ number := by omega
    exact decide_eq_true ⟨positive, Int.ofNat_lt.mpr fits⟩
  unfold scalar?
  rw [if_neg notTrue, if_neg notFalse, integer?_ofNat]
  dsimp only
  rw [if_pos within]

theorem endsScalar_of_isDigit {character : Char} (isDigit : character.isDigit = true) :
    endsScalar character = false := by
  have range := toNat_of_isDigit isDigit
  have notControl : isControl character = false := by
    unfold isControl
    rw [decide_eq_false (by omega), Bool.false_and, Bool.false_or, beq_eq_false_iff_ne]
    exact ne_of_isDigit isDigit rfl
  rw [Bool.eq_false_iff]
  unfold endsScalar isInlineSpace
  simp only [Bool.or_eq_true, beq_iff_eq, notControl, Bool.false_eq_true, or_false, ne_eq]
  rintro ((((((rfl | rfl) | rfl) | rfl) | rfl) | rfl) | rfl) <;> cases isDigit

/-- A number is divided from the end of its line after all of its digits. -/
theorem splitScalar_ofNat (number : Nat) (rest : List Char) :
    splitScalar (ofNat number ++ '\n' :: rest) = (ofNat number, '\n' :: rest) := by
  have within : forall digit, digit ∈ ofNat number -> (!endsScalar digit) = true := by
    intro digit isMember
    rw [endsScalar_of_isDigit (isDigit_of_mem_ofNat isMember), Bool.not_false]
  have ended : forall next, next ∈ ('\n' :: rest).head? -> (!endsScalar next) = false :=
    ended_cons (by decide) rest
  rcases divide_append within ended with ⟨front, back⟩
  unfold splitScalar
  dsimp only
  rw [front, back]
  split
  · rename_i same
    exact absurd (List.cons.inj same).1 (by decide)
  · rfl

end Integers

/-! ## Values -/

/-- That a text is read as a value up to the end of the line. -/
structure SpellsValue (written : List Char) (value : Toml) : Prop where
  solid : forall text, dropInlineSpace (written ++ text) = written ++ text
  reads : forall bound depth rest,
    value? (bound + 1) depth (written ++ '\n' :: rest) = some (value, '\n' :: rest)

theorem dropInlineSpace_cons {first : Char} (solid : isInlineSpace first = false) (text : List Char) :
    dropInlineSpace (first :: text) = first :: text :=
  List.dropWhile_cons_of_neg (by simp [solid])

theorem spellsValue_nat {number : Nat} (fits : number < Nat.pow 2 128) :
    SpellsValue (Digits.ofNat number) (.integer number) := by
  rcases Digits.exists_ofNat_eq_cons number with ⟨first, others, digits, isDigit⟩
  have notMark {mark : Char} (notDigit : mark.isDigit = false) : first ≠ mark :=
    Digits.ne_of_isDigit isDigit notDigit
  constructor
  · intro text
    rw [digits]
    apply dropInlineSpace_cons
    have noSpace : first ≠ ' ' := notMark rfl
    have noTab : first ≠ '\t' := notMark rfl
    simp [isInlineSpace, noSpace, noTab]
  · intro bound depth rest
    have read : unquoted? (Digits.ofNat number ++ '\n' :: rest) = some (.integer number, '\n' :: rest) := by
      rw [unquoted?, splitScalar_ofNat]
      dsimp only
      rw [scalar?_ofNat fits, Option.map_some]
    rw [digits] at read ⊢
    rw [List.cons_append] at read ⊢
    rw [value?]
    · exact read
    all_goals
      intro others same
      exact absurd (List.cons.inj same).1 (notMark rfl)

/-- A string begins with a mark, whatever its notation. -/
theorem exists_writeString_eq_cons (text : String) :
    exists mark others, writeString text = mark :: others ∧ (mark = quote ∨ mark = apostrophe) := by
  unfold writeString
  dsimp only
  cases chooseNotation (featuresOf text.toList) with
  | basic => exact ⟨quote, _, rfl, .inl rfl⟩
  | literal => exact ⟨apostrophe, _, rfl, .inr rfl⟩
  | basicLines => exact ⟨quote, _, rfl, .inl rfl⟩
  | literalLines => exact ⟨apostrophe, _, rfl, .inr rfl⟩

theorem spellsValue_string (text : String) : SpellsValue (writeString text) (.string text) := by
  rcases exists_writeString_eq_cons text with ⟨mark, others, written, isMark⟩
  constructor
  · intro rest
    rw [written]
    apply dropInlineSpace_cons
    rcases isMark with rfl | rfl <;> rfl
  · intro bound depth rest
    have ended : forall next, next ∈ ('\n' :: rest).head? -> next ≠ quote ∧ next ≠ apostrophe := by
      intro next isNext
      rw [← Option.some.inj isNext]
      decide
    have read := text?_writeString text ended
    rw [written, List.cons_append] at read ⊢
    have content : String.ofList text.toList = text := String.ofList_toList
    rcases isMark with rfl | rfl
    · rw [quote] at read ⊢
      rw [value?, read, Option.map_some]
      dsimp only
      rw [content]
    · rw [apostrophe] at read ⊢
      rw [value?, read, Option.map_some]
      dsimp only
      rw [content]

/-! ## Names -/

/-- That a name can be written without quotes. -/
def IsBareName (name : String) : Prop :=
  name.toList ≠ [] ∧ name.toList.all isBare = true

instance (name : String) : Decidable (IsBareName name) :=
  inferInstanceAs (Decidable (_ ∧ _))

theorem IsBareName.exists_eq_cons {name : String} (bare : IsBareName name) :
    exists first others, name.toList = first :: others ∧
      forall mark, isBare mark = false -> first ≠ mark := by
  rcases List.exists_cons_of_ne_nil bare.1 with ⟨first, others, characters⟩
  refine ⟨first, others, characters, ?_⟩
  rintro mark notBare rfl
  have isBareFirst := List.all_eq_true.mp bare.2 first (characters ▸ List.mem_cons_self)
  rw [notBare] at isBareFirst
  cases isBareFirst

theorem IsBareName.dropInlineSpace {name : String} (bare : IsBareName name) (text : List Char) :
    dropInlineSpace (name.toList ++ text) = name.toList ++ text := by
  rcases bare.exists_eq_cons with ⟨first, others, characters, notMark⟩
  rw [characters]
  apply dropInlineSpace_cons
  simp [isInlineSpace, notMark ' ' rfl, notMark '\t' rfl]

theorem name?_bare {name : String} (bare : IsBareName name) {rest : List Char}
    (ended : forall next, next ∈ rest.head? -> isBare next = false) :
    name? (name.toList ++ rest) = some (name, rest) := by
  have unquoted : quoted? (name.toList ++ rest) = none := by
    rcases bare.exists_eq_cons with ⟨first, others, characters, notMark⟩
    rw [characters, List.cons_append]
    unfold quoted?
    split
    · rename_i same
      exact absurd (List.cons.inj same).1 (notMark '"' rfl)
    · rename_i same
      exact absurd (List.cons.inj same).1 (notMark '\'' rfl)
    · rfl
  have all := List.all_eq_true.mp bare.2
  rcases divide_append all ended with ⟨front, back⟩
  unfold name?
  rw [unquoted]
  dsimp only
  rw [front, back, if_neg (by simpa using bare.1), String.ofList_toList]

/-- A bare name that no point follows is a path of its own. -/
theorem path?_bare {name : String} (bare : IsBareName name) {rest : List Char}
    (ended : forall next, next ∈ rest.head? -> isBare next = false)
    (single : forall later, dropInlineSpace rest ≠ '.' :: later) :
    path? (name.toList ++ rest) = some ([], name, dropInlineSpace rest) := by
  have names : names? ((name.toList ++ rest).length + 1) (name.toList ++ rest) =
      some ([name], dropInlineSpace rest) := by
    rw [names?, bare.dropInlineSpace, name?_bare bare ended]
    dsimp only [Option.bind_eq_bind, Option.bind_some]
    split
    · rename_i later same
      exact absurd same (single later)
    · rfl
  unfold path?
  rw [names]
  rfl

/-! ## Lines -/

/-- That a text is read as one line, whatever lines follow it. -/
def SpellsLine (written : List Char) (line : Line) : Prop :=
  forall rest, line? (dropInlineSpace (written ++ '\n' :: rest)) = some (line, '\n' :: rest)

theorem spellsLine_blank : SpellsLine [] .blank :=
  fun _ => rfl

theorem spellsLine_element {name : String} (bare : IsBareName name) :
    SpellsLine ("[[".toList ++ (name.toList ++ "]]".toList)) (.header true [] name) := by
  intro rest
  have ended : forall next, next ∈ ("]]".toList ++ '\n' :: rest).head? -> isBare next = false :=
    ended_cons (show isBare ']' = false from rfl) _
  have path := path?_bare bare ended fun later same => absurd (List.cons.inj same).1 (by decide)
  change header? true ((name.toList ++ "]]".toList) ++ '\n' :: rest) = _
  rw [List.append_assoc, header?, path]
  rfl

theorem spellsLine_assignment {name : String} (bare : IsBareName name) {written : List Char}
    {value : Toml} (spells : SpellsValue written value) :
    SpellsLine (name.toList ++ (" = ".toList ++ written)) (.assignment ⟨[], name, value⟩) := by
  intro rest
  have ended : forall next, next ∈ (" = ".toList ++ (written ++ '\n' :: rest)).head? ->
      isBare next = false :=
    ended_cons (show isBare ' ' = false from rfl) _
  have path := path?_bare bare ended fun later same => absurd (List.cons.inj same).1 (by decide)
  have assignment : forall bound depth, assignment? (bound + 2) depth
      (name.toList ++ (" = ".toList ++ (written ++ '\n' :: rest))) =
        some (⟨[], name, value⟩, '\n' :: rest) := by
    intro bound depth
    rw [assignment?, path]
    change ((value? (bound + 1) depth (dropInlineSpace (written ++ '\n' :: rest))).bind fun read =>
      some ((⟨[], name, read.1⟩ : Draft.Assignment), read.2)) = _
    rw [spells.solid, spells.reads, Option.bind_some]
  rw [List.append_assoc, List.append_assoc, bare.dropInlineSpace]
  generalize text : name.toList ++ (" = ".toList ++ (written ++ '\n' :: rest)) = characters at assignment
  have read := assignment (4 * characters.length + 2) depthLimit
  rcases bare.exists_eq_cons with ⟨first, others, isName, notMark⟩
  rw [isName, List.cons_append] at text
  subst text
  unfold line?
  split
  · rename_i same
    cases same
  · rename_i same
    exact absurd (List.cons.inj same).1 (notMark '[' rfl)
  · rename_i same
    exact absurd (List.cons.inj same).1 (notMark '[' rfl)
  · rename_i same
    rw [← (List.cons.inj same).1, if_neg, read, Option.map_some]
    simp [notMark '#' rfl, notMark '\n' rfl, notMark '\r' rfl]

/-! ## Texts -/

/-- That a text consists of written lines. -/
inductive SpellsLines : List Char -> List Line -> Prop where
  | none : SpellsLines [] []
  | more {written : List Char} {line : Line} {text : List Char} {lines : List Line}
      (first : SpellsLine written line) (others : SpellsLines text lines) :
      SpellsLines (written ++ '\n' :: text) (line :: lines)

theorem SpellsLines.append {front back : List Char} {lines later : List Line}
    (spells : SpellsLines front lines) (spellsLater : SpellsLines back later) :
    SpellsLines (front ++ back) (lines ++ later) := by
  induction spells with
  | none => exact spellsLater
  | more first others inductionHypothesis =>
      rw [List.append_assoc, List.cons_append, List.cons_append]
      exact .more first inductionHypothesis

theorem SpellsLines.length_le {text : List Char} {lines : List Line} (spells : SpellsLines text lines) :
    lines.length ≤ text.length := by
  induction spells with
  | none => exact Nat.le_refl 0
  | more first others inductionHypothesis =>
      simp only [List.length_append, List.length_cons]
      omega

/-- The lines of a text are read in their order. -/
theorem lines?_of_spells {text : List Char} {lines : List Line} (spells : SpellsLines text lines)
    {bound : Nat} (enough : lines.length < bound) : lines? bound text = some lines := by
  induction spells generalizing bound with
  | none =>
      cases bound with
      | zero => exact absurd enough (Nat.not_lt_zero _)
      | succ bound => rfl
  | more first others inductionHypothesis =>
      cases bound with
      | zero => exact absurd enough (Nat.not_lt_zero _)
      | succ bound =>
          rename_i written line text lines
          have later := inductionHypothesis (Nat.lt_of_succ_lt_succ enough)
          have ended : endLine? ('\n' :: text) = some text := rfl
          rw [lines?, if_neg (by simp), first]
          change (do
            let text <- endLine? ('\n' :: text)
            let lines <- lines? bound text
            some (line :: lines)) = _
          rw [ended]
          change (do
            let lines <- lines? bound text
            some (line :: lines)) = _
          rw [later]
          rfl

theorem dropByteOrderMark_cons {first : Char} (unmarked : first ≠ '\ufeff') (others : List Char) :
    dropByteOrderMark (first :: others) = first :: others := by
  unfold dropByteOrderMark
  split
  · rename_i same
    exact absurd (List.cons.inj same).1 unmarked
  · rfl

/-- A document that consists of written lines is what its lines make. -/
theorem parse?_of_spells {text : String} {lines : List Line} (spells : SpellsLines text.toList lines)
    (unmarked : dropByteOrderMark text.toList = text.toList) :
    parse? text = document? (group lines).1 (group lines).2 := by
  unfold parse?
  rw [unmarked]
  dsimp only
  rw [lines?_of_spells spells (Nat.lt_succ_of_le spells.length_le)]
  rfl

end Toml
end QueryFederation

import Mathlib.Data.List.DropRight
import QueryFederation.Proofs.Json.Numbers
import QueryFederation.Proofs.Json.Strings

/-!
# Documents that are written and read

A document may be spelled in many ways that differ in nothing but white space.  The reader takes every
such spelling for the document, and both layouts of the writer are such spellings, so what is written is
read back.  The spellings are those of the writer: strings with the escapes that it uses, and numbers in
the digits in which the document holds them.  That the reader understands other escapes as well plays no
part here.

The reader stops at a bound on its recursion, which grows with the text.  A spelling of a value needs
less than two steps for each of its characters, since an item or a member is shorter than what it stands
in, at least by a bracket or a comma.
-/

namespace QueryFederation
namespace Json

open JsonNumber (EndsNumber endsNumber_nil)

/-! ## White space -/

/-- White space. -/
structure Blank where
  text : List Char
  isSpace : forall character, character ∈ text -> isSpace character = true

namespace Blank

/-- No white space. -/
def none : Blank :=
  ⟨[], fun _ isMember => nomatch isMember⟩

/-- One space. -/
def space : Blank :=
  ⟨[' '], fun _ isMember => by rw [List.mem_singleton.mp isMember]; rfl⟩

/-- The beginning of a line at a depth. -/
def line (depth : Nat) : Blank where
  text := newLine depth
  isSpace := by
    intro character isMember
    rcases List.mem_cons.mp isMember with rfl | indentation
    · rfl
    · rw [List.eq_of_mem_replicate indentation]
      rfl

end Blank

theorem dropSpace_blank (blank : Blank) (text : List Char) :
    dropSpace (blank.text ++ text) = dropSpace text :=
  List.dropWhile_append_of_pos blank.isSpace

theorem dropSpace_cons {first : Char} (solid : isSpace first = false) (rest : List Char) :
    dropSpace (first :: rest) = first :: rest :=
  List.dropWhile_cons_of_neg (by simp [solid])

theorem dropSpace_dropSpace (text : List Char) : dropSpace (dropSpace text) = dropSpace text :=
  List.dropWhile_idempotent _ _

/-- What follows a value in a spelling does not go on with a number. -/
theorem endsNumber_blank (blank : Blank) {mark : Char} (isMark : mark ∈ [',', ']', '\x7d'])
    (rest : List Char) : EndsNumber (blank.text ++ mark :: rest) := by
  intro next isNext
  rcases blank with ⟨text, isSpace⟩
  cases text with
  | nil =>
      cases Option.mem_some.mp isNext
      simp only [List.mem_cons, List.not_mem_nil, or_false] at isMark
      rcases isMark with rfl | rfl | rfl <;> decide
  | cons first others =>
      cases Option.mem_some.mp isNext
      have space := isSpace next List.mem_cons_self
      unfold Json.isSpace at space
      simp only [Bool.or_eq_true, beq_iff_eq] at space
      rcases space with ((rfl | rfl) | rfl) | rfl <;> decide

/-! ## Spellings -/

/-- The white space around the parts of a member. -/
structure MemberGaps where
  beforeName : Blank
  afterName : Blank
  beforeValue : Blank
  afterValue : Blank

/-- A member with a name and the text of its value. -/
def MemberGaps.fill (gaps : MemberGaps) (name : String) (value : List Char) : List Char :=
  gaps.beforeName.text ++ (writeString name ++ (gaps.afterName.text ++ ':' ::
    (gaps.beforeValue.text ++ (value ++ gaps.afterValue.text))))

mutual

/-- Whether a text is a spelling of a document. -/
inductive Spells : List Char -> Json -> Prop where
  | null : Spells "null".toList .null
  | boolean (value : Bool) : Spells (if value then "true" else "false").toList (.boolean value)
  | number {written : JsonNumber} (grammatical : written.IsGrammatical) :
      Spells written.write (.number written)
  | string (text : String) : Spells (writeString text) (.string text)
  | noItems : Spells ['[', ']'] (.array [])
  | items {text : List Char} {items : List Json} (inside : SpellsItems text items) :
      Spells ('[' :: (text ++ [']'])) (.array items)
  | noMembers : Spells ['\x7b', '\x7d'] (.object [])
  | members {text : List Char} {members : List (String × Json)}
      (inside : SpellsMembers text members) : Spells ('\x7b' :: (text ++ ['\x7d'])) (.object members)

/-- Whether a text is a spelling of the items of an array. -/
inductive SpellsItems : List Char -> List Json -> Prop where
  | last (before after : Blank) {text : List Char} {item : Json} (spells : Spells text item) :
      SpellsItems (before.text ++ (text ++ after.text)) [item]
  | more (before after : Blank) {text rest : List Char} {item : Json} {items : List Json}
      (spells : Spells text item) (later : SpellsItems rest items) :
      SpellsItems (before.text ++ (text ++ (after.text ++ ',' :: rest))) (item :: items)

/-- Whether a text is a spelling of the members of an object. -/
inductive SpellsMembers : List Char -> List (String × Json) -> Prop where
  | last (gaps : MemberGaps) (name : String) {text : List Char} {value : Json}
      (spells : Spells text value) : SpellsMembers (gaps.fill name text) [(name, value)]
  | more (gaps : MemberGaps) (name : String) {text rest : List Char} {value : Json}
      {members : List (String × Json)} (spells : Spells text value)
      (later : SpellsMembers rest members) :
      SpellsMembers (gaps.fill name text ++ ',' :: rest) ((name, value) :: members)

end

/-! ## Steps of the reader -/

theorem value?_blank (bound : Nat) (blank : Blank) (text : List Char) :
    value? bound (blank.text ++ text) = value? bound text := by
  cases bound with
  | zero => rfl
  | succ bound => rw [value?, value?, dropSpace_blank]

theorem value?_dropSpace (bound : Nat) (text : List Char) :
    value? bound (dropSpace text) = value? bound text := by
  cases bound with
  | zero => rfl
  | succ bound => rw [value?, value?, dropSpace_dropSpace]

theorem items?_dropSpace (bound : Nat) (text : List Char) :
    items? bound (dropSpace text) = items? bound text := by
  cases bound with
  | zero => rfl
  | succ bound => rw [items?, items?, value?_dropSpace]

theorem members?_dropSpace (bound : Nat) (text : List Char) :
    members? bound (dropSpace text) = members? bound text := by
  cases bound with
  | zero => rfl
  | succ bound => rw [members?, members?, dropSpace_dropSpace]

theorem isSpace_of_numeric {first : Char} (numeric : first = '-' ∨ first.isDigit = true) :
    isSpace first = false := by
  rw [Bool.eq_false_iff]
  unfold isSpace
  simp only [Bool.or_eq_true, beq_iff_eq, ne_eq]
  rintro (((rfl | rfl) | rfl) | rfl) <;> revert numeric <;> decide

/-- A text that begins like a number is read as one. -/
theorem value?_of_numeric (bound : Nat) {first : Char} (numeric : first = '-' ∨ first.isDigit = true)
    (rest : List Char) :
    value? (bound + 1) (first :: rest) =
      (numberText? (first :: rest)).map fun (written, rest) => (.number written, rest) := by
  have notMark {mark : Char} (isMark : mark ∈ ['n', 't', 'f', '"', '[', '{']) : first ≠ mark := by
    rintro rfl
    simp only [List.mem_cons, List.not_mem_nil, or_false] at isMark
    rcases isMark with rfl | rfl | rfl | rfl | rfl | rfl <;> revert numeric <;> decide
  rw [value?, dropSpace_cons (isSpace_of_numeric numeric)]
  split
  case h_7 => rfl
  all_goals
    rename_i same
    exact absurd (List.cons.inj same).1 (notMark (by decide))

theorem value?_items (bound : Nat) {text : List Char}
    (notEmpty : forall rest, dropSpace text ≠ ']' :: rest) :
    value? (bound + 1) ('[' :: text) =
      (items? bound text).map fun (items, rest) => (.array items, rest) := by
  rw [value?, dropSpace_cons (by decide)]
  split
  case h_5 same =>
    cases same
    split
    · exact absurd ‹_› (notEmpty _)
    · rw [items?_dropSpace]
  case h_7 notItems _ => exact absurd rfl (notItems text)
  all_goals
    rename_i same
    exact absurd (List.cons.inj same).1 (by decide)

theorem value?_members (bound : Nat) {text : List Char}
    (notEmpty : forall rest, dropSpace text ≠ '}' :: rest) :
    value? (bound + 1) ('{' :: text) =
      (members? bound text).map fun (members, rest) => (ofMembers members, rest) := by
  rw [value?, dropSpace_cons (by decide)]
  split
  case h_6 same =>
    cases same
    split
    · exact absurd ‹_› (notEmpty _)
    · rw [members?_dropSpace]
  case h_7 notMembers => exact absurd rfl (notMembers text)
  all_goals
    rename_i same
    exact absurd (List.cons.inj same).1 (by decide)

/-- Members that all have names make an object. -/
theorem ofMembers_named (members : List (String × Json)) :
    ofMembers (members.map fun member => (some member.1, member.2)) = .object members := by
  have named : (members.map fun member => (some member.1, member.2)).mapM
      (fun member : Option String × Json => member.1.map fun name => (name, member.2)) =
        some members := by
    induction members with
    | nil => rfl
    | cons member rest inductionHypothesis =>
        rw [List.map_cons, List.mapM_cons, inductionHypothesis]
        rfl
  rw [ofMembers, named]

theorem dropSpace_fill (gaps : MemberGaps) (name : String) (text rest : List Char) :
    dropSpace (gaps.fill name text ++ rest) =
      '"' :: (name.toList.flatMap writeCharacter ++ '"' :: (gaps.afterName.text ++ ':' ::
        (gaps.beforeValue.text ++ (text ++ (gaps.afterValue.text ++ rest))))) := by
  unfold MemberGaps.fill writeString
  simp only [List.append_assoc, List.cons_append, List.nil_append]
  rw [dropSpace_blank, dropSpace_cons rfl]

section Member

variable {bound : Nat} {gaps : MemberGaps} {name : String} {text rest : List Char} {value : Json}

theorem members?_last
    (taken : value? bound (text ++ (gaps.afterValue.text ++ '\x7d' :: rest)) =
      some (value, gaps.afterValue.text ++ '\x7d' :: rest)) :
    members? (bound + 1) (gaps.fill name text ++ '\x7d' :: rest) =
      some ([(some name, value)], rest) := by
  have colon (others : List Char) : dropSpace (':' :: others) = ':' :: others := dropSpace_cons rfl _
  have closes : dropSpace ('\x7d' :: rest) = '\x7d' :: rest := dropSpace_cons rfl _
  rw [members?, dropSpace_fill]
  simp only [stringText?_written, Option.bind_eq_bind, Option.bind_some, dropSpace_blank, colon,
    value?_blank, taken, closes]

theorem members?_more {members : List (Option String × Json)} {others : List Char}
    (taken : value? bound (text ++ (gaps.afterValue.text ++ ',' :: others)) =
      some (value, gaps.afterValue.text ++ ',' :: others))
    (later : members? bound others = some (members, rest)) :
    members? (bound + 1) (gaps.fill name text ++ ',' :: others) =
      some ((some name, value) :: members, rest) := by
  have colon (others : List Char) : dropSpace (':' :: others) = ':' :: others := dropSpace_cons rfl _
  have goesOn : dropSpace (',' :: others) = ',' :: others := dropSpace_cons rfl _
  rw [members?, dropSpace_fill]
  simp only [stringText?_written, Option.bind_eq_bind, Option.bind_some, dropSpace_blank, colon,
    value?_blank, taken, goesOn, later]

end Member

section Item

variable {bound : Nat} {before after : Blank} {text rest : List Char} {item : Json}

theorem items?_last
    (taken : value? bound (text ++ (after.text ++ ']' :: rest)) =
      some (item, after.text ++ ']' :: rest)) :
    items? (bound + 1) (before.text ++ (text ++ (after.text ++ ']' :: rest))) =
      some ([item], rest) := by
  have closes : dropSpace (']' :: rest) = ']' :: rest := dropSpace_cons rfl _
  rw [items?, value?_blank, taken]
  simp only [Option.bind_eq_bind, Option.bind_some, dropSpace_blank, closes]

theorem items?_more {items : List Json} {others : List Char}
    (taken : value? bound (text ++ (after.text ++ ',' :: others)) =
      some (item, after.text ++ ',' :: others))
    (later : items? bound others = some (items, rest)) :
    items? (bound + 1) (before.text ++ (text ++ (after.text ++ ',' :: others))) =
      some (item :: items, rest) := by
  have goesOn : dropSpace (',' :: others) = ',' :: others := dropSpace_cons rfl _
  rw [items?, value?_blank, taken]
  simp only [Option.bind_eq_bind, Option.bind_some, dropSpace_blank, goesOn, later]

end Item

/-! ## Every spelling is read -/

/-- A spelling begins with a character that is neither white space nor the end of an array. -/
theorem Spells.head {text : List Char} {document : Json} (spells : Spells text document) :
    exists first rest, text = first :: rest ∧ isSpace first = false ∧ first ≠ ']' := by
  cases spells with
  | null => exact ⟨'n', _, rfl, rfl, by decide⟩
  | boolean value => cases value <;> exact ⟨_, _, rfl, rfl, by decide⟩
  | number grammatical =>
      rcases grammatical.write_head with ⟨first, rest, text, numeric⟩
      refine ⟨first, rest, text, isSpace_of_numeric numeric, ?_⟩
      rintro rfl
      revert numeric
      decide
  | string text => exact ⟨'"', _, rfl, rfl, by decide⟩
  | noItems => exact ⟨'[', _, rfl, rfl, by decide⟩
  | items inside => exact ⟨'[', _, rfl, rfl, by decide⟩
  | noMembers => exact ⟨'{', _, rfl, rfl, by decide⟩
  | members inside => exact ⟨'{', _, rfl, rfl, by decide⟩

theorem SpellsItems.ne_nil {text : List Char} {items : List Json}
    (spells : SpellsItems text items) : text ≠ [] := by
  cases spells with
  | last before after spells =>
      rcases spells.head with ⟨first, others, rfl, _⟩
      simp
  | more before after spells later => simp

theorem Spells.not_end {text : List Char} {document : Json} (spells : Spells text document)
    (before : Blank) (tail rest : List Char) :
    dropSpace (before.text ++ (text ++ tail)) ≠ ']' :: rest := by
  rcases spells.head with ⟨first, others, rfl, solid, notEnd⟩
  rw [dropSpace_blank, List.cons_append, dropSpace_cons solid]
  exact fun same => notEnd (List.cons.inj same).1

theorem SpellsItems.not_empty {text : List Char} {items : List Json}
    (spells : SpellsItems text items) (tail rest : List Char) :
    dropSpace (text ++ tail) ≠ ']' :: rest := by
  cases spells with
  | last before after spells =>
      rw [List.append_assoc, List.append_assoc]
      exact spells.not_end before _ rest
  | more before after spells later =>
      rw [List.append_assoc, List.append_assoc]
      exact spells.not_end before _ rest

/-- A member is longer than its value. -/
theorem MemberGaps.length_lt_fill (gaps : MemberGaps) (name : String) (value : List Char) :
    value.length < (gaps.fill name value).length := by
  simp only [fill, List.length_append, List.length_cons]
  omega

theorem SpellsMembers.ne_nil {text : List Char} {members : List (String × Json)}
    (spells : SpellsMembers text members) : text ≠ [] := by
  intro empty
  cases spells with
  | @last gaps name text value spells =>
      have longer := gaps.length_lt_fill name text
      rw [empty] at longer
      exact absurd longer (Nat.not_lt_zero _)
  | more gaps name spells later => exact absurd empty (by simp)

theorem SpellsMembers.not_empty {text : List Char} {members : List (String × Json)}
    (spells : SpellsMembers text members) (tail rest : List Char) :
    dropSpace (text ++ tail) ≠ '\x7d' :: rest := by
  cases spells with
  | last gaps name spells =>
      rw [dropSpace_fill]
      exact fun same => absurd (List.cons.inj same).1 (by decide)
  | more gaps name spells later =>
      rw [List.append_assoc, dropSpace_fill]
      exact fun same => absurd (List.cons.inj same).1 (by decide)

mutual

/-- The reader takes every spelling of a value for the value, and leaves what follows it. -/
theorem value?_of_spells {text : List Char} {document : Json} (spells : Spells text document)
    {bound : Nat} (enough : 2 * text.length ≤ bound + 1) {rest : List Char}
    (ended : EndsNumber rest) : value? bound (text ++ rest) = some (document, rest) := by
  cases bound with
  | zero =>
      rcases spells.head with ⟨first, others, rfl, _⟩
      rw [List.length_cons] at enough
      omega
  | succ bound =>
      cases spells with
      | null => rfl
      | boolean value => cases value <;> rfl
      | @number written grammatical =>
          rcases grammatical.write_head with ⟨first, others, begins, numeric⟩
          have taken := numberText?_write grammatical ended
          rw [begins, List.cons_append] at taken ⊢
          rw [value?_of_numeric bound numeric, taken]
          rfl
      | string text =>
          change (stringText? ((text.toList.flatMap writeCharacter ++ ['"']) ++ rest)).map _ = _
          rw [List.append_assoc, List.singleton_append, stringText?_written]
          rfl
      | noItems => rfl
      | items inside =>
          simp only [List.length_cons, List.length_append, List.length_nil] at enough
          rw [List.cons_append, List.append_assoc, value?_items bound (inside.not_empty _),
            List.singleton_append, items?_of_spells inside (by omega) rest]
          rfl
      | noMembers => rfl
      | members inside =>
          simp only [List.length_cons, List.length_append, List.length_nil] at enough
          rw [List.cons_append, List.append_assoc, value?_members bound (inside.not_empty _),
            List.singleton_append, members?_of_spells inside (by omega) rest, Option.map_some]
          dsimp only
          rw [ofMembers_named]

theorem items?_of_spells {text : List Char} {items : List Json} (spells : SpellsItems text items)
    {bound : Nat} (enough : 2 * text.length ≤ bound) (rest : List Char) :
    items? bound (text ++ ']' :: rest) = some (items, rest) := by
  cases bound with
  | zero =>
      have empty : text = [] := List.length_eq_zero_iff.mp (by omega)
      exact absurd empty spells.ne_nil
  | succ bound =>
      cases spells with
      | last before after spells =>
          simp only [List.length_append] at enough
          rw [List.append_assoc, List.append_assoc]
          exact items?_last
            (value?_of_spells spells (by omega) (endsNumber_blank after (by decide) rest))
      | more before after spells later =>
          simp only [List.length_append, List.length_cons] at enough
          rw [List.append_assoc, List.append_assoc, List.append_assoc, List.cons_append]
          exact items?_more
            (value?_of_spells spells (by omega) (endsNumber_blank after (by decide) _))
            (items?_of_spells later (by omega) rest)

theorem members?_of_spells {text : List Char} {members : List (String × Json)}
    (spells : SpellsMembers text members) {bound : Nat} (enough : 2 * text.length ≤ bound)
    (rest : List Char) :
    members? bound (text ++ '\x7d' :: rest) =
      some (members.map fun member => (some member.1, member.2), rest) := by
  cases bound with
  | zero =>
      have empty : text = [] := List.length_eq_zero_iff.mp (by omega)
      exact absurd empty spells.ne_nil
  | succ bound =>
      cases spells with
      | @last gaps name text value spells =>
          have longer := gaps.length_lt_fill name text
          exact members?_last
            (value?_of_spells spells (by omega) (endsNumber_blank gaps.afterValue (by decide) rest))
      | @more gaps name text others value members spells later =>
          have longer := gaps.length_lt_fill name text
          rw [List.length_append, List.length_cons] at enough
          rw [List.append_assoc, List.cons_append]
          exact members?_more
            (value?_of_spells spells (by omega) (endsNumber_blank gaps.afterValue (by decide) _))
            (members?_of_spells later (by omega) rest)

end

/-- A text that spells a document is read as that document. -/
theorem parse?_of_spells {text : List Char} {document : Json} (spells : Spells text document) :
    parse? (String.ofList text) = some document := by
  have taken : value? (2 * text.length + 2) (text ++ []) = some (document, []) :=
    value?_of_spells spells (by omega) endsNumber_nil
  rw [List.append_nil] at taken
  unfold parse?
  rw [String.toList_ofList]
  dsimp only
  rw [taken]
  rfl

end Json
end QueryFederation

import QueryFederation.Proofs.Json.Spelling

/-!
# The two layouts

A document that a writer has built holds only numbers with a text of their own, and nothing that could
only be skipped.  Both layouts spell such a document, so it is read back from either.
-/

namespace QueryFederation
namespace Json

/-! ## Documents that have a text -/

mutual

/-- Whether a document has a text: its numbers are grammatical, and no part of it can only be skipped. -/
def IsWritable : Json -> Prop
  | number written => written.IsGrammatical
  | array items => AreItemsWritable items
  | object members => AreMembersWritable members
  | skippable => False
  | _ => True

/-- Whether all items have a text. -/
def AreItemsWritable : List Json -> Prop
  | [] => True
  | item :: rest => IsWritable item ∧ AreItemsWritable rest

/-- Whether the values of all members have a text. -/
def AreMembersWritable : List (String × Json) -> Prop
  | [] => True
  | (_, value) :: rest => IsWritable value ∧ AreMembersWritable rest

end

theorem isWritable_array_iff (items : List Json) :
    (array items).IsWritable <-> forall item, item ∈ items -> item.IsWritable := by
  rw [IsWritable]
  induction items with
  | nil => exact ⟨fun _ _ isItem => (nomatch isItem), fun _ => trivial⟩
  | cons item rest inductionHypothesis =>
      rw [AreItemsWritable, inductionHypothesis, List.forall_mem_cons]

theorem isWritable_object_iff (members : List (String × Json)) :
    (object members).IsWritable <-> forall member, member ∈ members -> member.2.IsWritable := by
  rw [IsWritable]
  induction members with
  | nil => exact ⟨fun _ _ isMember => (nomatch isMember), fun _ => trivial⟩
  | cons member rest inductionHypothesis =>
      rw [AreMembersWritable, inductionHypothesis, List.forall_mem_cons]

/-! ## The compact layout -/

/-- No white space around a member. -/
def MemberGaps.none : MemberGaps :=
  ⟨.none, .none, .none, .none⟩

theorem MemberGaps.none_fill (name : String) (value : List Char) :
    MemberGaps.none.fill name value = writeString name ++ ':' :: value := by
  unfold fill none Blank.none
  simp only [List.nil_append, List.append_nil]

mutual

theorem spells_writeCompact (document : Json) (writable : document.IsWritable) :
    Spells document.writeCompact document := by
  cases document with
  | null => exact .null
  | boolean value => exact .boolean value
  | number written => exact .number writable
  | string text => exact .string text
  | array items =>
      cases items with
      | nil => exact .noItems
      | cons item rest => exact .items (spellsItems_writeItems item rest writable.1 writable.2)
  | object members =>
      cases members with
      | nil => exact .noMembers
      | cons member rest =>
          cases member with
          | mk name value =>
              exact .members (spellsMembers_writeMembers name value rest writable.1 writable.2)
  | skippable => exact absurd writable id
termination_by sizeOf document

theorem spellsItems_writeItems (item : Json) (rest : List Json) (writable : item.IsWritable)
    (restWritable : AreItemsWritable rest) : SpellsItems (writeItems (item :: rest)) (item :: rest) := by
  have first := spells_writeCompact item writable
  cases rest with
  | nil =>
      rw [writeItems, ← List.append_nil item.writeCompact]
      exact .last .none .none first
  | cons next others =>
      have later := spellsItems_writeItems next others restWritable.1 restWritable.2
      rw [writeItems]
      · exact .more .none .none first later
      · exact List.cons_ne_nil next others
termination_by sizeOf item + sizeOf rest + 1

theorem spellsMembers_writeMembers (name : String) (value : Json) (rest : List (String × Json))
    (writable : value.IsWritable) (restWritable : AreMembersWritable rest) :
    SpellsMembers (writeMembers ((name, value) :: rest)) ((name, value) :: rest) := by
  have first := spells_writeCompact value writable
  cases rest with
  | nil =>
      rw [writeMembers, ← MemberGaps.none_fill]
      exact .last .none name first
  | cons next others =>
      cases next with
      | mk nextName nextValue =>
          have later := spellsMembers_writeMembers nextName nextValue others restWritable.1
            restWritable.2
          rw [writeMembers, ← MemberGaps.none_fill]
          · exact .more .none name first later
          · exact List.cons_ne_nil _ others
termination_by sizeOf value + sizeOf rest + 1

end

/-- A document that has a text is read back from its compact text. -/
theorem parse?_compact {document : Json} (writable : document.IsWritable) :
    parse? document.compact = some document :=
  parse?_of_spells (spells_writeCompact document writable)

/-! ## The indented layout -/

/-- A member on a line of its own at a depth, with a space before its value. -/
def MemberGaps.line (depth : Nat) (after : Blank) : MemberGaps :=
  ⟨.line depth, .none, .space, after⟩

theorem MemberGaps.line_fill (depth : Nat) (after : Blank) (name : String) (value : List Char) :
    (MemberGaps.line depth after).fill name value =
      newLine depth ++ (writeString name ++ ':' :: ' ' :: (value ++ after.text)) :=
  rfl

mutual

theorem spells_writeIndented (depth : Nat) (document : Json) (writable : document.IsWritable) :
    Spells (document.writeIndented depth) document := by
  cases document with
  | null => exact .null
  | boolean value => exact .boolean value
  | number written => exact .number writable
  | string text => exact .string text
  | array items =>
      cases items with
      | nil => exact .noItems
      | cons item rest =>
          have inside := spellsItems_writeFurtherItems (depth + 1) (.line depth) item rest writable.1
            writable.2
          rw [writeIndented]
          simpa only [Blank.line, List.append_assoc, List.cons_append] using Spells.items inside
  | object members =>
      cases members with
      | nil => exact .noMembers
      | cons member rest =>
          cases member with
          | mk name value =>
              have inside := spellsMembers_writeFurtherMembers (depth + 1) (.line depth) name value rest
                writable.1 writable.2
              rw [writeIndented]
              simpa only [Blank.line, List.append_assoc, List.cons_append] using Spells.members inside
  | skippable => exact absurd writable id
termination_by sizeOf document

/-- An item on a line of its own, and those that follow it up to the end of the array. -/
theorem spellsItems_writeFurtherItems (depth : Nat) (after : Blank) (item : Json) (rest : List Json)
    (writable : item.IsWritable) (restWritable : AreItemsWritable rest) :
    SpellsItems (newLine depth ++ (item.writeIndented depth ++
      (writeFurtherItems depth rest ++ after.text))) (item :: rest) := by
  have first := spells_writeIndented depth item writable
  cases rest with
  | nil => exact .last (.line depth) after first
  | cons next others =>
      have later := spellsItems_writeFurtherItems depth after next others restWritable.1 restWritable.2
      rw [writeFurtherItems]
      simpa only [Blank.line, Blank.none, List.nil_append, List.append_assoc, List.cons_append] using
        SpellsItems.more (.line depth) .none first later
termination_by sizeOf item + sizeOf rest + 1

/-- A member on a line of its own, and those that follow it up to the end of the object. -/
theorem spellsMembers_writeFurtherMembers (depth : Nat) (after : Blank) (name : String) (value : Json)
    (rest : List (String × Json)) (writable : value.IsWritable)
    (restWritable : AreMembersWritable rest) :
    SpellsMembers (newLine depth ++ (writeString name ++ ':' :: ' ' :: (value.writeIndented depth ++
      (writeFurtherMembers depth rest ++ after.text)))) ((name, value) :: rest) := by
  have first := spells_writeIndented depth value writable
  cases rest with
  | nil => exact .last (.line depth after) name first
  | cons next others =>
      cases next with
      | mk nextName nextValue =>
          have later := spellsMembers_writeFurtherMembers depth after nextName nextValue others
            restWritable.1 restWritable.2
          rw [writeFurtherMembers]
          simpa only [MemberGaps.line_fill, Blank.none, List.append_nil, List.append_assoc,
            List.cons_append] using SpellsMembers.more (.line depth .none) name first later
termination_by sizeOf value + sizeOf rest + 1

end

/-- A document that has a text is read back from its indented text. -/
theorem parse?_indented {document : Json} (writable : document.IsWritable) :
    parse? document.indented = some document :=
  parse?_of_spells (spells_writeIndented 0 document writable)

end Json
end QueryFederation

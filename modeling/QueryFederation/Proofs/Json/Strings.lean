import QueryFederation.Json.Parser
import QueryFederation.Json.Printer

/-!
# Strings that are written and read

The writer of a string goes character by character, and so does this proof.  Whatever the character is,
what the writer makes of it is read as one piece, no matter what follows, and that piece denotes the
character, no matter which pieces follow.  The second half needs a reason only for control characters:
they are written by a number, and a number may be half of a surrogate pair, but not one below the space.
-/

namespace QueryFederation
namespace Json

/-! ## One character -/

/-- Two hexadecimal digits after two zeros denote a number below the space. -/
theorem hexadecimalNumber?_below_space : forall code, code < 32 ->
    Digits.hexadecimalNumber?
      ['0', '0', Nat.digitChar (code / 16), Nat.digitChar (code % 16)] = some code := by
  decide

/-- Before a number that is no half of a surrogate pair, the other pieces are read as they are. -/
theorem assemble?_unit_below_space {code : Nat} (below : code < 32) (pieces : List StringPiece) :
    assemble? (.unit code :: pieces) = (assemble? pieces).map (Char.ofNat code :: ·) := by
  have notHigh : isHighSurrogate code = false := by
    apply decide_eq_false
    omega
  have notLow : isLowSurrogate code = false := by
    apply decide_eq_false
    omega
  cases pieces with
  | nil => simp [assemble?, notHigh, notLow]
  | cons piece rest => cases piece <;> simp [assemble?, notHigh, notLow]

/-- A piece of a string that is read where a character was written. -/
structure ReadsAs (written : List Char) (character : Char) (piece : StringPiece) : Prop where
  taken : forall text, stringPieces? (written ++ text) =
    (stringPieces? text).map fun (pieces, rest) => (piece :: pieces, rest)
  denotes : forall pieces, assemble? (piece :: pieces) = (assemble? pieces).map (character :: ·)

theorem readsAs_shortEscape {escape character : Char} (isEscape : shortEscape? escape = some character)
    (notUnit : escape ≠ 'u') :
    ReadsAs ['\\', escape] character (.character character) where
  taken := by
    intro text
    rw [List.cons_append, List.cons_append, List.nil_append, stringPieces?]
    · rw [isEscape]
      cases stringPieces? text <;> rfl
    · intro first second third fourth rest isUnit
      exact absurd isUnit notUnit
  denotes := fun _ => rfl

theorem readsAs_unit {character : Char} (below : character.toNat < 32) :
    ReadsAs ['\\', 'u', '0', '0', Nat.digitChar (character.toNat / 16),
      Nat.digitChar (character.toNat % 16)] character (.unit character.toNat) where
  taken := by
    intro text
    simp only [List.cons_append, List.nil_append, stringPieces?]
    rw [hexadecimalNumber?_below_space _ below]
    cases stringPieces? text <;> rfl
  denotes := by
    intro pieces
    rw [assemble?_unit_below_space below, Char.ofNat_toNat]

theorem readsAs_itself {character : Char} (notQuote : character ≠ '"') (notEscape : character ≠ '\\')
    (printable : ¬ character.toNat < 32) :
    ReadsAs [character] character (.character character) where
  taken := by
    intro text
    rw [List.cons_append, List.nil_append, stringPieces?]
    · rw [if_neg (not_or.mpr ⟨printable, notEscape⟩)]
      cases stringPieces? text <;> rfl
    · exact notQuote
    · intro first second third fourth rest isEscape
      exact absurd isEscape notEscape
    · intro escape rest isEscape
      exact absurd isEscape notEscape
  denotes := fun _ => rfl

/-- What is written for a character is read as one piece, which denotes it. -/
theorem exists_readsAs_writeCharacter (character : Char) :
    exists piece, ReadsAs (writeCharacter character) character piece := by
  unfold writeCharacter
  split
  · exact ⟨_, readsAs_shortEscape rfl (by decide)⟩
  · exact ⟨_, readsAs_shortEscape rfl (by decide)⟩
  · exact ⟨_, readsAs_shortEscape rfl (by decide)⟩
  · exact ⟨_, readsAs_shortEscape rfl (by decide)⟩
  · exact ⟨_, readsAs_shortEscape rfl (by decide)⟩
  · exact ⟨_, readsAs_shortEscape rfl (by decide)⟩
  · exact ⟨_, readsAs_shortEscape rfl (by decide)⟩
  · rename_i notQuote notEscape _ _ _ _ _
    split
    · exact ⟨_, readsAs_unit ‹_›⟩
    · exact ⟨_, readsAs_itself notQuote notEscape ‹_›⟩

/-! ## Whole strings -/

/-- The characters of a string are read back up to its closing quote. -/
theorem stringPieces?_written (characters text : List Char) :
    exists pieces, stringPieces? (characters.flatMap writeCharacter ++ '"' :: text) =
        some (pieces, text) ∧
      assemble? pieces = some characters := by
  induction characters with
  | nil => exact ⟨[], rfl, rfl⟩
  | cons character rest inductionHypothesis =>
      rcases exists_readsAs_writeCharacter character with ⟨piece, reads⟩
      rcases inductionHypothesis with ⟨pieces, taken, denote⟩
      refine ⟨piece :: pieces, ?_, ?_⟩
      · rw [List.flatMap_cons, List.append_assoc, reads.taken, taken]
        rfl
      · rw [reads.denotes, denote]
        rfl

/-- A string is read as the text that was written, whatever follows it. -/
theorem stringText?_written (written : String) (text : List Char) :
    stringText? (written.toList.flatMap writeCharacter ++ '"' :: text) =
      some (some written, text) := by
  rcases stringPieces?_written written.toList text with ⟨pieces, taken, denote⟩
  unfold stringText?
  rw [taken, Option.map_some]
  dsimp only
  rw [denote, Option.map_some, String.ofList_toList]

end Json
end QueryFederation

import QueryFederation.Proofs.Json.Numbers
import QueryFederation.Toml.Printer

/-!
# TOML strings that are written and read

Whatever notation the writer chooses for a string, the reader takes it for that string, no matter which
characters the string holds.  What follows the string in the document must not begin with one more mark,
since up to two marks may stand right before the closing ones.

The argument goes character by character.  On one line this is all there is to it: no mark stands in the
content without a backslash.  Over several lines marks do stand in the content, but never three in a row,
and that is what tells them from the closing ones: the reader looks at a run of marks from its beginning
and closes the string only if there are three at least.
-/

namespace QueryFederation
namespace Toml

/-! ## Escapes -/

theorem codePoint?_toNat (character : Char) : codePoint? character.toNat = some character := by
  have valid : character.toNat.isValidChar := character.valid
  have same := Char.ofNat_toNat character
  rw [Char.ofNat, dif_pos valid] at same
  rw [codePoint?, dif_pos valid, same]

/-- Two zeros and two hexadecimal digits denote a code of seven bits. -/
theorem hexadecimalNumber?_upper : forall code, code < 128 ->
    Digits.hexadecimalNumber?
      ['0', '0', (Nat.digitChar (code / 16)).toUpper, (Nat.digitChar (code % 16)).toUpper] =
        some code := by
  decide

theorem toNat_lt_of_isControl {character : Char} (control : isControl character = true) :
    character.toNat < 128 := by
  unfold isControl at control
  rw [Bool.or_eq_true, Bool.and_eq_true, decide_eq_true_eq, beq_iff_eq] at control
  rcases control with low | rfl
  · omega
  · decide

theorem escape?_code {character : Char} (control : isControl character = true) (text : List Char) :
    escape? ('u' :: '0' :: '0' :: (Nat.digitChar (character.toNat / 16)).toUpper ::
      (Nat.digitChar (character.toNat % 16)).toUpper :: text) = some (character, text) := by
  have number := hexadecimalNumber?_upper _ (toNat_lt_of_isControl control)
  simp only [escape?, escapedCode?, List.take_succ_cons, List.take_zero, List.length_cons, List.length_nil,
    Nat.zero_add, Nat.reduceAdd, if_true, number, Option.bind_some, codePoint?_toNat,
    Option.map_some, List.drop_succ_cons, List.drop_zero]

/-- What stands after the backslash of an escape: it is read as the character, and it does not continue
the line. -/
structure IsEscapeOf (escape : List Char) (character : Char) : Prop where
  reads : forall text, escape? (escape ++ text) = some (character, text)
  stays : forall text, continuation? (escape ++ text) = none

/-- A character that is escaped is written as a backslash and an escape of it. -/
theorem exists_escape {character : Char} {written : List Char}
    (isEscaped : escaped? character = some written) :
    exists escape, written = '\\' :: escape ∧ IsEscapeOf escape character := by
  unfold escaped? at isEscaped
  split at isEscaped
  · cases isEscaped
    exact ⟨['b'], rfl, fun _ => rfl, fun _ => rfl⟩
  · cases isEscaped
    exact ⟨['t'], rfl, fun _ => rfl, fun _ => rfl⟩
  · cases isEscaped
    exact ⟨['f'], rfl, fun _ => rfl, fun _ => rfl⟩
  · cases isEscaped
    exact ⟨['r'], rfl, fun _ => rfl, fun _ => rfl⟩
  · cases isEscaped
    exact ⟨['\\'], rfl, fun _ => rfl, fun _ => rfl⟩
  · split at isEscaped
    · rename_i control
      cases isEscaped
      rw [Bool.and_eq_true] at control
      exact ⟨_, rfl, escape?_code control.1, fun _ => rfl⟩
    · cases isEscaped

/-- A character that is not escaped is no backslash, and no control character but the newline. -/
theorem plain_of_not_escaped {character : Char} (notEscaped : escaped? character = none) :
    character ≠ '\\' ∧ character ≠ '\r' ∧
      (isControl character = true -> character = '\n') := by
  refine ⟨?_, ?_, ?_⟩
  · rintro rfl
    cases notEscaped
  · rintro rfl
    cases notEscaped
  · intro control
    unfold escaped? at notEscaped
    split at notEscaped
    · cases notEscaped
    · cases notEscaped
    · cases notEscaped
    · cases notEscaped
    · cases notEscaped
    · split at notEscaped
      · cases notEscaped
      · rename_i notControl
        simpa [control] using notControl

/-! ## Basic strings on one line -/

theorem basic?_step (character : Char) (bound : Nat) (text : List Char) :
    basic? (bound + 1)
        ((if character = '\n' then ['\\', 'n']
          else if character = quote then ['\\', quote]
          else (escaped? character).getD [character]) ++ text) =
      prepend [character] (basic? bound text) := by
  split
  · subst character
    rfl
  · rename_i notNewline
    split
    · subst character
      rfl
    · rename_i notQuote
      cases isEscaped : escaped? character with
      | some written =>
          rcases exists_escape isEscaped with ⟨escape, rfl, isEscape⟩
          rw [Option.getD_some, List.cons_append, basic?, isEscape.reads]
      | none =>
          rcases plain_of_not_escaped isEscaped with ⟨notBackslash, _, onlyNewline⟩
          have notControl : ¬ isControl character = true := mt onlyNewline notNewline
          rw [Option.getD_none, List.singleton_append, basic?, if_neg notControl]
          · exact notQuote
          · exact notBackslash

theorem basic?_written (characters : List Char) {bound : Nat} (enough : characters.length < bound)
    (rest : List Char) :
    basic? bound (writeBasic characters ++ quote :: rest) = some (characters, rest) := by
  induction characters generalizing bound with
  | nil =>
      cases bound with
      | zero => exact absurd enough (Nat.not_lt_zero _)
      | succ bound => rfl
  | cons character others inductionHypothesis =>
      cases bound with
      | zero => exact absurd enough (Nat.not_lt_zero _)
      | succ bound =>
          rw [writeBasic, List.append_assoc, basic?_step,
            inductionHypothesis (Nat.lt_of_succ_lt_succ enough)]
          rfl

/-! ## Literal strings on one line -/

theorem literal?_written {characters : List Char} (noMark : apostrophe ∉ characters)
    (noControl : forall character, character ∈ characters -> isControl character = false)
    (rest : List Char) : literal? (characters ++ apostrophe :: rest) = some (characters, rest) := by
  induction characters with
  | nil => rfl
  | cons character others inductionHypothesis =>
      rw [List.mem_cons, not_or] at noMark
      have notControl := noControl character List.mem_cons_self
      rw [List.cons_append, literal?, if_neg (Ne.symm noMark.1), if_neg (by simp [notControl]),
        inductionHypothesis noMark.2 fun other isOther => noControl other (List.mem_cons_of_mem _ isOther)]
      rfl

/-! ## Runs of marks -/

section Runs

variable {mark : Char}

theorem hasRun_of_cons {first : Char} {text : List Char} (noRun : hasRun mark (first :: text) = false) :
    hasRun mark text = false := by
  rw [hasRun, Bool.or_eq_false_iff] at noRun
  exact noRun.2

theorem hasRun_of_append {front text : List Char} (noRun : hasRun mark (front ++ text) = false) :
    hasRun mark text = false := by
  induction front with
  | nil => exact noRun
  | cons first others inductionHypothesis => exact inductionHypothesis (hasRun_of_cons noRun)

/-- Up to two marks before another character make no run. -/
theorem hasRun_marks_cons {count : Nat} (few : count ≤ 2) {other : Char} (isOther : other ≠ mark)
    (text : List Char) :
    hasRun mark (List.replicate count mark ++ other :: text) = hasRun mark text := by
  have different : (mark == other) = false := beq_false_of_ne (Ne.symm isOther)
  have none : hasRun mark (other :: text) = hasRun mark text := by
    simp [hasRun, List.isPrefixOf, different]
  match count, few with
  | 0, _ => exact none
  | 1, _ =>
      rw [← none]
      simp [List.replicate, hasRun, List.isPrefixOf, different]
  | 2, _ =>
      rw [← none]
      simp [List.replicate, hasRun, List.isPrefixOf, different]

/-- Neither do up to two marks before a text that is not empty and has none. -/
theorem hasRun_marks_append {count : Nat} (few : count ≤ 2) {front : List Char} (nonempty : front ≠ [])
    (noMark : mark ∉ front) (text : List Char) :
    hasRun mark (List.replicate count mark ++ (front ++ text)) = hasRun mark text := by
  induction front generalizing count with
  | nil => exact absurd rfl nonempty
  | cons first others inductionHypothesis =>
      rw [List.mem_cons, not_or] at noMark
      rw [List.cons_append, hasRun_marks_cons few (Ne.symm noMark.1)]
      cases others with
      | nil => rfl
      | cons second more =>
          exact inductionHypothesis (Nat.zero_le 2) (List.cons_ne_nil second more) noMark.2

theorem le_two_of_noRun {count : Nat} {text : List Char}
    (noRun : hasRun mark (List.replicate count mark ++ text) = false) : count ≤ 2 := by
  by_contra many
  rcases Nat.exists_eq_add_of_le (show 3 ≤ count by omega) with ⟨more, rfl⟩
  rw [← List.replicate_append_replicate] at noRun
  simp [List.replicate, hasRun, List.isPrefixOf] at noRun

theorem takeWhile_marks (count : Nat) {rest : List Char} (ended : mark ∉ rest.head?) :
    (List.replicate count mark ++ rest).takeWhile (· == mark) = List.replicate count mark := by
  apply (divide_append _ _).1
  · exact fun _ isMember => beq_iff_eq.mpr (List.eq_of_mem_replicate isMember)
  · intro next isNext
    rw [beq_eq_false_iff_ne]
    rintro rfl
    exact ended isNext

/-- A text without a run of marks before closing ones: the string is closed here exactly if nothing but
marks stands before them, and then they belong to the content. -/
theorem closing?_of_noRun {text rest : List Char} (noRun : hasRun mark text = false)
    (ended : mark ∉ rest.head?) :
    closing? mark (text ++ (marks mark ++ rest)) =
      if text.all (· == mark) then some (text, rest) else none := by
  have divided := List.takeWhile_append_dropWhile (p := (· == mark)) (l := text)
  have front : text.takeWhile (· == mark) =
      List.replicate (text.takeWhile (· == mark)).length mark :=
    List.eq_replicate_of_mem fun _ isMember => by simpa using List.mem_takeWhile_imp isMember
  generalize (text.takeWhile (· == mark)).length = count at front
  rw [front] at divided
  unfold closing?
  dsimp only
  cases tail : text.dropWhile (· == mark) with
  | nil =>
      rw [tail] at divided
      subst divided
      have few := le_two_of_noRun noRun
      have all : (List.replicate count mark ++ []).all (· == mark) = true := by simp
      have together : List.replicate count mark ++ [] ++ (marks mark ++ rest) =
          List.replicate (count + 3) mark ++ rest := by
        rw [List.append_nil, ← List.append_assoc, ← List.replicate_append_replicate]
        rfl
      have least : min (count + 3) 5 = count + 3 := by omega
      rw [if_pos all, together, takeWhile_marks _ ended, List.length_replicate, if_pos (by omega),
        least, Nat.add_sub_cancel, List.append_nil,
        List.drop_left' (List.length_replicate)]
  | cons other others =>
      have isOther : other ≠ mark := by
        have nonempty : text.dropWhile (· == mark) ≠ [] := by
          rw [tail]
          exact List.cons_ne_nil other others
        simpa [tail] using List.head_dropWhile_not (· == mark) nonempty
      rw [tail] at divided
      subst divided
      have few := le_two_of_noRun noRun
      have notAll : ¬ (List.replicate count mark ++ other :: others).all (· == mark) = true := by
        simp [isOther]
      rw [if_neg notAll, List.append_assoc, takeWhile_marks, List.length_replicate, if_neg (by omega)]
      intro isHead
      exact isOther (Option.some.inj isHead)

/-- Nothing stands before the closing marks. -/
theorem closing?_marks {rest : List Char} (ended : mark ∉ rest.head?) :
    closing? mark (marks mark ++ rest) = some ([], rest) := by
  have noRun : hasRun mark [] = false := rfl
  have closing := closing?_of_noRun noRun ended
  rwa [List.nil_append, List.all_nil, if_pos rfl] at closing

end Runs

/-! ## Literal strings over several lines -/

theorem newline?_cons {first : Char} (notNewline : first ≠ '\n') (notReturn : first ≠ '\r')
    (text : List Char) : newline? (first :: text) = none := by
  unfold newline?
  split
  · rename_i same
    exact absurd (List.cons.inj same).1 notNewline
  · rename_i same
    exact absurd (List.cons.inj same).1 notReturn
  · rfl

theorem literalLines?_step {character : Char} (bound : Nat) {text : List Char}
    (inside : closing? apostrophe (character :: text) = none)
    (noControl : isControl character = true -> character = '\n') :
    literalLines? (bound + 1) (character :: text) =
      prepend [character] (literalLines? bound text) := by
  rw [literalLines?, inside]
  dsimp only
  by_cases isNewline : character = '\n'
  · subst character
    rfl
  · have notReturn : character ≠ '\r' := by
      rintro rfl
      exact absurd (noControl rfl) isNewline
    rw [newline?_cons isNewline notReturn]
    dsimp only
    rw [if_neg (mt noControl isNewline)]

theorem literalLines?_written {characters rest : List Char} (ended : apostrophe ∉ rest.head?)
    (noRun : hasRun apostrophe characters = false)
    (noControl : forall character, character ∈ characters ->
      isControl character = true -> character = '\n')
    {bound : Nat} (enough : characters.length < bound) :
    literalLines? bound (characters ++ (marks apostrophe ++ rest)) = some (characters, rest) := by
  induction characters generalizing bound with
  | nil =>
      cases bound with
      | zero => exact absurd enough (Nat.not_lt_zero _)
      | succ bound =>
          have closing := closing?_marks ended
          rw [marks, List.cons_append] at closing
          rw [List.nil_append, marks, List.cons_append, literalLines?, closing]
  | cons character others inductionHypothesis =>
      cases bound with
      | zero => exact absurd enough (Nat.not_lt_zero _)
      | succ bound =>
          have later := inductionHypothesis (hasRun_of_cons noRun)
            (fun other isOther => noControl other (List.mem_cons_of_mem _ isOther))
            (Nat.lt_of_succ_lt_succ enough)
          have closing := closing?_of_noRun noRun ended
          rw [List.cons_append] at closing ⊢
          by_cases onlyMarks : (character :: others).all (· == apostrophe) = true
          · rw [if_pos onlyMarks] at closing
            rw [literalLines?, closing]
          · rw [if_neg onlyMarks] at closing
            rw [literalLines?_step bound closing (noControl character List.mem_cons_self), later]
            rfl

/-! ## Basic strings over several lines -/

theorem written_ne_nil (character : Char) : (escaped? character).getD [character] ≠ [] := by
  cases isEscaped : escaped? character with
  | some written =>
      rcases exists_escape isEscaped with ⟨escape, rfl, _⟩
      exact List.cons_ne_nil _ _
  | none => exact List.cons_ne_nil _ _

/-- A character other than a mark is written without a mark. -/
theorem quote_not_mem_written {character : Char} (notQuote : character ≠ quote) :
    quote ∉ (escaped? character).getD [character] := by
  have digits : forall digit, digit < 16 -> quote ≠ (Nat.digitChar digit).toUpper := by decide
  unfold escaped?
  split
  · decide
  · decide
  · decide
  · decide
  · decide
  · split
    · rename_i control
      rw [Bool.and_eq_true] at control
      have code := toNat_lt_of_isControl control.1
      have high := digits (character.toNat / 16) (by omega)
      have low := digits (character.toNat % 16) (by omega)
      simp only [Option.getD_some, List.mem_cons, high, low, List.not_mem_nil, or_self, or_false]
      decide
    · simpa using Ne.symm notQuote

/-- What is written over several lines has no run of marks, also after the marks right before it. -/
theorem hasRun_writeBasicLines (characters : List Char) (run : Nat) :
    hasRun quote (List.replicate (min run 2) quote ++ writeBasicLines run characters) = false := by
  induction characters generalizing run with
  | nil =>
      have few : min run 2 ≤ 2 := Nat.min_le_right run 2
      match min run 2, few with
      | 0, _ => rfl
      | 1, _ => rfl
      | 2, _ => rfl
  | cons character others inductionHypothesis =>
      rw [writeBasicLines]
      by_cases isQuote : character = quote
      · rw [if_pos isQuote]
        have later := inductionHypothesis (run + 1)
        by_cases many : 2 ≤ run
        · rw [Nat.min_eq_right (by omega)] at later
          rw [if_pos many, Nat.min_eq_right many]
          exact (hasRun_marks_cons (Nat.le_refl 2) (by decide) _).trans
            (hasRun_of_cons later)
        · rw [Nat.min_eq_left (by omega), List.replicate_succ', List.append_assoc] at later
          rwa [if_neg many, Nat.min_eq_left (by omega)]
      · rw [if_neg isQuote, hasRun_marks_append (Nat.min_le_right run 2) (written_ne_nil character)
          (quote_not_mem_written isQuote)]
        exact inductionHypothesis 0

/-- When nothing but marks is written, each of them stands for itself. -/
theorem writeBasicLines_of_all (characters : List Char) (run : Nat)
    (onlyMarks : (writeBasicLines run characters).all (· == quote) = true) :
    writeBasicLines run characters = characters := by
  induction characters generalizing run with
  | nil => rfl
  | cons character others inductionHypothesis =>
      rw [writeBasicLines] at onlyMarks ⊢
      by_cases isQuote : character = quote
      · rw [if_pos isQuote, List.all_append, Bool.and_eq_true] at onlyMarks
        by_cases many : 2 ≤ run
        · rw [if_pos many] at onlyMarks
          exact absurd onlyMarks.1 (by decide)
        · rw [if_pos isQuote, if_neg many, inductionHypothesis _ onlyMarks.2, isQuote]
          rfl
      · rw [if_neg isQuote, List.all_append, Bool.and_eq_true] at onlyMarks
        rcases List.exists_mem_of_ne_nil _ (written_ne_nil character) with ⟨first, isFirst⟩
        have isMark := beq_iff_eq.mp (List.all_eq_true.mp onlyMarks.1 first isFirst)
        exact absurd (isMark ▸ isFirst) (quote_not_mem_written isQuote)

theorem basicLines?_step {character : Char} (notQuote : character ≠ quote) (bound : Nat)
    (text : List Char) :
    basicLines? (bound + 1) ((escaped? character).getD [character] ++ text) =
      prepend [character] (basicLines? bound text) := by
  cases isEscaped : escaped? character with
  | some written =>
      rcases exists_escape isEscaped with ⟨escape, rfl, isEscape⟩
      rw [Option.getD_some, List.cons_append, basicLines?, isEscape.stays, isEscape.reads]
  | none =>
      rcases plain_of_not_escaped isEscaped with ⟨notBackslash, notReturn, onlyNewline⟩
      rw [Option.getD_none, List.singleton_append, basicLines?]
      · by_cases isNewline : character = '\n'
        · subst character
          rfl
        · rw [newline?_cons isNewline notReturn]
          dsimp only
          rw [if_neg (mt onlyNewline isNewline)]
      · exact notQuote
      · exact notBackslash

theorem basicLines?_quote (bound : Nat) (text : List Char) :
    basicLines? (bound + 1) (quote :: text) =
      (closing? quote (quote :: text)).or (prepend [quote] (basicLines? bound text)) := by
  unfold quote
  rw [basicLines?]
  unfold quote
  cases closing? '"' ('"' :: text) <;> rfl

theorem basicLines?_escaped_quote (bound : Nat) (text : List Char) :
    basicLines? (bound + 1) ('\\' :: quote :: text) = prepend [quote] (basicLines? bound text) := rfl

theorem basicLines?_written {rest : List Char} (ended : quote ∉ rest.head?) (characters : List Char)
    (run : Nat) {bound : Nat} (enough : characters.length < bound) :
    basicLines? bound (writeBasicLines run characters ++ (marks quote ++ rest)) =
      some (characters, rest) := by
  induction characters generalizing run bound with
  | nil =>
      cases bound with
      | zero => exact absurd enough (Nat.not_lt_zero _)
      | succ bound =>
          have closing := closing?_marks ended
          rw [marks, List.cons_append] at closing
          rw [writeBasicLines, List.nil_append, marks, List.cons_append, basicLines?_quote, closing,
            Option.some_or]
  | cons character others inductionHypothesis =>
      cases bound with
      | zero => exact absurd enough (Nat.not_lt_zero _)
      | succ bound =>
          have later (run : Nat) := inductionHypothesis run (Nat.lt_of_succ_lt_succ enough)
          by_cases isQuote : character = quote
          · subst isQuote
            by_cases many : 2 ≤ run
            · rw [writeBasicLines, if_pos rfl, if_pos many, List.append_assoc, List.cons_append,
                List.singleton_append, basicLines?_escaped_quote, later]
              rfl
            · -- Either the string ends with this mark or after others like it, or it goes on.
              have noRun := hasRun_of_append (hasRun_writeBasicLines (quote :: others) run)
              have closing := closing?_of_noRun noRun ended
              have allOwn := writeBasicLines_of_all (quote :: others) run
              have written : writeBasicLines run (quote :: others) =
                  quote :: writeBasicLines (run + 1) others := by
                rw [writeBasicLines, if_pos rfl, if_neg many, List.singleton_append]
              rw [written] at closing allOwn ⊢
              rw [List.cons_append] at closing ⊢
              rw [basicLines?_quote, closing]
              by_cases onlyMarks : (quote :: writeBasicLines (run + 1) others).all (· == quote) = true
              · rw [if_pos onlyMarks, Option.some_or, allOwn onlyMarks]
              · rw [if_neg onlyMarks, Option.none_or, later]
                rfl
          · rw [writeBasicLines, if_neg isQuote, List.append_assoc, basicLines?_step isQuote, later]
            rfl

/-! ## Whole strings -/

theorem length_le_writeBasic (characters : List Char) :
    characters.length ≤ (writeBasic characters).length := by
  induction characters with
  | nil => exact Nat.le_refl 0
  | cons character others inductionHypothesis =>
      have written := List.length_pos_iff.mpr (written_ne_nil character)
      rw [writeBasic, List.length_append, List.length_cons]
      split
      · simp only [List.length_cons, List.length_nil]
        omega
      · split
        · simp only [List.length_cons, List.length_nil]
          omega
        · omega

theorem length_le_writeBasicLines (characters : List Char) (run : Nat) :
    characters.length ≤ (writeBasicLines run characters).length := by
  induction characters generalizing run with
  | nil => exact Nat.le_refl 0
  | cons character others inductionHypothesis =>
      have written := List.length_pos_iff.mpr (written_ne_nil character)
      rw [writeBasicLines, List.length_cons]
      split
      · have later := inductionHypothesis (run + 1)
        split <;> simp only [List.length_append, List.length_cons, List.length_nil] <;> omega
      · have later := inductionHypothesis 0
        rw [List.length_append]
        omega

/-- Text that does not begin with three marks of one kind is read as a string on one line. -/
theorem text?_eq_quoted? {text : List Char}
    (notThree : forall mark rest, text ≠ mark :: mark :: mark :: rest) : text? text = quoted? text := by
  unfold text?
  split
  · exact absurd rfl (notThree _ _)
  · exact absurd rfl (notThree _ _)
  · rfl

/-- On one line no mark is written without a backslash before it. -/
theorem writeBasic_head {characters : List Char} : quote ∉ (writeBasic characters).head? := by
  cases characters with
  | nil => exact fun isHead => nomatch isHead
  | cons character others =>
      intro isHead
      rw [writeBasic, List.head?_append] at isHead
      split at isHead
      · exact absurd (Option.some.inj isHead) (by decide)
      · split at isHead
        · exact absurd (Option.some.inj isHead) (by decide)
        · rename_i notQuote
          rw [List.head?_eq_some_head (written_ne_nil character), Option.some_or] at isHead
          apply quote_not_mem_written notQuote
          rw [← Option.some.inj isHead]
          exact List.head_mem (written_ne_nil character)

theorem text?_basic (characters : List Char) {rest : List Char} (ended : quote ∉ rest.head?) :
    text? (quote :: (writeBasic characters ++ quote :: rest)) = some (characters, rest) := by
  have enough : characters.length < (writeBasic characters ++ quote :: rest).length + 1 := by
    have least := length_le_writeBasic characters
    rw [List.length_append]
    omega
  rw [text?_eq_quoted?]
  · exact basic?_written characters enough rest
  · intro mark more same
    rw [List.cons.injEq] at same
    rcases same with ⟨rfl, same⟩
    have noHead : quote ∉ (writeBasic characters).head? := writeBasic_head
    cases written : writeBasic characters with
    | nil =>
        rw [written, List.nil_append, List.cons.injEq] at same
        rw [same.2] at ended
        exact ended rfl
    | cons first others =>
        rw [written, List.cons_append, List.cons.injEq] at same
        rw [written, same.1] at noHead
        exact noHead rfl

theorem text?_literal {characters : List Char} (nonempty : characters ≠ [])
    (noMark : apostrophe ∉ characters)
    (noControl : forall character, character ∈ characters -> isControl character = false)
    (rest : List Char) :
    text? (apostrophe :: (characters ++ apostrophe :: rest)) = some (characters, rest) := by
  rw [text?_eq_quoted?]
  · exact literal?_written noMark noControl rest
  · intro mark more same
    rw [List.cons.injEq] at same
    rcases same with ⟨rfl, same⟩
    cases characters with
    | nil => exact nonempty rfl
    | cons first others =>
        rw [List.cons_append, List.cons.injEq] at same
        exact noMark (same.1 ▸ List.mem_cons_self)

theorem text?_quotes (text : List Char) :
    text? (marks quote ++ text) = basicLines? (text.length + 1) (dropNewline text) := rfl

theorem text?_apostrophes (text : List Char) :
    text? (marks apostrophe ++ text) = literalLines? (text.length + 1) (dropNewline text) := rfl

/-- The newline right after the opening marks is dropped, and without one nothing is. -/
theorem dropNewline_opening {hasNewline : Bool} {text : List Char}
    (kept : hasNewline = false -> forall first, first ∈ text.head? -> first ≠ '\n' ∧ first ≠ '\r') :
    dropNewline ((if hasNewline then ['\n'] else []) ++ text) = text := by
  cases hasNewline with
  | true => rfl
  | false =>
      cases text with
      | nil => rfl
      | cons first others =>
          rcases kept rfl first rfl with ⟨notNewline, notReturn⟩
          change dropNewline (first :: others) = first :: others
          rw [dropNewline, newline?_cons notNewline notReturn]

/-- What is written over several lines begins with a mark, a backslash, or a character of the content. -/
theorem writeBasicLines_head {characters : List Char} {run : Nat} {first : Char}
    (isFirst : first ∈ (writeBasicLines run characters).head?) :
    first = quote ∨ first = '\\' ∨ (first ∈ characters ∧ first ≠ '\r') := by
  cases characters with
  | nil => cases isFirst
  | cons character others =>
      rw [writeBasicLines] at isFirst
      split at isFirst
      · split at isFirst
        · exact .inr (.inl (Option.some.inj isFirst).symm)
        · exact .inl (Option.some.inj isFirst).symm
      · cases isEscaped : escaped? character with
        | some written =>
            rcases exists_escape isEscaped with ⟨escape, rfl, _⟩
            rw [isEscaped] at isFirst
            exact .inr (.inl (Option.some.inj isFirst).symm)
        | none =>
            rw [isEscaped] at isFirst
            rw [← Option.some.inj isFirst]
            exact .inr (.inr ⟨List.mem_cons_self, (plain_of_not_escaped isEscaped).2.1⟩)

theorem text?_basicLines {characters : List Char} {hasNewline : Bool}
    (kept : hasNewline = false -> '\n' ∉ characters) {rest : List Char} (ended : quote ∉ rest.head?) :
    text? (marks quote ++ ((if hasNewline then ['\n'] else []) ++
      (writeBasicLines 0 characters ++ (marks quote ++ rest)))) = some (characters, rest) := by
  rw [text?_quotes, dropNewline_opening]
  · refine basicLines?_written ended characters 0 ?_
    have least := length_le_writeBasicLines characters 0
    simp only [List.length_append]
    omega
  · intro noNewline first isFirst
    rw [List.head?_append] at isFirst
    cases head : (writeBasicLines 0 characters).head? with
    | none =>
        rw [head] at isFirst
        rw [← Option.some.inj isFirst]
        decide
    | some other =>
        rw [head] at isFirst
        have same : other = first := Option.some.inj isFirst
        subst same
        rcases writeBasicLines_head head with rfl | rfl | ⟨isMember, notReturn⟩
        · decide
        · decide
        · exact ⟨fun isNewline => kept noNewline (isNewline ▸ isMember), notReturn⟩

theorem text?_literalLines {characters : List Char} {hasNewline : Bool}
    (kept : hasNewline = false -> '\n' ∉ characters)
    (noRun : hasRun apostrophe characters = false)
    (noControl : forall character, character ∈ characters ->
      isControl character = true -> character = '\n')
    {rest : List Char} (ended : apostrophe ∉ rest.head?) :
    text? (marks apostrophe ++ ((if hasNewline then ['\n'] else []) ++
      (characters ++ (marks apostrophe ++ rest)))) = some (characters, rest) := by
  rw [text?_apostrophes, dropNewline_opening]
  · refine literalLines?_written ended noRun noControl ?_
    simp only [List.length_append]
    omega
  · intro noNewline first isFirst
    cases characters with
    | nil =>
        rw [← Option.some.inj isFirst]
        decide
    | cons character others =>
        have same : character = first := Option.some.inj isFirst
        subst same
        have notNewline : character ≠ '\n' :=
          fun isNewline => kept noNewline (isNewline ▸ List.mem_cons_self)
        refine ⟨notNewline, ?_⟩
        rintro rfl
        exact notNewline (noControl '\r' List.mem_cons_self rfl)

/-! ## The choice of a notation -/

theorem features_of_literal {features : Features} (chosen : chooseNotation features = .literal) :
    features.hasControl = false ∧ features.hasApostrophe = false ∧ features.hasNewline = false := by
  unfold chooseNotation at chosen
  split at chosen
  · cases chosen
  · split at chosen
    · rename_i plain
      simpa [and_assoc] using plain
    · split at chosen
      · cases chosen
      · split at chosen
        · cases chosen
        · split at chosen <;> cases chosen

theorem features_of_literalLines {features : Features}
    (chosen : chooseNotation features = .literalLines) :
    features.hasControl = false ∧ features.hasApostropheRun = false := by
  unfold chooseNotation at chosen
  split at chosen
  · cases chosen
  · split at chosen
    · cases chosen
    · split at chosen
      · cases chosen
      · split at chosen
        · rename_i plain
          simpa using plain
        · split at chosen <;> cases chosen

theorem isControl_of_features {characters : List Char}
    (noControl : (featuresOf characters).hasControl = false) {character : Char}
    (isMember : character ∈ characters) (control : isControl character = true) : character = '\n' := by
  have noOther := List.any_eq_false.mp noControl character isMember
  simpa [control] using noOther

/-- A string is read as it was written, whatever notation the writer has chosen. -/
theorem text?_writeString (text : String) {rest : List Char}
    (ended : forall next, next ∈ rest.head? -> next ≠ quote ∧ next ≠ apostrophe) :
    text? (writeString text ++ rest) = some (text.toList, rest) := by
  have quoteEnded : quote ∉ rest.head? := fun isHead => (ended quote isHead).1 rfl
  have apostropheEnded : apostrophe ∉ rest.head? := fun isHead => (ended apostrophe isHead).2 rfl
  unfold writeString
  dsimp only
  generalize text.toList = characters
  have kept : (featuresOf characters).hasNewline = false -> '\n' ∉ characters := by
    intro noNewline
    simpa [featuresOf] using noNewline
  cases chosen : chooseNotation (featuresOf characters) with
  | basic =>
      dsimp only
      rw [List.append_assoc, List.singleton_append, List.cons_append]
      exact text?_basic characters quoteEnded
  | literal =>
      rcases features_of_literal chosen with ⟨noControl, noMark, noNewline⟩
      have nonempty : characters ≠ [] := by
        rintro rfl
        cases chosen
      have noMark : apostrophe ∉ characters := by simpa [featuresOf] using noMark
      dsimp only
      rw [List.append_assoc, List.singleton_append, List.cons_append]
      apply text?_literal nonempty noMark
      intro character isMember
      rw [Bool.eq_false_iff]
      intro control
      exact kept noNewline (isControl_of_features noControl isMember control ▸ isMember)
  | basicLines =>
      dsimp only
      rw [List.append_assoc, List.append_assoc, List.append_assoc]
      exact text?_basicLines kept quoteEnded
  | literalLines =>
      rcases features_of_literalLines chosen with ⟨noControl, noRun⟩
      dsimp only
      rw [List.append_assoc, List.append_assoc, List.append_assoc]
      exact text?_literalLines kept noRun (fun _ isMember => isControl_of_features noControl isMember)
        apostropheEnded

end Toml
end QueryFederation

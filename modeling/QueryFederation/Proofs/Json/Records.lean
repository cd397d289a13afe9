import QueryFederation.Proofs.Json.Layouts

/-!
# Records that are written and read

A value is stored in a document if the document has a text and the reader of the value's type takes the
document for the value.  It is then read back from either layout of the text.  Lists, tables and records
are stored if their parts are, so for a type of values only its own fields have to be gone through.
-/

namespace QueryFederation
namespace Json

/-- The texts of a document, on one line and indented. -/
def layouts (document : Json) : List String :=
  [document.compact, document.indented]

/-- That a document has a text, and that a reader takes the document for a value. -/
structure Stores {Entry : Type} (read? : Json -> Option Entry) (document : Json) (entry : Entry) :
    Prop where
  writable : document.IsWritable
  reads : read? document = some entry

section Parts

variable {Entry : Type} {read? : Json -> Option Entry} {document : Json} {entry : Entry}

/-- What is stored in a document is read back from each of its texts. -/
theorem Stores.ofLayout (stores : Stores read? document entry) {text : String}
    (isLayout : text ∈ document.layouts) : (parse? text).bind read? = some entry := by
  rw [layouts, List.mem_pair] at isLayout
  rcases isLayout with rfl | rfl
  · rw [parse?_compact stores.writable]
    exact stores.reads
  · rw [parse?_indented stores.writable]
    exact stores.reads

theorem stores_text (text : String) : Stores text? (.string text) text :=
  ⟨trivial, rfl⟩

theorem stores_int64 (value : Int64) : Stores int64? (.ofInt value.toInt) value :=
  ⟨JsonNumber.isGrammatical_ofInt value.toInt, int64?_ofInt value⟩

theorem stores_nat {bound value : Nat} (below : value < bound) :
    Stores (natBelow? bound) (.ofNat value) value where
  writable := by
    rw [ofNat_eq_ofInt]
    exact JsonNumber.isGrammatical_ofInt value
  reads := natBelow?_ofNat below

/-! ## Doubles -/

/-- That the text of a double reads as that double.  Infinities and what is no number have no text, so
they do not. -/
def ReadsBack (value : Float) : Prop :=
  (parse? (ofFloat value).compact).bind float? = some value

instance (value : Float) : Decidable (ReadsBack value) :=
  inferInstanceAs (Decidable (_ = _))

/-- A double that is written as nothing does not read. -/
theorem not_readsBack {value : Float} (unwritten : JsonNumber.ofFloat? value = none) :
    ¬ ReadsBack value := by
  intro readsBack
  have isNull : ofFloat value = .null := by rw [ofFloat, unwritten]
  have null : parse? Json.null.compact = some .null := parse?_compact trivial
  rw [ReadsBack, isNull, null] at readsBack
  cases readsBack

/-- A number with a zero in front of more digits is not read. -/
theorem parse?_leading_zero (negative : Bool) {next : Char} (isDigit : next.isDigit = true)
    (others : List Char) :
    parse? (String.ofList ((if negative then ['-'] else []) ++ '0' :: next :: others)) = none := by
  have taken := numberText?_zero_digit negative isDigit others
  have left : dropSpace (next :: others) = next :: others :=
    dropSpace_cons (isSpace_of_numeric (Or.inr isDigit)) others
  unfold parse?
  rw [String.toList_ofList]
  cases negative with
  | true =>
      simp only [if_true, List.singleton_append] at taken ⊢
      rw [value?_of_numeric _ (Or.inl rfl), taken]
      simp [left]
  | false =>
      simp only [Bool.false_eq_true, if_false, List.nil_append] at taken ⊢
      rw [value?_of_numeric _ (Or.inr rfl), taken]
      simp [left]

theorem stores_float {value : Float} (readsBack : ReadsBack value) :
    Stores float? (ofFloat value) value := by
  cases written : JsonNumber.ofFloat? value with
  | none => exact absurd readsBack (not_readsBack written)
  | some number =>
      have isNumber : ofFloat value = .number number := by rw [ofFloat, written]
      rw [ReadsBack, isNumber] at readsBack
      rw [isNumber]
      rcases (JsonNumber.hasDigits_of_ofFloat? written).isGrammatical_or with
        grammatical | ⟨next, others, isDigit, text⟩
      · have writable : (Json.number number).IsWritable := grammatical
        rw [parse?_compact writable] at readsBack
        exact ⟨writable, readsBack⟩
      · change (parse? (String.ofList number.write)).bind float? = some value at readsBack
        rw [text, parse?_leading_zero _ isDigit] at readsBack
        cases readsBack

/-! ## Lists and tables -/

theorem Stores.map {Result : Type} (result : Entry -> Result) (stores : Stores read? document entry) :
    Stores (fun document => (read? document).map result) document (result entry) :=
  ⟨stores.writable, congrArg (Option.map result) stores.reads⟩

/-- A list is read if each of its items is. -/
theorem mapM_eq_some {Source : Type} {step : Source -> Option Entry} (result : Source -> Entry)
    {sources : List Source} (steps : forall source, source ∈ sources ->
      step source = some (result source)) :
    sources.mapM step = some (sources.map result) := by
  induction sources with
  | nil => rfl
  | cons source rest inductionHypothesis =>
      rw [List.mapM_cons, steps source List.mem_cons_self,
        inductionHypothesis fun later isLater => steps later (List.mem_cons_of_mem _ isLater)]
      rfl

theorem stores_list {toJson : Entry -> Json} {entries : List Entry}
    (stores : forall entry, entry ∈ entries -> Stores read? (toJson entry) entry) :
    Stores (list? read?) (.array (entries.map toJson)) entries where
  writable := by
    rw [isWritable_array_iff, List.forall_mem_map]
    exact fun entry isEntry => (stores entry isEntry).writable
  reads := by
    rw [list?, List.mapM_map]
    refine (mapM_eq_some id ?_).trans (congrArg some (List.map_id entries))
    exact fun entry isEntry => (stores entry isEntry).reads

theorem stores_table {toJson : Entry -> Json} {pairs : List (String × Entry)}
    (stores : forall pair, pair ∈ pairs -> Stores read? (toJson pair.2) pair.2) :
    Stores (table? read?) (.object (pairs.map fun pair => (pair.1, toJson pair.2))) pairs where
  writable := by
    rw [isWritable_object_iff, List.forall_mem_map]
    exact fun pair isPair => (stores pair isPair).writable
  reads := by
    rw [table?, List.mapM_map]
    refine (mapM_eq_some id ?_).trans (congrArg some (List.map_id pairs))
    intro pair isPair
    dsimp only [Function.comp_apply]
    rw [(stores pair isPair).reads]
    rfl

end Parts

/-! ## Records -/

theorem valuesOf_of_mem {members : List (String × Json)} (distinct : (members.map Prod.fst).Nodup)
    {member : String × Json} (isMember : member ∈ members) :
    valuesOf member.1 members = [member.2] := by
  unfold valuesOf
  induction members with
  | nil => cases isMember
  | cons first rest inductionHypothesis =>
      rw [List.map_cons, List.nodup_cons] at distinct
      rcases List.mem_cons.mp isMember with rfl | later
      · have noOther : (rest.filter fun other => other.1 == member.1) = [] := by
          apply List.filter_eq_nil_iff.mpr
          intro other isOther same
          exact distinct.1 (List.mem_map.mpr ⟨other, isOther, beq_iff_eq.mp same⟩)
        have kept : (member :: rest).filter (fun other => other.1 == member.1) =
            member :: rest.filter fun other => other.1 == member.1 :=
          List.filter_cons_of_pos (beq_iff_eq.mpr rfl)
        rw [kept, noOther]
        rfl
      · have different : first.1 ≠ member.1 :=
          fun same => distinct.1 (List.mem_map.mpr ⟨member, later, same.symm⟩)
        rw [List.filter_cons_of_neg (by simpa using different)]
        exact inductionHypothesis distinct.2 later

/-- An object whose members have different names is read as a record of these. -/
theorem record?_object {members : List (String × Json)}
    (distinct : (members.map Prod.fst).Nodup) :
    record? (members.map Prod.fst) (.object members) =
      some (members.map fun member => some member.2) := by
  rw [record?, List.mapM_map]
  apply mapM_eq_some
  intro member isMember
  dsimp only [Function.comp_apply]
  rw [field?, valuesOf_of_mem distinct isMember]

theorem record?_pair {firstName secondName : String} (distinct : firstName ≠ secondName)
    (first second : Json) :
    record? [firstName, secondName] (.object [(firstName, first), (secondName, second)]) =
      some [some first, some second] :=
  record?_object (List.pairwise_pair.mpr distinct)

/-- A record of two fields is stored if both fields are. -/
theorem stores_record {First Second Entry : Type} (make : First -> Second -> Entry)
    {firstName secondName : String} (distinct : firstName ≠ secondName)
    {firstRead? : Json -> Option First} {firstDocument : Json} {firstValue : First}
    {secondRead? : Json -> Option Second} {secondDocument : Json} {secondValue : Second}
    (first : Stores firstRead? firstDocument firstValue)
    (second : Stores secondRead? secondDocument secondValue) :
    Stores
      (fun document =>
        match record? [firstName, secondName] document with
        | some [some first, some second] => do
            some (make (← firstRead? first) (← secondRead? second))
        | _ => none)
      (.object [(firstName, firstDocument), (secondName, secondDocument)])
      (make firstValue secondValue) where
  writable := ⟨first.writable, second.writable, trivial⟩
  reads := by
    rw [record?_pair distinct]
    dsimp only
    rw [first.reads, second.reads]
    rfl

end Json
end QueryFederation

import QueryFederation.Proofs.Json.Records
import QueryFederation.Proofs.Series.NameMaps
import QueryFederation.Series.Document

/-!
# Results and fixtures that are stored

Every result and every fixture is read back from the document that its writer makes, provided that its
doubles are read back from their texts.  Nothing else is asked of it: names, texts and timestamps may be
any, and so may the numbers of series and samples.

The tables of a fixture have no order of their own, so a writer may go through them in any order.  The
reader orders them by name, and so all these documents are read as the same fixture.
-/

namespace QueryFederation

open Json (Stores stores_text stores_int64 stores_float stores_list stores_table stores_record
  ReadsBack list? text? record? record?_object record?_pair)

/-! ## Samples -/

theorem Sample.stores {sample : Sample} (readsBack : ReadsBack sample.value) :
    Stores Sample.ofJson? sample.toJson sample :=
  stores_record Sample.mk (by decide) (stores_int64 sample.timestamp) (stores_float readsBack)

theorem StringSample.stores (sample : StringSample) :
    Stores StringSample.ofJson? sample.toJson sample :=
  stores_record StringSample.mk (by decide) (stores_int64 sample.timestamp) (stores_text sample.value)

/-! ## Maps -/

/-- A map is stored by its pairs in any order. -/
theorem NameMap.stores {Entry : Type} {item? : Json -> Option Entry} (toJson : Entry -> Json)
    {map : NameMap Entry} {pairs : List (String × Entry)} (samePairs : pairs.Perm map.pairs)
    (stores : forall pair, pair ∈ map.pairs -> Stores item? (toJson pair.2) pair.2) :
    Stores (NameMap.ofJson? item?) (.object (pairs.map fun pair => (pair.1, toJson pair.2))) map := by
  have table := stores_table fun pair isPair => stores pair (samePairs.mem_iff.mp isPair)
  have stored := table.map NameMap.ofPairs
  rw [NameMap.ofPairs_perm samePairs] at stored
  exact stored

theorem LabelSet.stores (labels : LabelSet) :
    Stores LabelSet.ofJson? (LabelSet.toJson labels) labels :=
  NameMap.stores Json.string (List.Perm.refl labels.pairs) fun pair _ => stores_text pair.2

/-! ## Series -/

theorem InstantSample.stores {series : InstantSample} (readsBack : ReadsBack series.sample.value) :
    Stores InstantSample.ofJson? series.toJson series :=
  stores_record InstantSample.mk (by decide) (LabelSet.stores series.metric) (Sample.stores readsBack)

theorem SampleStream.stores {stream : SampleStream}
    (readBack : forall sample, sample ∈ stream.values -> ReadsBack sample.value) :
    Stores SampleStream.ofJson? stream.toJson stream :=
  stores_record SampleStream.mk (by decide) (LabelSet.stores stream.metric)
    (stores_list fun sample isSample => Sample.stores (readBack sample isSample))

/-! ## Results -/

namespace QueryResult

/-- The doubles that a result holds. -/
def doubles : QueryResult -> List Float
  | scalar sample => [sample.value]
  | vector series => series.map fun series => series.sample.value
  | matrix series => series.flatMap fun stream => stream.values.map Sample.value
  | string _ => []

theorem content_stores (result : QueryResult)
    (readBack : forall value, value ∈ result.doubles -> ReadsBack value) :
    Stores (ofContent? result.shape) result.contentToJson result := by
  cases result with
  | scalar sample => exact (Sample.stores (readBack _ List.mem_cons_self)).map scalar
  | vector series =>
      have each (entry : InstantSample) (isEntry : entry ∈ series) :
          Stores InstantSample.ofJson? entry.toJson entry :=
        InstantSample.stores (readBack _ (List.mem_map.mpr ⟨entry, isEntry, rfl⟩))
      exact (stores_list each).map vector
  | matrix series =>
      have each (stream : SampleStream) (isStream : stream ∈ series) :
          Stores SampleStream.ofJson? stream.toJson stream := by
        apply SampleStream.stores
        intro sample isSample
        exact readBack _ (List.mem_flatMap.mpr
          ⟨stream, isStream, List.mem_map.mpr ⟨sample, isSample, rfl⟩⟩)
      exact (stores_list each).map matrix
  | string sample => exact (StringSample.stores sample).map string

theorem shape_reads (shape : Shape) : Shape.ofJson? (.string shape.name) = some shape := by
  cases shape <;> rfl

/-- A result is stored with the name of its shape before its content, so the content is never held. -/
theorem storesAt (depth : Nat) {result : QueryResult}
    (readBack : forall value, value ∈ result.doubles -> ReadsBack value) :
    Stores (ofJsonAt? depth) result.toJson result where
  writable := ⟨trivial, (result.content_stores readBack).writable, trivial⟩
  reads := by
    have fields : record? ["resultType", "result"] result.toJson =
        some [some (.string result.shape.name), some result.contentToJson] :=
      record?_pair (by decide) _ _
    have tagFirst : comesFirst "result" "resultType"
        [("resultType", .string result.shape.name), ("result", result.contentToJson)] = false := rfl
    unfold ofJsonAt?
    rw [fields]
    dsimp only
    rw [shape_reads]
    change (if comesFirst "result" "resultType" [("resultType", .string result.shape.name),
        ("result", result.contentToJson)] && !canBeHeld (depth + 1) result.contentToJson then none
      else ofContent? result.shape result.contentToJson) = some result
    rw [tagFirst]
    exact (result.content_stores readBack).reads

theorem stores {result : QueryResult}
    (readBack : forall value, value ∈ result.doubles -> ReadsBack value) :
    Stores ofJson? result.toJson result :=
  storesAt 0 readBack

end QueryResult

/-! ## Fixtures -/

namespace Fixture

/-- The doubles that the results of a fixture hold. -/
def doubles (fixture : Fixture) : List Float :=
  (fixture.instant.pairs ++ fixture.range.pairs).flatMap fun pair => pair.2.doubles

/-- An order in which the tables of a fixture are gone through. -/
structure Order (fixture : Fixture) where
  labelValues : List (String × List String)
  instant : List (String × QueryResult)
  range : List (String × QueryResult)
  ofLabelValues : labelValues.Perm fixture.labelValues.pairs
  ofInstant : instant.Perm fixture.instant.pairs
  ofRange : range.Perm fixture.range.pairs

/-- The order of the names. -/
def ascending (fixture : Fixture) : fixture.Order where
  labelValues := fixture.labelValues.pairs
  instant := fixture.instant.pairs
  range := fixture.range.pairs
  ofLabelValues := List.Perm.refl _
  ofInstant := List.Perm.refl _
  ofRange := List.Perm.refl _

/-- The stored form of a fixture whose tables are written in an order. -/
def Order.toJson {fixture : Fixture} (order : fixture.Order) : Json :=
  .object [
    ("label_values", .object (order.labelValues.map fun pair =>
      (pair.1, .array (pair.2.map Json.string)))),
    ("series", .array (fixture.series.map LabelSet.toJson)),
    ("instant", .object (order.instant.map fun pair => (pair.1, pair.2.toJson))),
    ("range", .object (order.range.map fun pair => (pair.1, pair.2.toJson)))]

/-- The writer goes through the tables in the order of the names. -/
theorem ascending_toJson (fixture : Fixture) : fixture.ascending.toJson = fixture.toJson := rfl

/-- A fixture is stored by its tables in any order. -/
theorem Order.stores {fixture : Fixture} (order : fixture.Order)
    (readBack : forall value, value ∈ fixture.doubles -> ReadsBack value) :
    Stores Fixture.ofJson? order.toJson fixture := by
  have texts (values : List String) :
      Stores (list? text?) (.array (values.map Json.string)) values :=
    stores_list fun value _ => stores_text value
  have labelValues := NameMap.stores (fun values => .array (values.map Json.string))
    order.ofLabelValues fun pair _ => texts pair.2
  have series := stores_list fun labels (_ : labels ∈ fixture.series) => LabelSet.stores labels
  have instant := NameMap.stores QueryResult.toJson order.ofInstant fun pair isPair =>
    QueryResult.storesAt 2 fun value isValue => readBack value
      (List.mem_flatMap.mpr ⟨pair, List.mem_append_left _ isPair, isValue⟩)
  have range := NameMap.stores QueryResult.toJson order.ofRange fun pair isPair =>
    QueryResult.storesAt 2 fun value isValue => readBack value
      (List.mem_flatMap.mpr ⟨pair, List.mem_append_right _ isPair, isValue⟩)
  have distinct : ["label_values", "series", "instant", "range"].Nodup := by decide
  refine ⟨⟨labelValues.writable, series.writable, instant.writable, range.writable, trivial⟩, ?_⟩
  have fields : record? ["label_values", "series", "instant", "range"] order.toJson = some [
      some (.object (order.labelValues.map fun pair => (pair.1, .array (pair.2.map Json.string)))),
      some (.array (fixture.series.map LabelSet.toJson)),
      some (.object (order.instant.map fun pair => (pair.1, pair.2.toJson))),
      some (.object (order.range.map fun pair => (pair.1, pair.2.toJson)))] :=
    record?_object distinct
  unfold Fixture.ofJson?
  rw [fields]
  dsimp only [fieldOr]
  rw [labelValues.reads, series.reads, instant.reads, range.reads]
  rfl

end Fixture
end QueryFederation

import QueryFederation.Proofs.Json.Records
import QueryFederation.Proofs.Time.Timestamps
import QueryFederation.Series.Document

/-!
# Time ranges that are stored

A time range is read back from the document that its writer makes, whatever its ends and its step are.
Its ends are written as dates and times of day in UTC, each as one text.  Its step is written in seconds
and nanoseconds, and since fewer than a whole second of nanoseconds is written, nothing is carried over
when they are read.
-/

namespace QueryFederation

open Json (Stores stores_nat text? natBelow? natBelow?_ofNat record? record?_object record?_pair
  closedRecord?)

theorem Instant.stores (instant : Instant) : Stores Instant.ofJson? instant.toJson instant where
  writable := trivial
  reads := by
    rw [Instant.ofJson?, Instant.toJson, text?, Option.bind_some, String.toList_ofList,
      Timestamp.lenient?_write]

theorem Duration.stores (duration : Duration) : Stores Duration.ofJson? duration.toJson duration where
  writable :=
    ⟨(stores_nat duration.seconds_lt).writable, (stores_nat duration.nanos_lt).writable, trivial⟩
  reads := by
    have nanos : duration.nanos < Nat.pow 2 32 := Nat.lt_trans duration.nanos_lt (by decide)
    have fields : closedRecord? ["secs", "nanos"] duration.toJson =
        some [some (.ofNat duration.seconds), some (.ofNat duration.nanos)] :=
      record?_pair (by decide) _ _
    unfold Duration.ofJson?
    rw [fields]
    dsimp only
    rw [natBelow?_ofNat duration.seconds_lt, natBelow?_ofNat nanos]
    exact duration.ofParts?_parts

theorem QueryRange.stores (range : QueryRange) :
    Stores QueryRange.ofJson? range.toJson range where
  writable :=
    ⟨range.start.stores.writable, range.stop.stores.writable, range.step.stores.writable, trivial⟩
  reads := by
    have distinct : ["start", "end", "step"].Nodup := by decide
    have fields : record? ["start", "end", "step"] range.toJson =
        some [some range.start.toJson, some range.stop.toJson, some range.step.toJson] :=
      record?_object distinct
    unfold QueryRange.ofJson?
    rw [fields]
    dsimp only
    rw [range.start.stores.reads, range.stop.stores.reads, range.step.stores.reads]
    rfl

/-- Every time range is read back from each text of its document. -/
theorem range_reloads (range : QueryRange) :
    (Json.parse? range.toJson.compact).bind QueryRange.ofJson? = some range ∧
      (Json.parse? range.toJson.indented).bind QueryRange.ofJson? = some range :=
  ⟨range.stores.ofLayout List.mem_cons_self,
    range.stores.ofLayout (List.mem_cons_of_mem _ List.mem_cons_self)⟩

end QueryFederation

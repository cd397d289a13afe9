import QueryFederation.Config.Loading
import QueryFederation.Files.Tree
import QueryFederation.Proofs.Federation.Verdict
import QueryFederation.Proofs.Series.Stored

/-!
# Snapshots that are written and loaded again

A result is read back from either layout of its text, and so is a snapshot, in whatever order its tables
are written.  A backend with a snapshot that is loaded from such a file therefore cannot be told from the
one with the snapshot that was written: every operation is answered alike, cancelled or not.

The only thing asked of a result or a snapshot is that each of its doubles is read back from its own
text.  The claim for a file is about what stands at its path, not about how it came there.
-/

namespace QueryFederation

open Json (ReadsBack)

theorem FileSystem.read_of_find {system : FileSystem} {path text : String}
    (stands : system.find path = .ok (.file text.toUTF8)) : system.access.read path = .ok text := by
  have decodes : String.fromUTF8? text.toUTF8 = some text := by
    rw [String.fromUTF8?, String.toUTF8_eq_toByteArray, dif_pos text.isValidUTF8]
    rfl
  change system.read path = .ok text
  rw [read, stands]
  dsimp only
  rw [decodes]

namespace Fixture

/-- A snapshot is loaded from a file that holds one of its texts. -/
theorem load_of_layout {fixture : Fixture}
    (readBack : forall value, value ∈ fixture.doubles -> ReadsBack value) {order : fixture.Order}
    {text : String} (isLayout : text ∈ order.toJson.layouts) {system : FileSystem} {path : String}
    (stands : system.find path = .ok (.file text.toUTF8)) :
    load system.access path = .ok fixture := by
  have loaded : ofFile path text = .ok fixture := by
    rw [ofFile, (order.stores readBack).ofLayout isLayout]
  rw [load, FileSystem.read_of_find stands]
  exact loaded

end Fixture

/-- Results are read back from their texts, and snapshots from theirs, whichever order their tables are
written in; and a backend with a snapshot that is loaded from such a file answers every operation as the
one with the snapshot that was written. -/
theorem results_and_snapshots_reload :
    (forall result : QueryResult, (forall value, value ∈ result.doubles -> ReadsBack value) ->
      forall text, text ∈ result.toJson.layouts ->
        (Json.parse? text).bind QueryResult.ofJson? = some result) ∧
    forall fixture : Fixture, (forall value, value ∈ fixture.doubles -> ReadsBack value) ->
      forall (order : fixture.Order) (text : String), text ∈ order.toJson.layouts ->
        (Json.parse? text).bind Fixture.ofJson? = some fixture ∧
        forall (system : FileSystem) (path : String),
          system.find path = .ok (.file text.toUTF8) ->
          exists loaded, Fixture.load system.access path = .ok loaded ∧
            forall (name : String) (operation : ReadOperation) (cancel : Option Cancellation),
              (Backend.fixture name loaded).call operation.request cancel =
                (Backend.fixture name fixture).call operation.request cancel := by
  constructor
  · intro result readBack text isLayout
    exact (QueryResult.stores readBack).ofLayout isLayout
  · intro fixture readBack order text isLayout
    refine ⟨(order.stores readBack).ofLayout isLayout, ?_⟩
    intro system path stands
    exact ⟨fixture, Fixture.load_of_layout readBack isLayout stands, fun _ _ _ => rfl⟩

/-- Both ends of the timestamps, a negative zero, and a label that holds a quote, a line break and a
character beyond the first plane, as a result by itself and in a snapshot behind a file. -/
theorem results_and_snapshots_reload_extremes :
    let labels : LabelSet := NameMap.empty.insert "\"\n" "\u0000\\é😀"
    let result : QueryResult :=
      .matrix [⟨labels, [⟨Int64.minValue, 1.5⟩, ⟨Int64.maxValue, -0.0⟩]⟩]
    let snapshot : Fixture := { Fixture.empty with instant := NameMap.empty.insert "up" result }
    let text := snapshot.toJson.indented
    let system : FileSystem := ⟨.directory [("a.json", .file text.toUTF8)], []⟩
    (forall value, value ∈ result.doubles -> ReadsBack value) ∧
      (Json.parse? result.toJson.compact).bind QueryResult.ofJson? = some result ∧
      system.find "a.json" = .ok (.file text.toUTF8) ∧
      exists loaded, Fixture.load system.access "a.json" = .ok loaded ∧
        ((Backend.fixture "a" loaded).call (Request.query "up") none).ending =
          .returned (.ok result) := by
  intro labels result snapshot text system
  have readBack : forall value, value ∈ result.doubles -> ReadsBack value := by
    change forall value, value ∈ [1.5, -0.0] -> ReadsBack value
    decide +kernel
  have readBackAll : forall value, value ∈ snapshot.doubles -> ReadsBack value := readBack
  have stands : system.find "a.json" = .ok (.file text.toUTF8) := rfl
  have isLayout : text ∈ snapshot.ascending.toJson.layouts := by
    rw [snapshot.ascending_toJson]
    exact List.mem_cons_of_mem _ List.mem_cons_self
  have alone := results_and_snapshots_reload.1 result readBack _ List.mem_cons_self
  have behindFile := (results_and_snapshots_reload.2 snapshot readBackAll snapshot.ascending text
    isLayout).2 system "a.json" stands
  rcases behindFile with ⟨loaded, loads, alike⟩
  exact ⟨readBack, alone, stands, loaded, loads,
    congrArg Answered.ending (alike "a" (.query "up") none)⟩

end QueryFederation

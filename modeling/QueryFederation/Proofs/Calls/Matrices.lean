import QueryFederation.Proofs.Federation.Sessions
import QueryFederation.Proofs.Merge.Spacing

/-!
# Matrices that federations answer

When the windows of a tree of federations do not grow towards the root, and the leaves answer matrices that
are well-formed for the federations they belong to, the root answers matrices that are well-formed for
its own window.  It does not matter which members fail, what else happens in the course of the call, or
whether a series comes from one member, from several, or through nested federations.
-/

namespace QueryFederation

/-- Whether an outcome, if it is a matrix, is a well-formed one. -/
def IsWellFormedOutcome (window : Duration) (outcome : Except Fault QueryResult) : Prop :=
  forall streams, outcome = .ok (.matrix streams) -> WellFormedMatrix window streams

namespace Backend

mutual

/-- Whether the leaves of a backend below a federation with a window answer well-formed matrices, and no
window is larger than one directly below it. -/
def HasWellFormedLeaves (request : Request QueryResult) (window : Duration) : Backend -> Prop
  | mock scripted => IsWellFormedOutcome window (scripted.outcome request)
  | fixture _ snapshot => IsWellFormedOutcome window (.ok (request.ofFixture snapshot))
  | crashing _ => True
  | federation settings members =>
      window.totalNanos ≤ settings.window.totalNanos ∧
        HaveWellFormedLeaves request settings.window members

/-- Whether this holds of all members of a federation with a window. -/
def HaveWellFormedLeaves (request : Request QueryResult) (window : Duration) : List Backend -> Prop
  | [] => True
  | member :: members =>
      HasWellFormedLeaves request window member ∧ HaveWellFormedLeaves request window members

end

/-- Merging keeps matrices well-formed. -/
theorem mergeResults_wellFormed {window : Duration} {first second merged : QueryResult}
    (firstWellFormed : IsWellFormedOutcome window (.ok first))
    (secondWellFormed : IsWellFormedOutcome window (.ok second))
    (merges : Request.mergeResults window first second = .ok merged) :
    IsWellFormedOutcome window (.ok merged) := by
  intro streams isMatrix
  cases isMatrix
  unfold Request.mergeResults at merges
  cases first <;> cases second <;> cases merges
  rename_i left right
  exact Merge.matrices_wellFormed (firstWellFormed left rfl) (secondWellFormed right rfl).spaced

/-- What a federation answers is well-formed for its window if what its members deliver is. -/
theorem federation_wellFormed (text : String) (range : QueryRange) (cancel : Option Moment)
    (collector : Collector) (start : Moment) (settings : FederationSettings) (members : List Backend)
    (delivered : forall delivery,
      delivery ∈ deliveries (Request.queryRange text range) cancel start 0 members ->
        IsWellFormedOutcome settings.window delivery.outcome)
    {streams : List SampleStream}
    (answered : (answer (Request.queryRange text range) cancel collector start
      (federation settings members)).ending = .returned (.ok (.matrix streams))) :
    WellFormedMatrix settings.window streams := by
  have verdict := Session.ending_eq_verdictOf (Request.queryRange text range)
    ⟨cancel, collector, start, settings, members⟩
  rw [answered] at verdict
  have decided := (Ending.returned.inj verdict).symm
  unfold Progress.verdictOf at decided
  split at decided
  · cases decided
  · split at decided
    · have closed := Verdict.ofOutcomes_of_closed
        (fun result => IsWellFormedOutcome settings.window (.ok result))
        (fun streams isMatrix => by cases isMatrix; exact .nil settings.window)
        mergeResults_wellFormed ?_ decided
      · exact closed streams rfl
      · intro result isOutcome
        rcases List.mem_map.mp isOutcome with ⟨delivery, isDrained, same⟩
        rw [← same]
        exact delivered delivery ((Progress.drained_prefix _ _).subset isDrained)
    · cases decided

mutual

/-- A backend with well-formed leaves answers matrices that are well-formed for the window above. -/
theorem answer_wellFormed (text : String) (range : QueryRange) (cancel : Option Moment)
    (collector : Collector) (start : Moment) (window : Duration) (backend : Backend)
    (leaves : backend.HasWellFormedLeaves (Request.queryRange text range) window) (index : Nat) :
    IsWellFormedOutcome window
      ((backend.answer (Request.queryRange text range) cancel collector start).ending.outcome
        index) := by
  intro streams answered
  cases backend with
  | mock scripted =>
      simp only [answer, Mock.answer] at answered
      split at answered
      · cases answered
      · exact leaves streams answered
  | fixture name snapshot =>
      simp only [answer, Fixture.answer] at answered
      split at answered
      · cases answered
      · exact leaves streams answered
  | crashing message => cases answered
  | federation settings members =>
      have wellFormed := federation_wellFormed text range cancel collector start settings members
        (deliveries_wellFormed text range cancel start 0 settings.window members leaves.2)
        (congrArg Ending.returned answered)
      exact wellFormed.mono leaves.1

theorem deliveries_wellFormed (text : String) (range : QueryRange) (cancel : Option Moment)
    (start : Moment) (index : Nat) (window : Duration) (members : List Backend)
    (leaves : HaveWellFormedLeaves (Request.queryRange text range) window members)
    (delivery : Delivery QueryResult)
    (isDelivery : delivery ∈ deliveries (Request.queryRange text range) cancel start index members) :
    IsWellFormedOutcome window delivery.outcome := by
  cases members with
  | nil => cases isDelivery
  | cons member rest =>
      rcases List.mem_cons.mp isDelivery with rfl | later
      · unfold unitDelivery
        split
        · intro streams cancelled
          cases cancelled
        · exact answer_wellFormed text range cancel .unit start.next.next window member leaves.1 index
      · exact deliveries_wellFormed text range cancel start (index + 1) window rest leaves.2 delivery
          later

end

/-- A federation whose leaves answer well-formed matrices, and whose windows do not grow towards the
root, answers a matrix in which no series appears twice and no two samples of one series are within the
window of the root. -/
theorem matrix_wellFormed_of_call (text : String) (range : QueryRange) (settings : FederationSettings)
    (members : List Backend) (cancel : Option Cancellation)
    (leaves : HaveWellFormedLeaves (Request.queryRange text range) settings.window members)
    {streams : List SampleStream}
    (answered : ((federation settings members).call (Request.queryRange text range) cancel).ending =
      .returned (.ok (.matrix streams))) :
    WellFormedMatrix settings.window streams ∧
      forall stream, stream ∈ streams -> stream.values.Pairwise fun first second =>
        first.timestamp < second.timestamp ∧
          Timestamp64.FollowsApart settings.window first.timestamp second.timestamp := by
  have wellFormed := federation_wellFormed text range _ .caller Moment.callStart settings members
    (deliveries_wellFormed text range _ Moment.callStart 0 settings.window members leaves) answered
  refine ⟨wellFormed, ?_⟩
  intro stream isStream
  exact (wellFormed.spaced stream isStream).pairwise.imp fun apart => ⟨apart.lt, apart⟩

/-- Two replicas of one series, of which the second is behind a federation with a larger window, one
second late. -/
theorem matrix_wellFormed_of_call_replicas :
    let range : QueryRange := ⟨.epoch, .epoch, .zero⟩
    let early : List Sample := [⟨0, 1⟩, ⟨20000, 2⟩]
    let late : List Sample := [⟨1000, 3⟩]
    let replica : List Sample -> Backend := fun values =>
      .mock { Mock.silent "replica" with queryRange := .matrix [⟨.empty, values⟩] }
    let settings : FederationSettings := ⟨Duration.ofSeconds 5, ["a", "b"], true⟩
    let members := [replica early, federation ⟨Duration.ofSeconds 10, ["c"], true⟩ [replica late]]
    HaveWellFormedLeaves (Request.queryRange "up" range) settings.window members ∧
      ((federation settings members).call (Request.queryRange "up" range) none).ending =
        .returned (.ok (.matrix [⟨.empty, early⟩])) ∧
      WellFormedMatrix settings.window [⟨.empty, early⟩] := by
  intro range early late replica settings members
  have earlyWellFormed : WellFormedMatrix (Duration.ofSeconds 5) [⟨.empty, early⟩] := by
    refine ⟨List.nodup_singleton _, ?_⟩
    intro stream isStream
    rw [List.mem_singleton.mp isStream]
    exact .cons_cons (by unfold Timestamp64.FollowsApart; decide) (.singleton _)
  have lateWellFormed : WellFormedMatrix (Duration.ofSeconds 10) [⟨.empty, late⟩] := by
    refine ⟨List.nodup_singleton _, ?_⟩
    intro stream isStream
    rw [List.mem_singleton.mp isStream]
    exact .singleton _
  have leaves : HaveWellFormedLeaves (Request.queryRange "up" range) settings.window members := by
    refine ⟨?_, ⟨by decide, ?_, trivial⟩, trivial⟩
    · intro streams answered
      cases answered
      exact earlyWellFormed
    · intro streams answered
      cases answered
      exact lateWellFormed
  have thinned : Merge.samplesWithin (Merge.windowMillis settings.window) early late = early := by
    decide +kernel
  have merged : ((federation settings members).call (Request.queryRange "up" range) none).ending =
      .returned (.ok (.matrix
        [⟨.empty, Merge.samplesWithin (Merge.windowMillis settings.window) early late⟩])) := rfl
  have answered : ((federation settings members).call (Request.queryRange "up" range) none).ending =
      .returned (.ok (.matrix [⟨.empty, early⟩])) := by
    rw [merged, thinned]
  exact ⟨leaves, answered,
    (matrix_wellFormed_of_call "up" range settings members none leaves answered).1⟩

end Backend
end QueryFederation

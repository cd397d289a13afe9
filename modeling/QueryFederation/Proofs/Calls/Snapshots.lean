import QueryFederation.Proofs.Calls.Uninterrupted
import QueryFederation.Proofs.Federation.Forms
import QueryFederation.Proofs.Merge.Sources

/-!
# Range queries to federations of snapshots

A range query to a tree whose leaves are snapshots is answered with a matrix.  It shows nothing that is not
stored in a leaf under the same label set and inside the range, and it shows every series of which a leaf
stores a sample inside the range.  Neither the windows of the federations nor the shape of the tree matter
for this, although both matter for which samples of a series are shown.
-/

namespace QueryFederation

open Merge

namespace Backend

mutual

/-- The backends without members in a tree, in preorder. -/
def leaves : Backend -> List Backend
  | mock scripted => [mock scripted]
  | fixture name snapshot => [fixture name snapshot]
  | crashing message => [crashing message]
  | federation _ members => leavesOfMembers members

/-- The backends without members below members. -/
def leavesOfMembers : List Backend -> List Backend
  | [] => []
  | member :: members => leaves member ++ leavesOfMembers members

end

theorem mem_leavesOfMembers {leaf : Backend} {members : List Backend} :
    leaf ∈ leavesOfMembers members <-> exists member, member ∈ members ∧ leaf ∈ leaves member := by
  induction members with
  | nil => simp [leavesOfMembers]
  | cons member rest inductionHypothesis =>
      rw [leavesOfMembers, List.mem_append, inductionHypothesis]
      simp only [List.mem_cons, exists_eq_or_imp]

/-- Whether a backend is a snapshot that stores a matrix for a range query, if it stores anything. -/
def StoresMatrix (text : String) (backend : Backend) : Prop :=
  exists name snapshot, backend = fixture name snapshot ∧
    forall result, snapshot.range.get? text = some result -> result.shape = .matrix

/-- Whether a backend is a snapshot that stores a sample of a series for a range query. -/
def StoresSample (text : String) (metric : LabelSet) (sample : Sample) (backend : Backend) : Prop :=
  exists name snapshot streams stream, backend = fixture name snapshot ∧
    snapshot.range.get? text = some (.matrix streams) ∧ stream ∈ streams ∧
      stream.metric = metric ∧ sample ∈ stream.values

/-- The samples that some of the leaves store for a range query inside the range. -/
def storedIn (text : String) (range : QueryRange) (leaves : List Backend) (metric : LabelSet)
    (sample : Sample) : Prop :=
  range.contains sample.timestamp = true ∧
    exists leaf, leaf ∈ leaves ∧ leaf.StoresSample text metric sample

variable {text : String} {range : QueryRange}

theorem storesSample_fixture_iff {name : String} {snapshot : Fixture} {streams : List SampleStream}
    (stored : snapshot.range.get? text = some (.matrix streams)) {metric : LabelSet}
    {sample : Sample} :
    (fixture name snapshot).StoresSample text metric sample <->
      exists stream, stream ∈ streams ∧ stream.metric = metric ∧ sample ∈ stream.values := by
  constructor
  · rintro ⟨_, _, others, stream, same, storedOthers, isStream, sameMetric, isSample⟩
    cases same
    cases stored.symm.trans storedOthers
    exact ⟨stream, isStream, sameMetric, isSample⟩
  · rintro ⟨stream, isStream, sameMetric, isSample⟩
    exact ⟨name, snapshot, streams, stream, rfl, stored, isStream, sameMetric, isSample⟩

/-- Trimming takes from a matrix what lies outside of the range, and nothing else. -/
theorem trim_matrixFrom (range : QueryRange) (streams : List SampleStream) :
    exists trimmed, range.trim (.matrix streams) = .matrix trimmed ∧
      MatrixFrom (fun metric sample => range.contains sample.timestamp = true ∧
        exists stream, stream ∈ streams ∧ stream.metric = metric ∧ sample ∈ stream.values)
        trimmed := by
  refine ⟨_, rfl, ?_⟩
  constructor
  case sound =>
    intro trimmed isTrimmed
    rcases List.mem_filter.mp isTrimmed with ⟨isThere, nonempty⟩
    rcases List.mem_map.mp isThere with ⟨stream, isStream, rfl⟩
    constructor
    · simpa using nonempty
    · intro sample isSample
      rcases List.mem_filter.mp isSample with ⟨isStored, inRange⟩
      exact ⟨inRange, stream, isStream, rfl, isStored⟩
  case complete =>
    rintro metric sample ⟨inRange, stream, isStream, rfl, isSample⟩
    have isKept : sample ∈ stream.values.filter fun sample => range.contains sample.timestamp :=
      List.mem_filter.mpr ⟨isSample, inRange⟩
    apply List.mem_map.mpr
    refine ⟨_, List.mem_filter.mpr ⟨List.mem_map_of_mem isStream, ?_⟩, rfl⟩
    simpa using List.ne_nil_of_mem isKept

theorem rangeResult_matrixFrom (range : QueryRange) {name : String} {snapshot : Fixture}
    (stores : (fixture name snapshot).StoresMatrix text) :
    exists streams, snapshot.rangeResult text range = .matrix streams ∧
      MatrixFrom (storedIn text range [fixture name snapshot]) streams := by
  rcases stores with ⟨_, _, same, onlyMatrix⟩
  cases same
  unfold Fixture.rangeResult
  cases stored : snapshot.range.get? text with
  | none =>
      refine ⟨[], rfl, MatrixFrom.nil.congr fun metric sample => ?_⟩
      constructor
      · exact False.elim
      · rintro ⟨_, leaf, isLeaf, storesSample⟩
        rw [List.mem_singleton.mp isLeaf] at storesSample
        rcases storesSample with ⟨_, _, _, _, same, storedMatrix, _⟩
        cases same
        cases stored.symm.trans storedMatrix
  | some result =>
      have isMatrix := onlyMatrix result stored
      cases result with
      | scalar sample => cases isMatrix
      | vector series => cases isMatrix
      | string sample => cases isMatrix
      | matrix streams =>
          rcases trim_matrixFrom range streams with ⟨trimmed, isTrimmed, ofStreams⟩
          refine ⟨trimmed, isTrimmed, ofStreams.congr fun metric sample => ?_⟩
          unfold storedIn
          simp only [List.mem_singleton, exists_eq_left, storesSample_fixture_iff stored]

/-- What members store is what the leaves below them store. -/
theorem storedIn_leavesOfMembers {members : List Backend} {metric : LabelSet} {sample : Sample} :
    (exists source, source ∈ members.map (fun member => storedIn text range member.leaves) ∧
        source metric sample) <->
      storedIn text range (leavesOfMembers members) metric sample := by
  constructor
  · rintro ⟨_, isSource, stored⟩
    rcases List.mem_map.mp isSource with ⟨member, isMember, rfl⟩
    rcases stored with ⟨inRange, leaf, isLeaf, stores⟩
    exact ⟨inRange, leaf, mem_leavesOfMembers.mpr ⟨member, isMember, isLeaf⟩, stores⟩
  · rintro ⟨inRange, leaf, isLeaf, stores⟩
    rcases mem_leavesOfMembers.mp isLeaf with ⟨member, isMember, isBelow⟩
    exact ⟨_, List.mem_map_of_mem isMember, inRange, leaf, isBelow, stores⟩

theorem answers_map_ok {Answer : Type} (answers : List Answer) :
    Verdict.answers (answers.map fun answer => (.ok answer : Except Fault Answer)) = answers := by
  induction answers with
  | nil => rfl
  | cons answer rest inductionHypothesis =>
      rw [List.map_cons, Verdict.answers, inductionHypothesis]

mutual

/-- A tree of snapshots ends with a matrix from its leaves. -/
theorem ending_matrixFrom (range : QueryRange) (backend : Backend)
    (snapshots : forall leaf, leaf ∈ backend.leaves -> leaf.StoresMatrix text) :
    exists streams, (backend.respondent (Request.queryRange text range)).ending
        (Request.queryRange text range) = .returned (.ok (.matrix streams)) ∧
      MatrixFrom (storedIn text range backend.leaves) streams := by
  cases backend with
  | mock scripted =>
      rcases snapshots _ List.mem_cons_self with ⟨_, _, impossible, _⟩
      cases impossible
  | crashing message =>
      rcases snapshots _ List.mem_cons_self with ⟨_, _, impossible, _⟩
      cases impossible
  | fixture name snapshot =>
      rcases rangeResult_matrixFrom range (snapshots _ List.mem_cons_self) with
        ⟨streams, answered, ofLeaf⟩
      exact ⟨streams, congrArg (fun result => Ending.returned (.ok result)) answered, ofLeaf⟩
  | federation settings members =>
      rcases outcomes_matrixFrom range members snapshots 0 with ⟨partials, answered, ofMembers⟩
      have merges := (Request.queryRange_mergesResults text range).mergesAs .matrix settings.window
      have answers := answers_map_ok (partials.map QueryResult.matrix)
      rw [respondent, Respondent.ending, answered]
      cases sum : running (matrices (windowMillis settings.window)) partials with
      | some merged =>
          rw [merges.ofOutcomes_eq answers sum]
          refine ⟨merged, rfl, (MatrixFrom.running ofMembers sum).congr ?_⟩
          exact fun metric sample => storedIn_leavesOfMembers
      | none =>
          -- Nothing is merged only when there is nobody to ask.
          cases running_eq_none_iff.mp sum
          have nobody := List.map_eq_nil_iff.mp (List.forall₂_nil_right_iff.mp ofMembers)
          rw [nobody]
          refine ⟨[], rfl, MatrixFrom.nil.congr fun metric sample => ?_⟩
          simp [leaves, leavesOfMembers, storedIn]

theorem outcomes_matrixFrom (range : QueryRange) (members : List Backend)
    (snapshots : forall leaf, leaf ∈ leavesOfMembers members -> leaf.StoresMatrix text)
    (index : Nat) :
    exists partials : List (List SampleStream),
      Respondent.outcomesFrom (Request.queryRange text range) index
          (respondents (Request.queryRange text range) members) =
        (partials.map QueryResult.matrix).map .ok ∧
      List.Forall₂ MatrixFrom (members.map fun member => storedIn text range member.leaves)
        partials := by
  cases members with
  | nil => exact ⟨[], rfl, .nil⟩
  | cons member rest =>
      rw [leavesOfMembers] at snapshots
      rcases ending_matrixFrom range member
        (fun leaf isLeaf => snapshots leaf (List.mem_append_left _ isLeaf)) with
        ⟨streams, ends, ofMember⟩
      rcases outcomes_matrixFrom range rest
        (fun leaf isLeaf => snapshots leaf (List.mem_append_right _ isLeaf)) (index + 1) with
        ⟨partials, outcomes, ofRest⟩
      refine ⟨streams :: partials, ?_, .cons ofMember ofRest⟩
      rw [respondents, Respondent.outcomesFrom, ends, outcomes]
      rfl

end

/-- A range query to a tree of snapshots, asked in whatever order and not withdrawn, is answered with a
matrix that shows nothing but stored samples inside the range, each under its label set, and every
series of which there is one. -/
theorem queryRange_of_snapshots (text : String) (range : QueryRange) (backend : Backend)
    (snapshots : forall leaf, leaf ∈ backend.leaves -> leaf.StoresMatrix text) :
    let request := Request.queryRange text range
    exists streams, (backend.respondent request).EndsWith request (.ok (.matrix streams)) ∧
      (forall stream, stream ∈ streams -> stream.values ≠ [] ∧
        forall sample, sample ∈ stream.values ->
          range.start.millis ≤ sample.timestamp.toInt ∧
            sample.timestamp.toInt ≤ range.stop.millis ∧
            exists leaf, leaf ∈ backend.leaves ∧ leaf.StoresSample text stream.metric sample) ∧
      forall metric, metric ∈ streams.map SampleStream.metric <->
        exists leaf sample, leaf ∈ backend.leaves ∧ leaf.StoresSample text metric sample ∧
          range.start.millis ≤ sample.timestamp.toInt ∧
            sample.timestamp.toInt ≤ range.stop.millis := by
  intro request
  have inRange_iff : forall time : Timestamp64, range.contains time = true <->
      range.start.millis ≤ time.toInt ∧ time.toInt ≤ range.stop.millis :=
    fun time => decide_eq_true_iff
  rcases ending_matrixFrom range backend snapshots with ⟨streams, ends, ofLeaves⟩
  refine ⟨streams, Respondent.endsWith_of_ending ends, ?_, ?_⟩
  · intro stream isStream
    have sound := ofLeaves.sound stream isStream
    refine ⟨sound.nonempty, ?_⟩
    intro sample isSample
    rcases sound.ofSource sample isSample with ⟨inRange, stored⟩
    rcases (inRange_iff sample.timestamp).mp inRange with ⟨fromStart, toStop⟩
    exact ⟨fromStart, toStop, stored⟩
  · intro metric
    constructor
    · intro isShown
      rcases List.mem_map.mp isShown with ⟨stream, isStream, rfl⟩
      have sound := ofLeaves.sound stream isStream
      rcases List.exists_mem_of_ne_nil _ sound.nonempty with ⟨sample, isSample⟩
      rcases sound.ofSource sample isSample with ⟨inRange, leaf, isLeaf, stores⟩
      exact ⟨leaf, sample, isLeaf, stores, (inRange_iff sample.timestamp).mp inRange⟩
    · rintro ⟨leaf, sample, isLeaf, stores, inRange⟩
      exact ofLeaves.complete metric sample
        ⟨(inRange_iff sample.timestamp).mpr inRange, leaf, isLeaf, stores⟩

/-- A snapshot with two samples, one of them outside of the range, beside a federation of one that knows
nothing. -/
theorem queryRange_of_snapshots_pair :
    let range : QueryRange := ⟨.epoch, .epoch, .zero⟩
    let held : SampleStream := ⟨.empty, [⟨0, 1⟩, ⟨5000, 2⟩]⟩
    let table : NameMap QueryResult := ⟨[("up", .matrix [held])], List.pairwise_singleton _ _⟩
    let known : Backend := fixture "a" { Fixture.empty with range := table }
    let settings : FederationSettings := ⟨Duration.zero, [], true⟩
    let tree := federation settings [known, federation settings [fixture "b" Fixture.empty]]
    (forall leaf, leaf ∈ tree.leaves -> leaf.StoresMatrix "up") ∧
      exists streams, (tree.call (Request.queryRange "up" range) none).ending =
          .returned (.ok (.matrix streams)) ∧ held.metric ∈ streams.map SampleStream.metric := by
  intro range held table known settings tree
  have stored : table.get? "up" = some (.matrix [held]) := rfl
  have snapshots : forall leaf, leaf ∈ tree.leaves -> leaf.StoresMatrix "up" := by
    change forall leaf, leaf ∈ [known, fixture "b" Fixture.empty] -> leaf.StoresMatrix "up"
    simp only [List.forall_mem_cons]
    refine ⟨⟨_, _, rfl, ?_⟩, ⟨_, _, rfl, fun _ nothing => nomatch nothing⟩, nofun⟩
    intro result isResult
    cases stored.symm.trans isResult
    rfl
  rcases queryRange_of_snapshots "up" range tree snapshots with ⟨streams, ends, _, shown⟩
  have stores : known.StoresSample "up" held.metric ⟨0, 1⟩ :=
    ⟨_, _, _, held, rfl, stored, List.mem_cons_self, rfl, List.mem_cons_self⟩
  refine ⟨snapshots, streams, (ends.inCalls tree rfl).1, (shown held.metric).mpr ?_⟩
  exact ⟨known, ⟨0, 1⟩, List.mem_cons_self, stores, by decide, by decide⟩

end Backend
end QueryFederation

import QueryFederation.Proofs.Merge.Running
import QueryFederation.Proofs.Merge.Streams
import QueryFederation.Proofs.Merge.Thinning

/-!
# Where the samples of a merged matrix come from

A merged matrix holds samples of the matrices that it is merged from and no others, each in a series with
the label set under which it was held before.  Samples get lost on the way, but no series does: a series
with samples keeps at least the first of them.

Nothing is assumed of the matrices.  Their series may be repeated, and their samples need not be in order.
-/

namespace QueryFederation
namespace Merge

variable {window : Int}

/-! ## Samples -/

theorem thinAfter_sublist (window : Int) (last : Timestamp64) (samples : List Sample) :
    (thinAfter window last samples).Sublist samples := by
  induction samples generalizing last with
  | nil => exact .slnil
  | cons sample rest inductionHypothesis =>
      rw [thinAfter]
      split
      · exact (inductionHypothesis last).cons sample
      · exact (inductionHypothesis sample.timestamp).cons_cons sample

theorem mem_of_mem_samplesWithin {sample : Sample} {first second : List Sample}
    (isKept : sample ∈ samplesWithin window first second) : sample ∈ first ∨ sample ∈ second := by
  apply mem_interleave.mp
  unfold samplesWithin at isKept
  cases walk : interleave first second with
  | nil =>
      rw [walk] at isKept
      cases isKept
  | cons earliest rest =>
      rw [walk] at isKept
      exact ((thinAfter_sublist window earliest.timestamp rest).cons_cons earliest).subset isKept

/-- The earliest sample is always kept. -/
theorem samplesWithin_ne_nil {first second : List Sample} (nonempty : second ≠ []) :
    samplesWithin window first second ≠ [] := by
  have walked : interleave first second ≠ [] := by
    intro none
    have lengths := (interleave_perm first second).length_eq
    rw [none, List.length_append] at lengths
    exact nonempty (List.length_eq_zero_iff.mp (Nat.eq_zero_of_add_eq_zero_left lengths.symm))
  unfold samplesWithin
  cases walk : interleave first second with
  | nil => exact absurd walk walked
  | cons earliest rest => exact List.cons_ne_nil _ _

/-! ## Series -/

/-- That a series has samples, all of them from a source. -/
structure StreamFrom (source : LabelSet -> Sample -> Prop) (stream : SampleStream) : Prop where
  nonempty : stream.values ≠ []
  ofSource : forall sample, sample ∈ stream.values -> source stream.metric sample

/-- That a matrix holds samples from a source only, and every series of which the source has a sample. -/
structure MatrixFrom (source : LabelSet -> Sample -> Prop) (streams : List SampleStream) : Prop where
  sound : forall stream, stream ∈ streams -> StreamFrom source stream
  complete : forall metric sample, source metric sample -> metric ∈ streams.map SampleStream.metric

variable {source other : LabelSet -> Sample -> Prop}

theorem StreamFrom.mono (wider : forall metric sample, source metric sample -> other metric sample)
    {stream : SampleStream} (ofSource : StreamFrom source stream) : StreamFrom other stream :=
  ⟨ofSource.nonempty, fun sample isSample => wider _ _ (ofSource.ofSource sample isSample)⟩

theorem absorb?_streamFrom {metric : LabelSet} {values : List Sample}
    {streams absorbed : List SampleStream}
    (absorbs : absorb? window metric values streams = some absorbed)
    (incoming : StreamFrom source ⟨metric, values⟩)
    (held : forall stream, stream ∈ streams -> StreamFrom source stream) :
    forall stream, stream ∈ absorbed -> StreamFrom source stream := by
  induction streams generalizing absorbed with
  | nil => cases absorbs
  | cons first rest inductionHypothesis =>
      rw [List.forall_mem_cons] at held
      rw [absorb?] at absorbs
      cases later : absorb? window metric values rest with
      | some absorbedLater =>
          rw [later] at absorbs
          cases absorbs
          rw [List.forall_mem_cons]
          exact ⟨held.1, inductionHypothesis later held.2⟩
      | none =>
          rw [later] at absorbs
          dsimp only at absorbs
          split at absorbs
          · rename_i same
            cases absorbs
            rw [List.forall_mem_cons]
            refine ⟨⟨samplesWithin_ne_nil incoming.nonempty, ?_⟩, held.2⟩
            intro sample isSample
            rcases mem_of_mem_samplesWithin isSample with wasHeld | isIncoming
            · exact held.1.ofSource sample wasHeld
            · exact same ▸ incoming.ofSource sample isIncoming
          · cases absorbs

theorem addStream_streamFrom {merged : List SampleStream} {incoming : SampleStream}
    (isFrom : StreamFrom source incoming)
    (held : forall stream, stream ∈ merged -> StreamFrom source stream) :
    forall stream, stream ∈ addStream window merged incoming -> StreamFrom source stream := by
  unfold addStream
  cases absorbs : absorb? window incoming.metric incoming.values merged with
  | some absorbed => exact absorb?_streamFrom absorbs isFrom held
  | none =>
      intro stream isStream
      rw [Option.getD_none, List.mem_append, List.mem_singleton] at isStream
      rcases isStream with wasHeld | rfl
      · exact held stream wasHeld
      · exact isFrom

theorem mem_metrics_addStream {metric : LabelSet} {merged : List SampleStream}
    {incoming : SampleStream} :
    metric ∈ (addStream window merged incoming).map SampleStream.metric <->
      metric ∈ merged.map SampleStream.metric ∨ metric = incoming.metric := by
  rw [addStream_metrics]
  split
  · rename_i held
    constructor
    · exact .inl
    · rintro (wasHeld | rfl)
      · exact wasHeld
      · exact held
  · rw [List.mem_append, List.mem_singleton]

/-- The label sets of a merged matrix are those of both. -/
theorem mem_metrics_matrices {metric : LabelSet} {first second : List SampleStream} :
    metric ∈ (matrices window first second).map SampleStream.metric <->
      metric ∈ first.map SampleStream.metric ∨ metric ∈ second.map SampleStream.metric := by
  unfold matrices
  induction second generalizing first with
  | nil => simp
  | cons incoming rest inductionHypothesis =>
      rw [List.foldl_cons, inductionHypothesis, mem_metrics_addStream, List.map_cons, List.mem_cons,
        or_assoc]

theorem matrices_streamFrom {first second : List SampleStream}
    (ofFirst : forall stream, stream ∈ first -> StreamFrom source stream)
    (ofSecond : forall stream, stream ∈ second -> StreamFrom source stream) :
    forall stream, stream ∈ matrices window first second -> StreamFrom source stream := by
  unfold matrices
  induction second generalizing first with
  | nil => exact ofFirst
  | cons incoming rest inductionHypothesis =>
      rw [List.forall_mem_cons] at ofSecond
      exact inductionHypothesis (addStream_streamFrom ofSecond.1 ofFirst) ofSecond.2

/-! ## Matrices -/

namespace MatrixFrom

theorem nil : MatrixFrom (fun _ _ => False) [] where
  sound := fun _ isStream => nomatch isStream
  complete := fun _ _ impossible => False.elim impossible

theorem congr {streams : List SampleStream} (ofSource : MatrixFrom source streams)
    (same : forall metric sample, source metric sample <-> other metric sample) :
    MatrixFrom other streams where
  sound := fun stream isStream =>
    (ofSource.sound stream isStream).mono fun metric sample => (same metric sample).mp
  complete := fun metric sample isOther =>
    ofSource.complete metric sample ((same metric sample).mpr isOther)

/-- What is merged from two sources is from both of them together. -/
theorem matrices {first second : List SampleStream} (ofFirst : MatrixFrom source first)
    (ofSecond : MatrixFrom other second) :
    MatrixFrom (fun metric sample => source metric sample ∨ other metric sample)
      (matrices window first second) := by
  constructor
  case sound =>
    apply matrices_streamFrom
    · exact fun stream isStream => (ofFirst.sound stream isStream).mono fun _ _ => .inl
    · exact fun stream isStream => (ofSecond.sound stream isStream).mono fun _ _ => .inr
  case complete =>
    intro metric sample isFrom
    rw [mem_metrics_matrices]
    exact isFrom.imp (ofFirst.complete metric sample) (ofSecond.complete metric sample)

/-- What is merged from many sources is from all of them together. -/
theorem running {sources : List (LabelSet -> Sample -> Prop)} {partials : List (List SampleStream)}
    (ofSources : List.Forall₂ MatrixFrom sources partials) {merged : List SampleStream}
    (isMerged : running (Merge.matrices window) partials = some merged) :
    MatrixFrom (fun metric sample => exists source, source ∈ sources ∧ source metric sample)
      merged := by
  cases ofSources with
  | nil => cases isMerged
  | @cons source first sources rest ofFirst ofRest =>
      rw [← Option.some.inj isMerged]
      clear isMerged
      induction ofRest generalizing source first with
      | nil =>
          refine ofFirst.congr fun metric sample => ?_
          simp
      | @cons next second sources rest ofSecond _ inductionHypothesis =>
          refine (inductionHypothesis (ofFirst.matrices ofSecond)).congr fun metric sample => ?_
          simp [or_assoc]

end MatrixFrom

end Merge
end QueryFederation

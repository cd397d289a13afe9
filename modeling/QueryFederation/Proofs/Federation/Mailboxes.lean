import Mathlib.Order.Lattice.Nat
import QueryFederation.Proofs.Federation.Cancelled

/-!
# Collecting from mailboxes

Whoever collects from mailboxes looks into them in their order.  What comes of it can be said without a
clock.  A mailbox is consulted if no merge of the answers before it fails; the collection takes as long as
the slowest of the consulted mailboxes, and ends with the verdict on them.  The merge function is told how
many merges came before, so it may fail at any of its calls, whatever the answers are.

A cancellation cuts the collection off if it comes before that end, and has no part in it otherwise.  By
then the answers have been merged up to the first mailbox whose outcome was not there yet.  Outcomes behind
that one do not count, although they may have come long before.
-/

namespace QueryFederation

open Verdict

variable {Answer : Type}

/-! ## Merging in turn -/

namespace Verdict

/-- The left fold of answers, if there are any, or the fault of the first merge that fails.  The merge
function is told how many merges came before. -/
def mergingInTurn (merge : Nat -> Answer -> Answer -> Except Fault Answer) :
    List Answer -> Except Fault (Option Answer)
  | [] => .ok none
  | first :: rest =>
      (rest.zipIdx.foldlM (fun merged next => merge next.2 merged next.1) first).map some

variable {merge : Nat -> Answer -> Answer -> Except Fault Answer} {before : List Answer}

theorem mergingInTurn_append_of_error {fault : Fault} (failed : mergingInTurn merge before = .error fault)
    (later : List Answer) : mergingInTurn merge (before ++ later) = .error fault := by
  cases before with
  | nil => cases failed
  | cons first rest =>
      rw [mergingInTurn] at failed
      rw [List.cons_append, mergingInTurn, List.zipIdx_append, List.foldlM_append]
      cases folded : rest.zipIdx.foldlM (fun merged next => merge next.2 merged next.1) first with
      | ok merged =>
          rw [folded] at failed
          cases failed
      | error cause =>
          rw [folded] at failed
          cases failed
          rfl

/-- One answer more is one merge more, unless it is the first answer. -/
theorem mergingInTurn_concat (merge : Nat -> Answer -> Answer -> Except Fault Answer)
    (before : List Answer) (answer : Answer) :
    mergingInTurn merge (before ++ [answer]) =
      (mergingInTurn merge before).bind fun merged =>
        extend (merge (before.length - 1)) merged (.ok answer) := by
  cases before with
  | nil => rfl
  | cons first rest =>
      have alone : [answer].zipIdx (0 + rest.length) = [(answer, rest.length)] := by
        rw [Nat.zero_add]
        rfl
      rw [List.cons_append, mergingInTurn, mergingInTurn, List.zipIdx_append, List.foldlM_append, alone]
      cases rest.zipIdx.foldlM (fun merged next => merge next.2 merged next.1) first with
      | error fault => rfl
      | ok merged =>
          rw [List.length_cons, Nat.add_sub_cancel]
          change ([(answer, rest.length)].foldlM (fun merged next => merge next.2 merged next.1)
            merged).map some = (merge rest.length merged answer).map some
          rw [List.foldlM_cons]
          cases merge rest.length merged answer <;> rfl

theorem mergingInTurn_eq_none_iff : mergingInTurn merge before = .ok none <-> before = [] := by
  cases before with
  | nil => exact ⟨fun _ => rfl, fun _ => rfl⟩
  | cons first rest =>
      rw [mergingInTurn]
      cases rest.zipIdx.foldlM (fun merged next => merge next.2 merged next.1) first <;>
        simp [Except.map]

end Verdict

/-! ## Cancellations and waits -/

namespace Cancellation

/-- Whether a cancellation comes before a wait is over. -/
def Precedes : Cancellation -> WithTop Nat -> Prop
  | upFront, _ => True
  | after millis, wait => WithTop.some millis < wait

/-- Whether a wait is over when a cancellation comes. -/
def follows : Cancellation -> WithTop Nat -> Bool
  | upFront, _ => false
  | after millis, wait => decide (wait < WithTop.some millis)

theorem follows_after_iff {millis : Nat} {wait : WithTop Nat} :
    (after millis).follows wait = true <-> wait < WithTop.some millis :=
  decide_eq_true_iff

/-- No cancellation comes late enough for what never comes. -/
theorem follows_top (cancellation : Cancellation) : cancellation.follows ⊤ = false := by
  cases cancellation with
  | upFront => rfl
  | after millis =>
      have notOver : ¬ ⊤ < WithTop.some millis := not_top_lt
      exact decide_eq_false notOver

end Cancellation

/-! ## What mailboxes come to -/

namespace Mailbox

/-- How long an outcome is waited for.  That nobody is left to deliver is known at once. -/
def wait : Mailbox Answer -> WithTop Nat
  | delivered timer _ => WithTop.some (timer.getD 0)
  | dropped => WithTop.some 0
  | pending => ⊤

/-- How long the slowest of some mailboxes is waited for. -/
def longestWait (mailboxes : List (Mailbox Answer)) : WithTop Nat :=
  (mailboxes.map wait).foldl max (WithTop.some 0)

/-- The outcome that a mailbox stands for at an index, if any ever comes. -/
def outcome? (index : Nat) : Mailbox Answer -> Option (Except Fault Answer)
  | delivered _ outcome => some outcome
  | dropped => some (.error (.backend (.fellSilent index)))
  | pending => none

/-- The outcomes that come, in the order of the mailboxes. -/
def outcomes (mailboxes : List (Mailbox Answer)) : List (Except Fault Answer) :=
  mailboxes.zipIdx.filterMap fun numbered => numbered.1.outcome? numbered.2

/-- Whether a merge fails among what comes of mailboxes. -/
def breaks (merge : Nat -> Answer -> Answer -> Except Fault Answer)
    (mailboxes : List (Mailbox Answer)) : Bool :=
  match mergingInTurn merge (answers (outcomes mailboxes)) with
  | .ok _ => false
  | .error _ => true

/-- The mailboxes up to and including the one whose answer cannot be merged, or all if there is none. -/
def consulted (merge : Nat -> Answer -> Answer -> Except Fault Answer)
    (mailboxes : List (Mailbox Answer)) : List (Mailbox Answer) :=
  mailboxes.take (firstBreak (breaks merge) mailboxes)

/-- What the outcomes of mailboxes come to: the fault of a merge that fails, or the merged answer, or a
total failure for the last fault, or the empty answer when nothing comes at all. -/
def verdict (merge : Nat -> Answer -> Answer -> Except Fault Answer) (empty : Answer)
    (mailboxes : List (Mailbox Answer)) : Except Fault Answer :=
  match mergingInTurn merge (answers (outcomes mailboxes)), (faults (outcomes mailboxes)).getLast? with
  | .error fault, _ => .error fault
  | .ok (some merged), _ => .ok merged
  | .ok none, some last => .error (.allBackendsFailed last)
  | .ok none, none => .ok empty

/-- The mailboxes before the first one that is still waited for when a cancellation comes. -/
def waitedFor (cancellation : Cancellation) (mailboxes : List (Mailbox Answer)) : List (Mailbox Answer) :=
  mailboxes.takeWhile fun mailbox => cancellation.follows mailbox.wait

/-- The merges of a collection: each answer is merged but the first. -/
def mergesOf (mailboxes : List (Mailbox Answer)) : Nat :=
  (answers (outcomes mailboxes)).length - 1

section Consulted

variable {merge : Nat -> Answer -> Answer -> Except Fault Answer}
  {taken later mailboxes : List (Mailbox Answer)} {mailbox : Mailbox Answer}

theorem longestWait_concat (taken : List (Mailbox Answer)) (mailbox : Mailbox Answer) :
    longestWait (taken ++ [mailbox]) = max (longestWait taken) mailbox.wait := by
  rw [longestWait, List.map_append, List.foldl_append]
  rfl

theorem wait_le_longestWait (isThere : mailbox ∈ mailboxes) : mailbox.wait ≤ longestWait mailboxes := by
  induction mailboxes using List.reverseRecOn with
  | nil => cases isThere
  | append_singleton taken last inductionHypothesis =>
      rw [longestWait_concat]
      rcases List.mem_append.mp isThere with before | isLast
      · exact le_trans (inductionHypothesis before) (le_max_left _ _)
      · rw [List.mem_singleton.mp isLast]
        exact le_max_right _ _

theorem outcomes_append (first second : List (Mailbox Answer)) :
    outcomes (first ++ second) = outcomes first ++
      (second.zipIdx first.length).filterMap fun numbered => numbered.1.outcome? numbered.2 := by
  rw [outcomes, List.zipIdx_append, List.filterMap_append, Nat.zero_add]
  rfl

theorem outcomes_concat_of_brings {outcome : Except Fault Answer}
    (brings : mailbox.outcome? taken.length = some outcome) :
    outcomes (taken ++ [mailbox]) = outcomes taken ++ [outcome] := by
  rw [outcomes_append]
  simp [brings]

theorem breaks_eq_false_iff : breaks merge mailboxes = false <->
    exists merged, mergingInTurn merge (answers (outcomes mailboxes)) = .ok merged := by
  unfold breaks
  cases mergingInTurn merge (answers (outcomes mailboxes)) <;> simp

theorem breaks_eq_true_iff : breaks merge mailboxes = true <->
    exists fault, mergingInTurn merge (answers (outcomes mailboxes)) = .error fault := by
  unfold breaks
  cases mergingInTurn merge (answers (outcomes mailboxes)) <;> simp

theorem breaks_of_isPrefix (merge : Nat -> Answer -> Answer -> Except Fault Answer)
    {first whole : List (Mailbox Answer)} (isPrefix : first <+: whole)
    (broken : breaks merge first = true) : breaks merge whole = true := by
  rcases isPrefix with ⟨later, rfl⟩
  rcases breaks_eq_true_iff.mp broken with ⟨fault, failed⟩
  rw [breaks_eq_true_iff, outcomes_append, answers_append]
  exact ⟨fault, mergingInTurn_append_of_error failed _⟩

theorem consulted_of_whole (whole : breaks merge mailboxes = false) :
    consulted merge mailboxes = mailboxes := by
  rw [consulted, firstBreak_eq_length (breaks_of_isPrefix merge) whole, List.take_length]

theorem consulted_of_breaks (whole : breaks merge taken = false)
    (broken : breaks merge (taken ++ [mailbox]) = true) (later : List (Mailbox Answer)) :
    consulted merge (taken ++ mailbox :: later) = taken ++ [mailbox] := by
  rw [consulted, firstBreak_of_breaks (breaks_of_isPrefix merge) whole broken, List.append_cons,
    ← List.length_concat (a := mailbox), List.concat_eq_append, List.take_left]

/-- A mailbox is consulted if no merge has failed before it. -/
theorem mem_consulted (whole : breaks merge taken = false) (mailbox : Mailbox Answer)
    (later : List (Mailbox Answer)) : mailbox ∈ consulted merge (taken ++ mailbox :: later) := by
  have inside : taken.length < (taken ++ mailbox :: later).length := by
    rw [List.length_append, List.length_cons]
    omega
  have isConsulted := lt_firstBreak (breaks_of_isPrefix merge) inside (by rwa [List.take_left])
  apply List.mem_take_iff_getElem.mpr
  exact ⟨taken.length, Nat.lt_min.mpr ⟨isConsulted, inside⟩, List.getElem_of_append rfl rfl⟩

end Consulted

end Mailbox

/-! ## A collection from mailboxes, step by step -/

namespace Mailbox

/-- What becomes of a mailbox: nothing at all, or its outcome, which is delivered when its wait is over. -/
inductive Arrival (index : Nat) (mailbox : Mailbox Answer) : Prop where
  | never (waits : mailbox.wait = ⊤) (undelivered : mailbox.delivery? index = none)
  | comes {delivery : Delivery Answer} (waits : mailbox.wait = WithTop.some delivery.moment.millis)
      (brings : mailbox.outcome? index = some delivery.outcome)
      (delivered : mailbox.delivery? index = some delivery)

theorem arrival (index : Nat) (mailbox : Mailbox Answer) : Arrival index mailbox := by
  cases mailbox with
  | delivered timer outcome => cases timer <;> exact .comes rfl rfl rfl
  | dropped => exact .comes rfl rfl rfl
  | pending => exact .never rfl rfl

end Mailbox

namespace Progress

open Mailbox

variable {merge : Nat -> Answer -> Answer -> Except Fault Answer} {empty : Answer}
  {cancel : Option Moment} {progress : Progress Answer} {index : Nat}
  {taken later mailboxes : List (Mailbox Answer)} {mailbox : Mailbox Answer}

/-- The end of a collection from mailboxes, from a point of it on. -/
def collectRest? (merge : Nat -> Answer -> Answer -> Except Fault Answer) (empty : Answer)
    (cancel : Option Moment) (progress : Progress Answer) (index : Nat)
    (mailboxes : List (Mailbox Answer)) : Option (Conclusion Answer) :=
  match progress.takeAll merge .caller cancel (deliveries index mailboxes).1 with
  | .error conclusion => some conclusion
  | .ok progress =>
      if (deliveries index mailboxes).2 then cancel.map progress.abandon
      else some (progress.conclude empty)

theorem collect?_eq (merge : Nat -> Answer -> Answer -> Except Fault Answer) (empty : Answer)
    (cancel : Option Moment) (mailboxes : List (Mailbox Answer)) :
    Mailbox.collect? merge empty cancel mailboxes =
      (start Moment.callStart).collectRest? merge empty cancel 0 mailboxes := rfl

theorem collectRest?_nil :
    progress.collectRest? merge empty cancel index [] = some (progress.conclude empty) := rfl

theorem collectRest?_of_never (undelivered : mailbox.delivery? index = none) :
    progress.collectRest? merge empty cancel index (mailbox :: later) =
      cancel.map progress.abandon := by
  rw [collectRest?, deliveries, undelivered]
  rfl

section Delivered

variable {delivery : Delivery Answer} (delivered : mailbox.delivery? taken.length = some delivery)
include delivered

theorem collectRest?_of_take {next : Progress Answer}
    (took : progress.take merge .caller cancel delivery = .ok next) :
    progress.collectRest? merge empty cancel taken.length (mailbox :: later) =
      next.collectRest? merge empty cancel (taken ++ [mailbox]).length later := by
  rw [collectRest?, deliveries, delivered, List.length_append, List.length_singleton]
  dsimp only
  rw [takeAll, took]
  rfl

theorem collectRest?_of_take_error {conclusion : Conclusion Answer}
    (took : progress.take merge .caller cancel delivery = .error conclusion) :
    progress.collectRest? merge empty cancel taken.length (mailbox :: later) = some conclusion := by
  rw [collectRest?, deliveries, delivered]
  dsimp only
  rw [takeAll, took]

end Delivered

/-- What a progress holds when some mailboxes have been looked into. -/
structure Reached (merge : Nat -> Answer -> Answer -> Except Fault Answer)
    (taken : List (Mailbox Answer)) (progress : Progress Answer) : Prop where
  merged : mergingInTurn merge (answers (outcomes taken)) = .ok progress.merged
  lastFault : progress.lastFault = (faults (outcomes taken)).getLast?
  merges : progress.merges = mergesOf taken
  millis : longestWait taken = WithTop.some progress.moment.millis

namespace Reached

theorem start : Reached merge [] (.start Moment.callStart) where
  merged := rfl
  lastFault := rfl
  merges := rfl
  millis := rfl

theorem breaks_eq_false (reached : Reached merge taken progress) : breaks merge taken = false :=
  breaks_eq_false_iff.mpr ⟨progress.merged, reached.merged⟩

/-- A collection that has looked into all mailboxes ends with the verdict on them. -/
theorem outcome_eq_verdict (reached : Reached merge taken progress) (empty : Answer) :
    progress.outcome empty = verdict merge empty taken := by
  unfold Progress.outcome verdict
  rw [reached.merged, reached.lastFault]
  cases progress.merged with
  | some merged => rfl
  | none => cases (faults (outcomes taken)).getLast? <;> rfl

/-- What comes of taking one delivery in time: its mailbox has been looked into as well, or the merge of
its answer ends the collection. -/
inductive Step (merge : Nat -> Answer -> Answer -> Except Fault Answer) (cancel : Option Moment)
    (progress : Progress Answer) (taken : List (Mailbox Answer)) (mailbox : Mailbox Answer)
    (delivery : Delivery Answer) : Prop where
  | goesOn {next : Progress Answer}
      (took : progress.take merge .caller cancel delivery = .ok next)
      (moment : next.moment = progress.takenAt .caller delivery.moment)
      (reached : Reached merge (taken ++ [mailbox]) next)
  | breaks {fault : Fault}
      (took : progress.take merge .caller cancel delivery =
        .error ⟨progress.takenAt .caller delivery.moment, .error fault,
          mergesOf (taken ++ [mailbox])⟩)
      (failed : mergingInTurn merge (answers (outcomes (taken ++ [mailbox]))) = .error fault)

theorem takenAt_millis (reached : Reached merge taken progress) {delivered : Moment}
    (waits : mailbox.wait = WithTop.some delivered.millis) :
    longestWait (taken ++ [mailbox]) =
      WithTop.some (progress.takenAt .caller delivered).millis := by
  rw [longestWait_concat, reached.millis, waits, Progress.takenAt_millis]
  exact (WithTop.coe_max _ _).symm

/-- One outcome more is one step more of the fold. -/
theorem merging_concat (reached : Reached merge taken progress) {outcome : Except Fault Answer}
    (brings : mailbox.outcome? taken.length = some outcome) :
    mergingInTurn merge (answers (outcomes (taken ++ [mailbox]))) =
      extend (merge progress.merges) progress.merged outcome := by
  rw [outcomes_concat_of_brings brings, answers_append]
  cases outcome with
  | error fault =>
      change mergingInTurn merge (answers (outcomes taken) ++ []) = .ok progress.merged
      rw [List.append_nil, reached.merged]
  | ok answer =>
      have extended := mergingInTurn_concat merge (answers (outcomes taken)) answer
      rw [reached.merged, ← mergesOf, ← reached.merges] at extended
      exact extended

theorem mergesOf_concat (reached : Reached merge taken progress) {outcome : Except Fault Answer}
    (brings : mailbox.outcome? taken.length = some outcome) :
    progress.mergesAfter outcome = mergesOf (taken ++ [mailbox]) := by
  have merges := reached.merges
  rw [mergesOf] at merges
  rw [mergesOf, outcomes_concat_of_brings brings, answers_append]
  cases outcome with
  | error fault =>
      change progress.merges = (answers (outcomes taken) ++ []).length - 1
      rw [List.append_nil, merges]
  | ok answer =>
      change progress.mergesAfter (.ok answer) = (answers (outcomes taken) ++ [answer]).length - 1
      rw [mergesAfter, List.length_append, List.length_singleton]
      cases before : progress.merged with
      | none =>
          have isFirst : answers (outcomes taken) = [] :=
            mergingInTurn_eq_none_iff.mp (before ▸ reached.merged)
          rw [merges, isFirst]
          rfl
      | some seed =>
          have nonempty : answers (outcomes taken) ≠ [] := by
            intro isEmpty
            have unmerged : mergingInTurn merge (answers (outcomes taken)) = .ok none :=
              mergingInTurn_eq_none_iff.mpr isEmpty
            rw [reached.merged, before] at unmerged
            cases unmerged
          have positive := List.length_pos_iff.mpr nonempty
          change progress.merges + 1 = _
          rw [merges]
          omega

theorem step (reached : Reached merge taken progress) {delivery : Delivery Answer}
    (waits : mailbox.wait = WithTop.some delivery.moment.millis)
    (brings : mailbox.outcome? taken.length = some delivery.outcome)
    (inTime : cancelledBefore? cancel (progress.takenAt .caller delivery.moment) = none) :
    Step merge cancel progress taken mailbox delivery := by
  have concat := reached.merging_concat brings
  have merges := reached.mergesOf_concat brings
  cases extended : extend (merge progress.merges) progress.merged delivery.outcome with
  | ok merged =>
      refine .goesOn (take_of_extend inTime extended) rfl ?_
      exact
        { merged := concat.trans extended
          lastFault := by
            rw [outcomes_concat_of_brings brings, faults_concat_getLast?, reached.lastFault]
          merges := merges
          millis := reached.takenAt_millis waits }
  | error fault =>
      have took := take_of_extend_error inTime extended
      rw [merges] at took
      exact .breaks took (concat.trans extended)

end Reached

/-! ## The deadline of a collection -/

section Deadline

variable {cancelled : Option Cancellation} {deadline : Nat} {delivered : Moment}

/-- What is waited for less long than until the deadline is taken in time, if the collection has not gone
past the deadline yet. -/
theorem inTime_of_lt (standing : progress.moment ≤ (Cancellation.after deadline).moment)
    (early : delivered.millis < deadline) :
    cancelledBefore? (some (Cancellation.after deadline).moment) (progress.takenAt .caller delivered) =
      none := by
  apply cancelledBefore?_some_eq_none_iff.mpr
  rcases takenAt_eq_or progress .caller delivered with ⟨_, taken⟩ | ⟨_, taken⟩
  · rw [taken]
    exact le_of_lt (Moment.lt_of_millis_lt early)
  · rw [taken]
    exact standing

theorem inTime_of_follows
    (standing : forall deadline, cancelled = some (.after deadline) ->
      progress.moment ≤ (Cancellation.after deadline).moment)
    (follows : forall cancellation, cancelled = some cancellation ->
      cancellation.follows (WithTop.some delivered.millis) = true) :
    cancelledBefore? (cancelled.map Cancellation.moment) (progress.takenAt .caller delivered) =
      none := by
  cases cancelled with
  | none => rfl
  | some cancellation =>
      have waited := follows cancellation rfl
      cases cancellation with
      | upFront => cases waited
      | after deadline =>
          exact inTime_of_lt (standing deadline rfl)
            (WithTop.coe_lt_coe.mp (Cancellation.follows_after_iff.mp waited))

/-- What is waited for longer than until the deadline is too late. -/
theorem late_of_lt (late : deadline < delivered.millis) :
    cancelledBefore? (some (Cancellation.after deadline).moment)
        (progress.takenAt .caller delivered) =
      some (Cancellation.after deadline).moment := by
  refine cancelledBefore?_eq_some_iff.mpr ⟨rfl, Moment.lt_of_millis_lt ?_⟩
  rw [Progress.takenAt_millis]
  exact lt_of_lt_of_le late (Nat.le_max_right _ _)

theorem abandon_of_le (standing : progress.moment ≤ (Cancellation.after deadline).moment) :
    progress.abandon (Cancellation.after deadline).moment =
      ⟨(Cancellation.after deadline).moment, .error .cancelled, progress.merges⟩ := by
  rw [abandon, Moment.later_eq_max, max_eq_left standing]

end Deadline

end Progress

/-! ## Whole collections -/

namespace Mailbox

variable {merge : Nat -> Answer -> Answer -> Except Fault Answer} {empty : Answer}

/-- That a collection ends, when it does, and how. -/
def EndsAt (collected : Option (Conclusion Answer)) (millis : Nat) (outcome : Except Fault Answer)
    (merges : Nat) : Prop :=
  exists moment : Moment, moment.millis = millis ∧ collected = some ⟨moment, outcome, merges⟩

/-- A collection that nothing cuts off takes as long as the slowest of the mailboxes that it consults, and
ends with the verdict on them. -/
structure EndsByItself (merge : Nat -> Answer -> Answer -> Except Fault Answer) (empty : Answer)
    (mailboxes : List (Mailbox Answer)) (collected : Option (Conclusion Answer)) : Prop where
  ends : forall millis, longestWait (consulted merge mailboxes) = WithTop.some millis ->
    EndsAt collected millis (verdict merge empty (consulted merge mailboxes))
      (mergesOf (consulted merge mailboxes))
  hangs : longestWait (consulted merge mailboxes) = ⊤ -> collected = none

/-- A collection that is cut off ends with its cancellation.  It has merged the answers before the first
mailbox that it still waited for, and none of these merges has failed. -/
structure EndsCancelled (merge : Nat -> Answer -> Answer -> Except Fault Answer)
    (cancellation : Cancellation) (mailboxes : List (Mailbox Answer))
    (collected : Option (Conclusion Answer)) : Prop where
  ends : EndsAt collected cancellation.moment.millis (.error .cancelled)
    (mergesOf (waitedFor cancellation mailboxes))
  merged : exists merged,
    mergingInTurn merge (answers (outcomes (waitedFor cancellation mailboxes))) = .ok merged

theorem waitedFor_of_follows {cancellation : Cancellation} {taken : List (Mailbox Answer)}
    {mailbox : Mailbox Answer}
    (passed : forall mailbox, mailbox ∈ taken -> cancellation.follows mailbox.wait = true)
    (waits : cancellation.follows mailbox.wait = false) (later : List (Mailbox Answer)) :
    waitedFor cancellation (taken ++ mailbox :: later) = taken := by
  rw [waitedFor, List.takeWhile_append_of_pos passed, List.takeWhile_cons_of_neg (by simp [waits]),
    List.append_nil]

end Mailbox

namespace Progress.Reached

open Mailbox

variable {merge : Nat -> Answer -> Answer -> Except Fault Answer} {empty : Answer}
  {progress : Progress Answer} {taken : List (Mailbox Answer)}

/-- From any point on, a collection that is over with every mailbox before its cancellation ends as if
there were none. -/
theorem endsByItself {cancelled : Option Cancellation} (empty : Answer) (rest : List (Mailbox Answer))
    (reached : Reached merge taken progress)
    (standing : forall deadline, cancelled = some (.after deadline) ->
      progress.moment ≤ (Cancellation.after deadline).moment)
    (follows : forall cancellation, cancelled = some cancellation ->
      forall mailbox, mailbox ∈ consulted merge (taken ++ rest) ->
        cancellation.follows mailbox.wait = true) :
    EndsByItself merge empty (taken ++ rest)
      (progress.collectRest? merge empty (cancelled.map Cancellation.moment) taken.length rest) := by
  induction rest generalizing taken progress with
  | nil =>
      rw [collectRest?_nil, List.append_nil]
      have all := consulted_of_whole reached.breaks_eq_false
      constructor
      · intro millis longest
        rw [all] at longest ⊢
        refine ⟨progress.moment, WithTop.coe_injective (reached.millis.symm.trans longest), ?_⟩
        rw [conclude, reached.outcome_eq_verdict, reached.merges]
      · intro hangs
        rw [all, reached.millis] at hangs
        exact absurd hangs WithTop.coe_ne_top
  | cons mailbox later inductionHypothesis =>
      have isConsulted := mem_consulted reached.breaks_eq_false mailbox later
      cases arrival taken.length mailbox with
      | never waits undelivered =>
          have longest : longestWait (consulted merge (taken ++ mailbox :: later)) = ⊤ :=
            top_le_iff.mp (waits ▸ wait_le_longestWait isConsulted)
          have uncancelled : cancelled = none := by
            cases isCancelled : cancelled with
            | none => rfl
            | some cancellation =>
                have waited := follows cancellation isCancelled mailbox isConsulted
                rw [waits, Cancellation.follows_top] at waited
                cases waited
          rw [collectRest?_of_never undelivered, uncancelled]
          constructor
          · intro millis finite
            exact absurd (finite.symm.trans longest) WithTop.coe_ne_top
          · intro _
            rfl
      | @comes delivery waits brings delivered =>
          have inTime := inTime_of_follows standing fun cancellation isCancelled =>
            waits ▸ follows cancellation isCancelled mailbox isConsulted
          cases reached.step waits brings inTime with
          | goesOn took moment next =>
              rw [collectRest?_of_take delivered took]
              rw [List.append_cons] at follows ⊢
              apply inductionHypothesis next _ follows
              intro deadline isCancelled
              subst isCancelled
              rw [moment]
              exact cancelledBefore?_some_eq_none_iff.mp inTime
          | breaks took failed =>
              have upToHere := consulted_of_breaks reached.breaks_eq_false
                (breaks_eq_true_iff.mpr ⟨_, failed⟩) later
              have longest := reached.takenAt_millis waits
              rw [collectRest?_of_take_error delivered took]
              constructor
              · intro millis finite
                rw [upToHere] at finite ⊢
                refine ⟨_, WithTop.coe_injective (longest.symm.trans finite), ?_⟩
                rw [verdict, failed]
              · intro hangs
                rw [upToHere, longest] at hangs
                exact absurd hangs WithTop.coe_ne_top

/-- A deadline that cuts the collection off at a mailbox finds the answers before it merged. -/
theorem endsCancelled_of_abandon {deadline : Nat} {mailbox : Mailbox Answer}
    (reached : Reached merge taken progress)
    (standing : progress.moment ≤ (Cancellation.after deadline).moment)
    (passed : forall mailbox, mailbox ∈ taken ->
      (Cancellation.after deadline).follows mailbox.wait = true)
    (waits : (Cancellation.after deadline).follows mailbox.wait = false)
    (later : List (Mailbox Answer)) :
    EndsCancelled merge (.after deadline) (taken ++ mailbox :: later)
      (some (progress.abandon (Cancellation.after deadline).moment)) := by
  have upToHere := waitedFor_of_follows passed waits later
  constructor
  · rw [upToHere, abandon_of_le standing, reached.merges]
    exact ⟨_, rfl, rfl⟩
  · rw [upToHere]
    exact ⟨_, reached.merged⟩

/-- From any point on, a collection that is not over with every mailbox before its deadline is cut off. -/
theorem endsCancelled {deadline : Nat} (empty : Answer) (rest : List (Mailbox Answer))
    (reached : Reached merge taken progress)
    (standing : progress.moment ≤ (Cancellation.after deadline).moment)
    (passed : forall mailbox, mailbox ∈ taken ->
      (Cancellation.after deadline).follows mailbox.wait = true)
    (untied : forall mailbox, mailbox ∈ rest -> mailbox.wait ≠ WithTop.some deadline)
    (precedes : WithTop.some deadline < longestWait (consulted merge (taken ++ rest))) :
    EndsCancelled merge (.after deadline) (taken ++ rest)
      (progress.collectRest? merge empty (some (Cancellation.after deadline).moment) taken.length
        rest) := by
  induction rest generalizing taken progress with
  | nil =>
      rw [List.append_nil, consulted_of_whole reached.breaks_eq_false, reached.millis] at precedes
      exact absurd (WithTop.coe_lt_coe.mp precedes) (Nat.not_lt_of_ge (Moment.millis_le_of_le standing))
  | cons mailbox later inductionHypothesis =>
      cases arrival taken.length mailbox with
      | never waits undelivered =>
          rw [collectRest?_of_never undelivered]
          apply reached.endsCancelled_of_abandon standing passed
          rw [waits, Cancellation.follows_top]
      | @comes delivery waits brings delivered =>
          have tie : delivery.moment.millis ≠ deadline := by
            rintro rfl
            exact untied mailbox List.mem_cons_self waits
          rcases Nat.lt_or_gt_of_ne tie with early | late
          · have follows : (Cancellation.after deadline).follows mailbox.wait = true := by
              rw [waits]
              exact Cancellation.follows_after_iff.mpr (WithTop.coe_lt_coe.mpr early)
            have inTime := inTime_of_lt standing early
            have stillStanding := cancelledBefore?_some_eq_none_iff.mp inTime
            cases reached.step waits brings inTime with
            | goesOn took moment next =>
                rw [collectRest?_of_take delivered took]
                rw [List.append_cons] at precedes ⊢
                apply inductionHypothesis next (moment ▸ stillStanding) _ _ precedes
                · rw [List.forall_mem_append]
                  exact ⟨passed, List.forall_mem_singleton.mpr follows⟩
                · exact (List.forall_mem_cons.mp untied).2
            | breaks took failed =>
                have longest := reached.takenAt_millis waits
                rw [consulted_of_breaks reached.breaks_eq_false (breaks_eq_true_iff.mpr ⟨_, failed⟩)
                  later, longest] at precedes
                exact absurd (WithTop.coe_lt_coe.mp precedes)
                  (Nat.not_lt_of_ge (Moment.millis_le_of_le stillStanding))
          · rw [collectRest?_of_take_error delivered (take_of_cancelled (late_of_lt late))]
            apply reached.endsCancelled_of_abandon standing passed
            rw [waits]
            exact decide_eq_false (not_lt_of_gt (WithTop.coe_lt_coe.mpr late))

end Progress.Reached

namespace Mailbox

variable {merge : Nat -> Answer -> Answer -> Except Fault Answer} {empty : Answer}
  {mailboxes : List (Mailbox Answer)}

/-- A collection that is cancelled before it begins ends at once, unless there is nothing to wait for. -/
theorem endsCancelled_upFront (merge : Nat -> Answer -> Answer -> Except Fault Answer) (empty : Answer)
    (nonempty : mailboxes ≠ []) :
    EndsCancelled merge .upFront mailboxes
      (collect? merge empty (some Cancellation.upFront.moment) mailboxes) := by
  rcases List.exists_cons_of_ne_nil nonempty with ⟨mailbox, later, rfl⟩
  have nothing : waitedFor .upFront (mailbox :: later) = [] := rfl
  have ended : collect? merge empty (some Cancellation.upFront.moment) (mailbox :: later) =
      some ((Progress.start Moment.callStart).abandon Cancellation.upFront.moment) := by
    rw [Progress.collect?_eq]
    cases arrival 0 mailbox with
    | never waits undelivered => exact Progress.collectRest?_of_never undelivered
    | @comes delivery waits brings delivered =>
        have begun : Cancellation.upFront.moment < Moment.callStart :=
          (Moment.isBefore_iff _ _).mp rfl
        have late := cancelledBefore?_eq_some_iff.mpr
          ⟨rfl, lt_of_lt_of_le begun (Progress.moment_le_takenAt
            (Progress.start Moment.callStart : Progress Answer) .caller delivery.moment)⟩
        have isFirst : mailbox.delivery? ([] : List (Mailbox Answer)).length = some delivery := delivered
        exact Progress.collectRest?_of_take_error isFirst (Progress.take_of_cancelled late)
  constructor
  · rw [nothing, ended]
    exact ⟨Moment.callStart, rfl, rfl⟩
  · rw [nothing]
    exact ⟨none, rfl⟩

/-- A collection from mailboxes, of which none comes at the very time of the cancellation, is cut off by a
cancellation that comes before the slowest of the mailboxes that it consults, and otherwise ends as if
there were none.  Without mailboxes nothing is waited for, and it ends before any cancellation. -/
theorem collection_by_waits (merge : Nat -> Answer -> Answer -> Except Fault Answer) (empty : Answer)
    (cancel : Option Cancellation) (mailboxes : List (Mailbox Answer))
    (untied : forall deadline, cancel = some (.after deadline) ->
      forall mailbox, mailbox ∈ mailboxes -> mailbox.wait ≠ WithTop.some deadline) :
    (forall cancellation, cancel = some cancellation -> mailboxes ≠ [] ->
      cancellation.Precedes (longestWait (consulted merge mailboxes)) ->
      EndsCancelled merge cancellation mailboxes
        (collect? merge empty (cancel.map Cancellation.moment) mailboxes)) ∧
    ((mailboxes = [] ∨ forall cancellation, cancel = some cancellation ->
        ¬ cancellation.Precedes (longestWait (consulted merge mailboxes))) ->
      EndsByItself merge empty mailboxes
        (collect? merge empty (cancel.map Cancellation.moment) mailboxes)) ∧
    forall index, (BackendComplaint.fellSilent index).message =
      "backend " ++ toString index ++ " terminated before reporting" := by
  have begins (deadline : Nat) := le_of_lt (Moment.callStart_lt_after deadline)
  rw [Progress.collect?_eq]
  refine ⟨?_, ?_, fun index => rfl⟩
  · rintro cancellation rfl nonempty precedes
    cases cancellation with
    | upFront => exact endsCancelled_upFront merge empty nonempty
    | after deadline =>
        apply Progress.Reached.start.endsCancelled empty mailboxes (begins deadline) _
          (untied deadline rfl) precedes
        intro mailbox isTaken
        cases isTaken
  · intro uncut
    apply Progress.Reached.start.endsByItself empty mailboxes fun deadline _ => begins deadline
    rintro cancellation rfl mailbox isConsulted
    have isThere := List.mem_of_mem_take isConsulted
    rcases uncut with rfl | notBefore
    · cases isThere
    · cases cancellation with
      | upFront => exact absurd trivial (notBefore _ rfl)
      | after deadline =>
          have notLater := le_trans (wait_le_longestWait isConsulted) (not_lt.mp (notBefore _ rfl))
          exact Cancellation.follows_after_iff.mpr
            (lt_of_le_of_ne notLater (untied deadline rfl mailbox isThere))

/-- Five mailboxes, of which the fourth one brings an answer that cannot be merged any more.  The last one,
which never answers, is not waited for. -/
theorem collection_by_waits_failing_merge :
    let merge : Nat -> Nat -> Nat -> Except Fault Nat := fun merges first second =>
      if merges = 1 then .error (.backend (.stated "overflow")) else .ok (first + second)
    let mailboxes : List (Mailbox Nat) := [.delivered (some 30) (.ok 1), .dropped,
      .delivered none (.ok 2), .delivered (some 50) (.ok 4), .pending]
    EndsAt (collect? merge 0 (some (Cancellation.after 40).moment) mailboxes) 40 (.error .cancelled) 1 ∧
      EndsAt (collect? merge 0 (some (Cancellation.after 60).moment) mailboxes) 50
        (.error (.backend (.stated "overflow"))) 2 := by
  intro merge mailboxes
  have longest : longestWait (consulted merge mailboxes) = WithTop.some 50 := rfl
  constructor
  · have untied : forall mailbox, mailbox ∈ mailboxes -> mailbox.wait ≠ WithTop.some 40 := by
      decide
    have precedes : (Cancellation.after 40).Precedes (longestWait (consulted merge mailboxes)) := by
      rw [longest]
      exact WithTop.coe_lt_coe.mpr (by decide)
    have collection := collection_by_waits merge 0 (some (.after 40)) mailboxes
      (by rintro _ ⟨⟩; exact untied)
    exact (collection.1 _ rfl (List.cons_ne_nil _ _) precedes).ends
  · have untied : forall mailbox, mailbox ∈ mailboxes -> mailbox.wait ≠ WithTop.some 60 := by
      decide
    have notBefore : ¬ (Cancellation.after 60).Precedes (longestWait (consulted merge mailboxes)) := by
      rw [longest]
      exact not_lt_of_gt (WithTop.coe_lt_coe.mpr (by decide))
    have collection := collection_by_waits merge 0 (some (.after 60)) mailboxes
      (by rintro _ ⟨⟩; exact untied)
    exact (collection.2.1 (.inr (by rintro _ ⟨⟩; exact notBefore))).ends 50 longest

end Mailbox

end QueryFederation

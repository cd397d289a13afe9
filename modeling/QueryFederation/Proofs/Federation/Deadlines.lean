import Mathlib.Algebra.GroupWithZero.Nat
import QueryFederation.Federation.Deadline

/-!
# The tokens of a deadline at every point of time

A deadline races with whoever cancels the parent token.  Here that race is not decided: the timer has
turns of its own, in which it finds that its time has come or that its token is cancelled, and somebody
may cancel the parent before, between and after them.  If both findings are true at once the timer may
act on either of them.  Only the clock waits until the timer has nothing to do, and then it goes on by
one millisecond.  It knows no shorter times, so a deadline between two milliseconds is due at the later
one.

In whatever order these things happen, where the timer has nothing to do there is exactly one state for
what has happened so far, and it is the one that letting the timer run after each event leads to.  In it
the tokens are cancelled by whoever cancelled the parent, and by the deadline if its time has come; but
a deadline that watches the child never reaches the parent.  The timer has ended exactly if the token it
watches is cancelled.  No step takes a cancellation back.

Nothing is asked of the times of the cancellations.  One may fall on the millisecond in which the
deadline is due, before the timer has run or after it.
-/

namespace QueryFederation

namespace DeadlineEvent

/-- How much time passes in an event. -/
def millis : DeadlineEvent -> Nat
  | wait millis => millis
  | cancel => 0

/-- How much time passes in a sequence of events. -/
def elapsed (events : List DeadlineEvent) : Nat :=
  (events.map millis).sum

/-- An event with a stop after every millisecond. -/
def ticks : DeadlineEvent -> List DeadlineEvent
  | wait millis => List.replicate millis (wait 1)
  | cancel => [cancel]

/-- A sequence of events with a stop after every millisecond. -/
def inMillis (events : List DeadlineEvent) : List DeadlineEvent :=
  events.flatMap ticks

theorem elapsed_append (first second : List DeadlineEvent) :
    elapsed (first ++ second) = elapsed first + elapsed second := by
  rw [elapsed, List.map_append, List.sum_append]
  rfl

theorem elapsed_ticks (event : DeadlineEvent) : elapsed event.ticks = event.millis := by
  cases event with
  | wait millis =>
      rw [ticks, elapsed, List.map_replicate, List.sum_replicate_nat]
      exact Nat.mul_one millis
  | cancel => rfl

theorem elapsed_inMillis (events : List DeadlineEvent) : elapsed (inMillis events) = elapsed events := by
  induction events with
  | nil => rfl
  | cons event events inductionHypothesis =>
      change elapsed (event.ticks ++ inMillis events) = event.millis + elapsed events
      rw [elapsed_append, elapsed_ticks, inductionHypothesis]

theorem cancel_mem_ticks_iff (event : DeadlineEvent) : cancel ∈ event.ticks <-> cancel = event := by
  cases event with
  | wait millis =>
      rw [ticks, List.mem_replicate]
      constructor
      · intro isTick
        cases isTick.2
      · intro same
        cases same
  | cancel => rw [ticks, List.mem_singleton]

theorem cancel_mem_inMillis_iff (events : List DeadlineEvent) :
    cancel ∈ inMillis events <-> cancel ∈ events := by
  rw [inMillis, List.mem_flatMap]
  simp only [cancel_mem_ticks_iff, exists_eq_right']

end DeadlineEvent

namespace DeadlineState

open DeadlineEvent (ticks elapsed inMillis elapsed_append elapsed_inMillis cancel_mem_inMillis_iff)

variable {deadline : Deadline} {first now later : DeadlineState} {events : List DeadlineEvent}

/-! ## What may happen -/

/-- One turn of the timer. -/
inductive Turn (deadline : Deadline) (now : DeadlineState) : DeadlineState -> Prop where
  /-- The time has come. -/
  | fires (running : now.timerFinished = false) (due : deadline.dueMillis ≤ now.nowMillis) :
      Turn deadline now { now.cancel deadline.watched with timerFinished := true }
  /-- Somebody has cancelled the token. -/
  | yields (running : now.timerFinished = false)
      (cancelled : now.isCancelled deadline.watched = true) :
      Turn deadline now { now with timerFinished := true }

/-- Whether the timer has nothing to do. -/
def IsQuiet (deadline : Deadline) (now : DeadlineState) : Prop :=
  forall later, ¬ Turn deadline now later

/-- The states that events may lead to, whenever the timer has its turns.  Time passes by the
millisecond, and only where the timer has nothing to do. -/
inductive Course (deadline : Deadline) (first : DeadlineState) :
    List DeadlineEvent -> DeadlineState -> Prop where
  | already : Course deadline first [] first
  | turn {events : List DeadlineEvent} {now later : DeadlineState}
      (course : Course deadline first events now) (turn : Turn deadline now later) :
      Course deadline first events later
  | cancelled {events : List DeadlineEvent} {now : DeadlineState}
      (course : Course deadline first events now) :
      Course deadline first (events ++ [.cancel]) (now.cancel .parent)
  | passes {events : List DeadlineEvent} {now : DeadlineState}
      (course : Course deadline first events now) (quiet : IsQuiet deadline now) :
      Course deadline first (events ++ [.wait 1]) { now with nowMillis := now.nowMillis + 1 }

/-! ## No cancellation is taken back -/

theorem isCancelled_cancel (now : DeadlineState) (cancelled token : Token)
    (already : now.isCancelled token = true) : (now.cancel cancelled).isCancelled token = true := by
  cases cancelled with
  | parent => cases token <;> rfl
  | child =>
      cases token with
      | parent => exact already
      | child => rfl

theorem Turn.isCancelled (turn : Turn deadline now later) (token : Token)
    (already : now.isCancelled token = true) : later.isCancelled token = true := by
  cases turn with
  | fires _ _ => exact isCancelled_cancel now deadline.watched token already
  | yields _ _ => exact already

theorem Course.isCancelled (course : Course deadline first events later) (token : Token)
    (already : first.isCancelled token = true) : later.isCancelled token = true := by
  induction course with
  | already => exact already
  | turn _ turn inductionHypothesis => exact turn.isCancelled token inductionHypothesis
  | cancelled _ inductionHypothesis => exact isCancelled_cancel _ .parent token inductionHypothesis
  | passes _ _ inductionHypothesis => exact inductionHypothesis

/-! ## Letting the timer run -/

theorem isQuiet_iff : IsQuiet deadline now <->
    now.timerFinished = true ∨
      now.isCancelled deadline.watched = false ∧ now.nowMillis < deadline.dueMillis := by
  constructor
  · intro quiet
    cases finished : now.timerFinished with
    | true => exact Or.inl rfl
    | false =>
        refine Or.inr ⟨?_, ?_⟩
        · apply Bool.eq_false_iff.mpr
          intro cancelled
          exact quiet _ (.yields finished cancelled)
        · apply Nat.lt_of_not_le
          intro due
          exact quiet _ (.fires finished due)
  · intro idle later turn
    rcases idle with finished | ⟨standing, early⟩
    · cases turn with
      | fires running _ => exact Bool.noConfusion (running.symm.trans finished)
      | yields running _ => exact Bool.noConfusion (running.symm.trans finished)
    · cases turn with
      | fires _ due => exact absurd early (Nat.not_lt_of_le due)
      | yields _ cancelled => exact Bool.noConfusion (standing.symm.trans cancelled)

/-- The timer runs for one turn, if it has anything to do at all. -/
theorem settle_cases (deadline : Deadline) (now : DeadlineState) :
    settle deadline now = now ∨ Turn deadline now (settle deadline now) := by
  unfold settle
  split
  · exact Or.inl rfl
  · rename_i running
    rw [Bool.not_eq_true] at running
    split
    · rename_i cancelled
      exact Or.inr (.yields running cancelled)
    · split
      · rename_i due
        exact Or.inr (.fires running due)
      · exact Or.inl rfl

theorem settle_isQuiet (deadline : Deadline) (now : DeadlineState) :
    IsQuiet deadline (settle deadline now) := by
  rw [isQuiet_iff]
  unfold settle
  split
  · rename_i finished
    exact Or.inl finished
  · split
    · exact Or.inl rfl
    · rename_i standing
      split
      · exact Or.inl rfl
      · rename_i early
        exact Or.inr ⟨Bool.not_eq_true _ ▸ standing, Nat.lt_of_not_le early⟩

theorem run_isQuiet (quiet : IsQuiet deadline now) (events : List DeadlineEvent) :
    IsQuiet deadline (run deadline now events) := by
  induction events generalizing now with
  | nil => exact quiet
  | cons event events inductionHypothesis =>
      apply inductionHypothesis
      cases event <;> exact settle_isQuiet _ _

theorem Course.settle (course : Course deadline first events now) :
    Course deadline first events (settle deadline now) := by
  rcases settle_cases deadline now with same | turn
  · rw [same]
    exact course
  · exact course.turn turn

theorem Course.exists_quiet_ticks (course : Course deadline first events now)
    (quiet : IsQuiet deadline now) (event : DeadlineEvent) :
    exists later, Course deadline first (events ++ event.ticks) later ∧ IsQuiet deadline later := by
  cases event with
  | cancel => exact ⟨_, course.cancelled.settle, settle_isQuiet _ _⟩
  | wait millis =>
      rw [ticks]
      induction millis with
      | zero =>
          rw [List.replicate_zero, List.append_nil]
          exact ⟨now, course, quiet⟩
      | succ millis inductionHypothesis =>
          rcases inductionHypothesis with ⟨reached, courseThere, quietThere⟩
          rw [List.replicate_succ', ← List.append_assoc]
          exact ⟨_, (courseThere.passes quietThere).settle, settle_isQuiet _ _⟩

/-- The timer can always be waited for, so some course leads through any further events to a state in
which it has nothing to do. -/
theorem Course.exists_quiet (course : Course deadline first events now)
    (quiet : IsQuiet deadline now) (further : List DeadlineEvent) :
    exists later,
      Course deadline first (events ++ inMillis further) later ∧ IsQuiet deadline later := by
  induction further generalizing events now with
  | nil =>
      rw [inMillis, List.flatMap_nil, List.append_nil]
      exact ⟨now, course, quiet⟩
  | cons event further inductionHypothesis =>
      rcases course.exists_quiet_ticks quiet event with ⟨between, courseThere, quietThere⟩
      rw [inMillis, List.flatMap_cons, ← List.append_assoc]
      exact inductionHypothesis courseThere quietThere

/-! ## What a state says about the events -/

/-- What has happened, as the tokens and the timer show it.  The timer cannot have ended for no reason,
but it may still have to run. -/
structure Accounts (deadline : Deadline) (events : List DeadlineEvent) (now : DeadlineState) :
    Prop where
  millis : now.nowMillis = elapsed events
  parent : now.parentCancelled = true <->
    .cancel ∈ events ∨ deadline.watched = .parent ∧ now.timerFinished = true
  child : now.childCancelled = true <-> now.parentCancelled = true ∨ now.timerFinished = true
  finished : now.timerFinished = true -> .cancel ∈ events ∨ deadline.dueMillis ≤ elapsed events

namespace Accounts

theorem start (deadline : Deadline) : Accounts deadline [] DeadlineState.start where
  millis := rfl
  parent := by simp [DeadlineState.start]
  child := by simp [DeadlineState.start]
  finished := by simp [DeadlineState.start]

/-- The watched token is cancelled from outside or by the timer. -/
theorem watched (accounts : Accounts deadline events now) :
    now.isCancelled deadline.watched = true <-> .cancel ∈ events ∨ now.timerFinished = true := by
  cases isWatched : deadline.watched with
  | parent =>
      change now.parentCancelled = true <-> _
      rw [accounts.parent, isWatched]
      simp only [true_and]
  | child =>
      change now.childCancelled = true <-> _
      rw [accounts.child, accounts.parent, isWatched]
      simp only [reduceCtorEq, false_and, or_false]

theorem fires (accounts : Accounts deadline events now)
    (due : deadline.dueMillis ≤ now.nowMillis) :
    Accounts deadline events { now.cancel deadline.watched with timerFinished := true } := by
  have reason : .cancel ∈ events ∨ deadline.dueMillis ≤ elapsed events :=
    Or.inr (accounts.millis ▸ due)
  cases isWatched : deadline.watched with
  | parent =>
      exact ⟨accounts.millis, by simp [cancel, isWatched], by simp [cancel], fun _ => reason⟩
  | child =>
      refine ⟨accounts.millis, ?_, by simp [cancel], fun _ => reason⟩
      have parent := accounts.parent
      simp only [isWatched, reduceCtorEq, false_and, or_false] at parent ⊢
      exact parent

theorem yields (accounts : Accounts deadline events now) (running : now.timerFinished = false)
    (cancelled : now.isCancelled deadline.watched = true) :
    Accounts deadline events { now with timerFinished := true } := by
  have fromOutside : .cancel ∈ events := by
    rcases accounts.watched.mp cancelled with fromOutside | finished
    · exact fromOutside
    · exact Bool.noConfusion (running.symm.trans finished)
  have parentCancelled : now.parentCancelled = true := accounts.parent.mpr (Or.inl fromOutside)
  have childCancelled : now.childCancelled = true := accounts.child.mpr (Or.inl parentCancelled)
  exact ⟨accounts.millis, iff_of_true parentCancelled (Or.inl fromOutside),
    iff_of_true childCancelled (Or.inr rfl), fun _ => Or.inl fromOutside⟩

theorem turn (accounts : Accounts deadline events now) (turn : Turn deadline now later) :
    Accounts deadline events later := by
  cases turn with
  | fires _ due => exact accounts.fires due
  | yields running cancelled => exact accounts.yields running cancelled

theorem cancelled (accounts : Accounts deadline events now) :
    Accounts deadline (events ++ [.cancel]) (now.cancel .parent) := by
  have fromOutside : .cancel ∈ events ++ [.cancel] := List.mem_append_right _ List.mem_cons_self
  refine ⟨?_, iff_of_true rfl (Or.inl fromOutside), iff_of_true rfl (Or.inl rfl),
    fun _ => Or.inl fromOutside⟩
  rw [elapsed_append]
  exact accounts.millis

theorem waited (accounts : Accounts deadline events now) (millis : Nat) :
    Accounts deadline (events ++ [.wait millis])
      { now with nowMillis := now.nowMillis + millis } := by
  have sameCancels : .cancel ∈ events ++ [.wait millis] <-> .cancel ∈ events := by
    simp only [List.mem_append, List.mem_singleton, reduceCtorEq, or_false]
  have later : elapsed (events ++ [.wait millis]) = elapsed events + millis :=
    elapsed_append events [.wait millis]
  refine ⟨?_, ?_, accounts.child, ?_⟩
  · rw [later, ← accounts.millis]
  · rw [sameCancels]
    exact accounts.parent
  · intro finished
    rw [sameCancels, later]
    exact (accounts.finished finished).imp_right fun due => Nat.le_add_right_of_le due

theorem settle (accounts : Accounts deadline events now) :
    Accounts deadline events (settle deadline now) := by
  rcases settle_cases deadline now with same | turn
  · rw [same]
    exact accounts
  · exact accounts.turn turn

theorem step (accounts : Accounts deadline events now) (event : DeadlineEvent) :
    Accounts deadline (events ++ [event]) (step deadline now event) := by
  cases event with
  | wait millis => exact (accounts.waited millis).settle
  | cancel => exact accounts.cancelled.settle

theorem run (accounts : Accounts deadline events now) (further : List DeadlineEvent) :
    Accounts deadline (events ++ further) (run deadline now further) := by
  induction further generalizing events now with
  | nil =>
      rw [List.append_nil]
      exact accounts
  | cons event further inductionHypothesis =>
      rw [List.append_cons]
      exact inductionHypothesis (accounts.step event)

/-- Stopping after every millisecond makes no difference to what has happened. -/
theorem ofInMillis (accounts : Accounts deadline (inMillis events) now) :
    Accounts deadline events now := by
  rcases accounts with ⟨millis, parent, child, finished⟩
  rw [elapsed_inMillis] at millis finished
  rw [cancel_mem_inMillis_iff] at parent finished
  exact ⟨millis, parent, child, finished⟩

/-- The timer has nothing to do: it has ended exactly if there was a reason to. -/
theorem finished_iff (accounts : Accounts deadline events now) (quiet : IsQuiet deadline now) :
    now.timerFinished = true <-> .cancel ∈ events ∨ deadline.dueMillis ≤ elapsed events := by
  constructor
  · exact accounts.finished
  · intro reason
    rcases isQuiet_iff.mp quiet with finished | ⟨standing, early⟩
    · exact finished
    · rcases reason with fromOutside | due
      · have cancelled := accounts.watched.mpr (Or.inl fromOutside)
        exact Bool.noConfusion (standing.symm.trans cancelled)
      · rw [accounts.millis] at early
        exact absurd early (Nat.not_lt_of_le due)

/-- The events determine the state in which the timer has nothing to do. -/
theorem unique (accounts : Accounts deadline events now) (quiet : IsQuiet deadline now)
    (others : Accounts deadline events later) (quietToo : IsQuiet deadline later) : now = later := by
  have sameTimer : now.timerFinished = later.timerFinished := by
    rw [Bool.eq_iff_iff, accounts.finished_iff quiet, others.finished_iff quietToo]
  have sameParent : now.parentCancelled = later.parentCancelled := by
    rw [Bool.eq_iff_iff, accounts.parent, others.parent, sameTimer]
  have sameChild : now.childCancelled = later.childCancelled := by
    rw [Bool.eq_iff_iff, accounts.child, others.child, sameTimer, sameParent]
  exact DeadlineState.ext (accounts.millis.trans others.millis.symm) sameParent sameChild sameTimer

end Accounts

theorem Course.accounts (course : Course deadline start events now) :
    Accounts deadline events now := by
  induction course with
  | already => exact .start deadline
  | turn _ turn inductionHypothesis => exact inductionHypothesis.turn turn
  | cancelled _ inductionHypothesis => exact inductionHypothesis.cancelled
  | passes _ _ inductionHypothesis => exact inductionHypothesis.waited 1

/-! ## Every point of time -/

/-- Whatever the timer's turns are, the events lead to one state in which it has nothing to do. -/
theorem course_iff (deadline : Deadline) (events : List DeadlineEvent) (state : DeadlineState) :
    Course deadline start (inMillis events) state ∧ IsQuiet deadline state <->
      state = run deadline (settle deadline start) events := by
  have quietFirst : IsQuiet deadline (settle deadline start) := settle_isQuiet deadline start
  have quietLast := run_isQuiet quietFirst events
  have accounts : Accounts deadline events (run deadline (settle deadline start) events) :=
    (Accounts.start deadline).settle.run events
  constructor
  · rintro ⟨course, quiet⟩
    exact course.accounts.ofInMillis.unique quiet accounts quietLast
  · rintro rfl
    have courseFirst : Course deadline start [] (settle deadline start) := Course.already.settle
    rcases courseFirst.exists_quiet quietFirst events with ⟨reached, course, quiet⟩
    -- Some course gets through; that it ends in this very state is uniqueness again.
    have same := course.accounts.ofInMillis.unique quiet accounts quietLast
    rw [← same]
    exact ⟨course, quiet⟩

/-- The tokens and the timer of a deadline after any waits and cancellations of the parent.  The events
may end in the middle of a wait, so every point of time is the end of some. -/
theorem tokens_at_every_point (deadline : Deadline) (events : List DeadlineEvent) :
    let point := run deadline (settle deadline start) events
    (forall state, Course deadline start (inMillis events) state ∧ IsQuiet deadline state <->
      state = point) ∧
    point.nowMillis = elapsed events ∧
    (deadline.watched = .parent ->
      (point.parentCancelled = true <->
        .cancel ∈ events ∨ deadline.dueMillis ≤ elapsed events) ∧
      (point.childCancelled = true <-> point.parentCancelled = true)) ∧
    (deadline.watched = .child ->
      (point.parentCancelled = true <-> .cancel ∈ events) ∧
      (point.childCancelled = true <->
        point.parentCancelled = true ∨ deadline.dueMillis ≤ elapsed events)) ∧
    (point.timerFinished = true <-> point.isCancelled deadline.watched = true) ∧
    forall (earlier later : DeadlineState) (between : List DeadlineEvent) (token : Token),
      Course deadline earlier between later -> earlier.isCancelled token = true ->
        later.isCancelled token = true := by
  intro point
  have quiet : IsQuiet deadline point := run_isQuiet (settle_isQuiet deadline start) events
  have accounts : Accounts deadline events point := (Accounts.start deadline).settle.run events
  have finished := accounts.finished_iff quiet
  refine ⟨course_iff deadline events, accounts.millis, ?onParent, ?onChild, ?timer, ?kept⟩
  case onParent =>
    intro isWatched
    have parent := accounts.watched
    rw [isWatched] at parent
    change point.parentCancelled = true <-> _ at parent
    constructor
    · rw [parent, finished, ← or_assoc, or_self]
    · rw [accounts.child, or_iff_left_iff_imp]
      exact fun ended => parent.mpr (Or.inr ended)
  case onChild =>
    intro isWatched
    have parent : point.parentCancelled = true <-> .cancel ∈ events := by
      rw [accounts.parent, isWatched]
      simp only [reduceCtorEq, false_and, or_false]
    refine ⟨parent, ?_⟩
    rw [accounts.child, finished, parent, ← or_assoc, or_self]
  case timer =>
    rw [accounts.watched, finished, ← or_assoc, or_self]
  case kept =>
    intro earlier later between token course already
    exact course.isCancelled token already

/-- A deadline of five milliseconds, seven milliseconds after its beginning.  On the parent it has
cancelled both tokens.  On the child it has left the parent alone, and the child stays cancelled when
the parent is cancelled as well. -/
theorem tokens_at_every_point_overdue :
    ((run ⟨5, .parent⟩ (settle ⟨5, .parent⟩ start) [.wait 7]).parentCancelled = true <->
      .cancel ∈ [DeadlineEvent.wait 7] ∨ 5 ≤ elapsed [.wait 7]) ∧
    ((run ⟨5, .child⟩ (settle ⟨5, .child⟩ start) [.wait 7]).parentCancelled = true <->
      .cancel ∈ [DeadlineEvent.wait 7]) ∧
    ((run ⟨5, .child⟩ (settle ⟨5, .child⟩ start) [.wait 7]).cancel .parent).isCancelled .child = true := by
  have onParent := tokens_at_every_point ⟨5, .parent⟩ [.wait 7]
  have onChild := tokens_at_every_point ⟨5, .child⟩ [.wait 7]
  refine ⟨(onParent.2.2.1 rfl).1, (onChild.2.2.2.1 rfl).1, ?_⟩
  exact onChild.2.2.2.2.2 _ _ _ .child (.cancelled .already) (by decide)

end DeadlineState
end QueryFederation

/-!
# Moments of a call

All units of work of a call run on one thread under a virtual clock.  The clock advances only when
nothing can run, so a call takes no time but the delays of its backends.

Within one millisecond work is done in rounds: what is woken in one round runs in the next one.  A
moment is therefore a time in milliseconds together with a round, or with the end of all rounds,
when nothing more can run at that time.  Whoever waits outside of the units is woken only then.

Moments are ordered first by time and then by round.  That order decides every race between a
cancellation and an answer.
-/

namespace QueryFederation

/-- A part of one millisecond of virtual time. -/
inductive Phase where
  /-- A round of work. -/
  | round (number : Nat)
  /-- The end of all rounds. -/
  | settled
  deriving DecidableEq, Repr

namespace Phase

/-- Whether one part lies before another. -/
def isBefore : Phase -> Phase -> Bool
  | round first, round second => decide (first < second)
  | round _, settled => true
  | settled, _ => false

/-- What is woken in this part runs in the next round; nothing is woken after the last one. -/
def next : Phase -> Phase
  | round number => round (number + 1)
  | settled => settled

end Phase

/-- A moment of a call. -/
@[ext]
structure Moment where
  millis : Nat
  phase : Phase
  deriving DecidableEq, Repr

namespace Moment

/-- Whether one moment lies before another. -/
def isBefore (first second : Moment) : Bool :=
  decide (first.millis < second.millis) ||
    (decide (first.millis = second.millis) && first.phase.isBefore second.phase)

/-- The later of two moments. -/
def later (first second : Moment) : Moment :=
  if first.isBefore second then second else first

/-- The moment at which runs what is woken at this one. -/
def next (moment : Moment) : Moment :=
  ⟨moment.millis, moment.phase.next⟩

/-- The moment at which nothing more can run at this time. -/
def settle (moment : Moment) : Moment :=
  ⟨moment.millis, .settled⟩

/-- A timer of this length, set when a call begins, wakes its owner in the first round of its
millisecond. -/
def ofTimer (millis : Nat) : Moment :=
  ⟨millis, .round 0⟩

/-- The beginning of every call.  The round before it is left to a cancellation that comes first. -/
def callStart : Moment :=
  ⟨0, .round 1⟩

end Moment

/-- When the caller withdraws a call. -/
inductive Cancellation where
  /-- Before the call begins. -/
  | upFront
  /-- A time after its beginning. -/
  | after (millis : Nat)
  deriving DecidableEq, Repr

namespace Cancellation

/-- The moment at which a call learns of its cancellation.  A deadline is kept by a unit of its own,
which is woken like all others. -/
def moment : Cancellation -> Moment
  | upFront => ⟨0, .round 0⟩
  | after millis => ⟨millis, .round 2⟩

end Cancellation
end QueryFederation

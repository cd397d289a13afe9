import Mathlib.Data.Prod.Lex
import Mathlib.Order.WithBot
import QueryFederation.Federation.Moment

/-!
# The order of moments

Moments are ordered by time and then by round, with the end of all rounds above every round.  This is
a linear order, and the test `isBefore`, by which every race of a call is decided, is its strict part.
-/

namespace QueryFederation

namespace Phase

/-- The place of a part of a millisecond among all parts. -/
def height : Phase -> WithTop Nat
  | round number => WithTop.some number
  | settled => ⊤

theorem height_injective : Function.Injective height := by
  intro first second same
  cases first with
  | round number =>
      cases second with
      | round other => exact congrArg round (WithTop.coe_injective same)
      | settled => exact absurd same WithTop.coe_ne_top
  | settled =>
      cases second with
      | round other => exact absurd same.symm WithTop.coe_ne_top
      | settled => rfl

theorem isBefore_iff (first second : Phase) :
    first.isBefore second = true <-> first.height < second.height := by
  cases first with
  | round number =>
      cases second with
      | round other => simp [isBefore, height]
      | settled => simp [isBefore, height]
  | settled => cases second <;> simp [isBefore, height]

theorem height_le_next (phase : Phase) : phase.height ≤ phase.next.height := by
  cases phase with
  | round number => exact WithTop.coe_le_coe.mpr (Nat.le_succ number)
  | settled => exact le_refl _

end Phase

namespace Moment

/-- The place of a moment among all moments. -/
def key (moment : Moment) : Nat ×ₗ WithTop Nat :=
  toLex (moment.millis, moment.phase.height)

theorem key_injective : Function.Injective key := by
  intro first second same
  have parts := Prod.ext_iff.mp (toLex.injective same)
  exact Moment.ext parts.1 (Phase.height_injective parts.2)

instance : LinearOrder Moment :=
  LinearOrder.lift' key key_injective

theorem lt_iff (first second : Moment) :
    first < second <-> first.millis < second.millis ∨
      first.millis = second.millis ∧ first.phase.height < second.phase.height :=
  Prod.Lex.toLex_lt_toLex

theorem le_iff (first second : Moment) :
    first ≤ second <-> first.millis < second.millis ∨
      first.millis = second.millis ∧ first.phase.height ≤ second.phase.height :=
  Prod.Lex.toLex_le_toLex

/-- The test by which races are decided is the strict order. -/
theorem isBefore_iff (first second : Moment) : first.isBefore second = true <-> first < second := by
  rw [lt_iff]
  unfold isBefore
  simp only [Bool.or_eq_true, Bool.and_eq_true, decide_eq_true_eq, Phase.isBefore_iff]

theorem isBefore_eq_false_iff (first second : Moment) :
    first.isBefore second = false <-> second ≤ first := by
  rw [← Bool.not_eq_true, isBefore_iff, not_lt]

theorem later_eq_max (first second : Moment) : later first second = max first second := by
  unfold later
  by_cases before : first.isBefore second = true
  · rw [if_pos before, max_eq_right (le_of_lt ((isBefore_iff first second).mp before))]
  · rw [if_neg before, max_eq_left]
    exact (isBefore_eq_false_iff first second).mp (Bool.not_eq_true _ ▸ before)

/-! ## Times -/

theorem millis_le_of_le {first second : Moment} (notAfter : first ≤ second) :
    first.millis ≤ second.millis := by
  rcases (le_iff first second).mp notAfter with earlier | ⟨same, _⟩
  · exact Nat.le_of_lt earlier
  · exact Nat.le_of_eq same

theorem lt_of_millis_lt {first second : Moment} (earlier : first.millis < second.millis) :
    first < second :=
  (lt_iff first second).mpr (Or.inl earlier)

theorem max_millis (first second : Moment) :
    (max first second).millis = max first.millis second.millis := by
  rcases le_total first second with notAfter | notAfter
  · rw [max_eq_right notAfter, max_eq_right (millis_le_of_le notAfter)]
  · rw [max_eq_left notAfter, max_eq_left (millis_le_of_le notAfter)]

/-! ## What is woken at a moment -/

theorem next_millis (moment : Moment) : moment.next.millis = moment.millis := rfl

theorem le_next (moment : Moment) : moment ≤ moment.next :=
  (le_iff _ _).mpr (Or.inr ⟨rfl, Phase.height_le_next moment.phase⟩)

theorem le_settle (moment : Moment) : moment ≤ moment.settle :=
  (le_iff _ _).mpr (Or.inr ⟨rfl, le_top⟩)

/-- A moment that is a round of its millisecond; everything but the caller lives in these. -/
def IsRound (moment : Moment) : Prop :=
  exists number, moment.phase = .round number

theorem IsRound.lt_next {moment : Moment} (isRound : moment.IsRound) : moment < moment.next := by
  rcases isRound with ⟨number, phase⟩
  refine (lt_iff _ _).mpr (Or.inr ⟨rfl, ?_⟩)
  rw [Moment.next, phase]
  exact WithTop.coe_lt_coe.mpr (Nat.lt_succ_self number)

/-- What wakes others by a round happens before that round. -/
theorem IsRound.lt_of_next_le {first second : Moment} (isRound : second.IsRound)
    (notAfter : first.next ≤ second) : first < second := by
  refine lt_of_le_of_ne (le_trans (le_next first) notAfter) ?_
  rintro rfl
  exact absurd isRound.lt_next (not_lt_of_ge notAfter)

theorem IsRound.lt_settle {moment : Moment} (isRound : moment.IsRound) : moment < moment.settle := by
  rcases isRound with ⟨number, phase⟩
  refine (lt_iff _ _).mpr (Or.inr ⟨rfl, ?_⟩)
  rw [phase]
  exact WithTop.coe_lt_top number

/-- A call begins before its deadline, even if that is no time at all. -/
theorem callStart_lt_after (millis : Nat) : callStart < (Cancellation.after millis).moment := by
  refine (lt_iff _ _).mpr ?_
  cases millis with
  | zero => exact Or.inr ⟨rfl, WithTop.coe_lt_coe.mpr (by decide)⟩
  | succ millis => exact Or.inl (Nat.succ_pos millis)

end Moment
end QueryFederation

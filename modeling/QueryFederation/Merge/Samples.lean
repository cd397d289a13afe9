import QueryFederation.Series.Result

/-!
# Merging the samples of one series

Redundant backends measure the same quantity at slightly different times.  Two samples of one series
whose distance is within the anti-affinity window count as the same measurement, and the earlier one
stands for both.

The merge walks two lists at once, always taking the smaller timestamp and on a tie the first list's
sample, and keeps a sample if it lies more than the window after the last one kept.  Lists that are
not sorted are walked in the same way; what is kept is spaced all the same, because a sample earlier
than the last one kept is within every window.
-/

namespace QueryFederation
namespace Merge

/-- The greatest distance of two timestamps that is told apart. -/
def greatestDistance : Int :=
  Nat.pow 2 63 - 1

/-- A window in whole milliseconds; wider ones than timestamps can be apart are cut. -/
def windowMillis (window : Duration) : Int :=
  min (window.millis : Int) greatestDistance

/-- How long after the last kept sample a candidate lies, within the range of 64-bit integers. -/
def distanceAfter (last candidate : Timestamp64) : Int :=
  max (-(Nat.pow 2 63)) (min greatestDistance (candidate.toInt - last.toInt))

/-- The samples of two lists in the order of the walk. -/
def interleave : List Sample -> List Sample -> List Sample
  | [], second => second
  | first, [] => first
  | head :: rest, other :: others =>
      if other.timestamp < head.timestamp then other :: interleave (head :: rest) others
      else head :: interleave rest (other :: others)
termination_by first second => first.length + second.length

/-- Keep the samples that lie more than the window after the last one kept. -/
def thinAfter (window : Int) (last : Timestamp64) : List Sample -> List Sample
  | [] => []
  | sample :: rest =>
      if distanceAfter last sample.timestamp ≤ window then thinAfter window last rest
      else sample :: thinAfter window sample.timestamp rest

/-- Keep the first sample and then those that lie more than the window after the last one kept. -/
def thin (window : Int) : List Sample -> List Sample
  | [] => []
  | sample :: rest => sample :: thinAfter window sample.timestamp rest

/-- Merge two lists of samples under a window in milliseconds. -/
def samplesWithin (window : Int) (first second : List Sample) : List Sample :=
  thin window (interleave first second)

/-- Merge two lists of samples of one series. -/
def samples (window : Duration) (first second : List Sample) : List Sample :=
  samplesWithin (windowMillis window) first second

end Merge
end QueryFederation

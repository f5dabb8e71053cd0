import Mathlib.Algebra.Ring.Nat
import Mathlib.Data.Int.Notation
import Mathlib.Data.Nat.Notation

/-!
# Clock readings and timeouts

A `steady_clock` time point is an integer number of nanoseconds. A `folly::AsyncTimeout` is either
idle or scheduled for one deadline; it is idle again by the time its callback runs.
-/

namespace Fbmeshd

/-- `std::chrono::milliseconds` as a duration of the clock. -/
def milliseconds (n : ℕ) : ℤ := (n : ℤ) * 1000000

/-- `std::chrono::seconds` as a duration of the clock. -/
def seconds (n : ℕ) : ℤ := milliseconds (1000 * n)

/-- A `folly::AsyncTimeout`: the deadline it is scheduled for, if any. -/
abbrev AsyncTimeout := Option ℤ

/-- `scheduleTimeout` replaces whatever was scheduled before. -/
def AsyncTimeout.scheduleTimeout (now duration : ℤ) : AsyncTimeout := some (now + duration)

/-- `isScheduled`. -/
def AsyncTimeout.isScheduled (t : AsyncTimeout) : Bool := t.isSome

/-- `cancelTimeout`. -/
def AsyncTimeout.cancelTimeout (_t : AsyncTimeout) : AsyncTimeout := none

end Fbmeshd

import Mathlib.Algebra.Group.Int.Defs
import Mathlib.Algebra.Group.Nat.Defs
import Mathlib.Data.Int.Basic

/-! Clock readings and time spans.
`SystemTime` is a signed count of nanoseconds from the Unix epoch. A platform reading
holds its seconds in an `i64`, which bounds what `checked_add` can return.
-/

namespace Distributed.Platform

abbrev SystemTime : Type := Int

/-- A span of time in nanoseconds. -/
abbrev Duration : Type := Nat

def nanosPerSecond : Nat := 1000000000

/-- The first instant past the range of a 64-bit `SystemTime`. -/
def systemTimeLimit : Int := 2 ^ 63 * nanosPerSecond

/-- `SystemTime::checked_add`. -/
def SystemTime.checkedAdd (time : SystemTime) (span : Duration) : Option SystemTime :=
  if time + span < systemTimeLimit then some (time + span) else none

theorem SystemTime.checkedAdd_eq_some {time deadline : SystemTime} {span : Duration}
    : SystemTime.checkedAdd time span = some deadline
      ↔ time + span < systemTimeLimit ∧ deadline = time + span := by
  unfold SystemTime.checkedAdd
  by_cases h : time + span < systemTimeLimit
  · simp [h, eq_comm]
  · simp [h]

/-- `duration_since(UNIX_EPOCH)` in whole seconds, absent before the epoch. -/
def SystemTime.epochSeconds (time : SystemTime) : Option Nat :=
  if 0 ≤ time then some (time.toNat / nanosPerSecond) else none

/-- The `Debug` form of a Unix `SystemTime`. -/
def SystemTime.debug (time : SystemTime) : String :=
  let seconds := Int.fdiv time nanosPerSecond
  let nanos := Int.fmod time nanosPerSecond
  s!"SystemTime \x7b tv_sec: {seconds}, tv_nsec: {nanos} \x7d"

end Distributed.Platform

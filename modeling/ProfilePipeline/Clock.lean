/-!
# Time

Times are nanoseconds since the epoch in 64 bits.  A time that does not fit saturates, and a time
before the epoch is zero; only a clock that is moved by hand wraps around.

Delays are measured by another clock, which only runs forwards and counts milliseconds from where it
began.  It neither saturates nor wraps around: a moment that does not fit is none.
-/

namespace ProfilePipeline

/-- A length of time: whole seconds and nanoseconds. -/
structure Duration where
  seconds : Nat
  nanos : Nat
  deriving DecidableEq, Repr

namespace Duration

/-- The length in nanoseconds, at most the largest 64-bit number. -/
def saturatedNanos (d : Duration) : UInt64 :=
  (min (d.seconds * 1000000000 + d.nanos) 0xffffffffffffffff).toUInt64

end Duration

/-- A moment of calendar time, by its distance from the epoch. -/
inductive Moment where
  | after (d : Duration)
  | before (d : Duration)
  deriving DecidableEq, Repr

namespace Moment

/-- Nanoseconds since the epoch.  The epoch itself may be reached from either side. -/
def epochNanos : Moment → UInt64
  | after d => d.saturatedNanos
  | before _ => 0

end Moment

/-- A clock which only moves when told to. -/
structure ManualClock where
  now : UInt64 := 0
  deriving DecidableEq, Repr, Inhabited

namespace ManualClock

/-- Moves the clock to a time. -/
def set (_ : ManualClock) (now : UInt64) : ManualClock := ⟨now⟩

/-- Moves the clock on; past the largest time it starts from zero again. -/
def advance (c : ManualClock) (d : Duration) : ManualClock := ⟨c.now + d.saturatedNanos⟩

end ManualClock

namespace SteadyClock

/-- The number of milliseconds that a clock for delays can count: its seconds are a signed 64-bit
number. -/
def range : Nat := 0x8000000000000000 * 1000

/-- The moment at which a delay from `now` on is over, if the clock can tell it. -/
def after? (now delay : Nat) : Option Nat :=
  if now + delay < range then some (now + delay) else none

theorem after?_eq_none_iff {now delay : Nat} : after? now delay = none ↔ range ≤ now + delay := by
  rw [after?]
  split
  · exact ⟨nofun, fun _ => by omega⟩
  · exact ⟨fun _ => by omega, fun _ => rfl⟩

end SteadyClock

end ProfilePipeline

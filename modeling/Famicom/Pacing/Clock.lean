/-!
# Manual clocks

A clock that moves only when it is told to.  It counts nanoseconds and cannot show 2^64 seconds
or more.
-/

namespace Famicom.Pacing

def nanosPerSecond : Nat := 1000000000

/-- The first number that does not fit into 64 bits. -/
def countLimit : Nat := 0x10000000000000000

/-- The first reading that a clock cannot show. -/
def clockLimit : Nat := countLimit * nanosPerSecond

structure ManualClock where
  nanos : Nat
  nanos_lt : nanos < clockLimit
  deriving DecidableEq

namespace ManualClock

def zero : ManualClock :=
  ⟨0, by decide⟩

/-- Moves a clock forward, unless it would pass its limit. -/
def advance? (clock : ManualClock) (nanos : Nat) : Option ManualClock :=
  if h : clock.nanos + nanos < clockLimit then some ⟨clock.nanos + nanos, h⟩ else none

def seconds (clock : ManualClock) : Nat :=
  clock.nanos / nanosPerSecond

def subsecond (clock : ManualClock) : Nat :=
  clock.nanos % nanosPerSecond

end ManualClock

end Famicom.Pacing

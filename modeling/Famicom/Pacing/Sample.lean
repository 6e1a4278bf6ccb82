import Famicom.Decimal.Shortest
import Famicom.Pacing.Clock

/-!
# Speed samples

What was measured over one epoch: the cycles, the host time they took, the clock rate that
amounts to and its share of the target clock.  Time is counted in nanoseconds.
-/

namespace Famicom.Pacing

/-- The largest number of 64 bits, at which rates saturate. -/
def maxRate : Nat := countLimit - 1

structure Sample where
  cycles : Nat
  /-- Host time in nanoseconds, at least one. -/
  elapsed : Nat
  /-- Cycles a second, rounded down. -/
  clockHz : Nat
  speedPercent : Nat
  deriving DecidableEq

namespace Sample

/-- A rate as a share of a target, in percent, rounded to the nearest; computed in double
precision. -/
def percentOf (clockHz target : Nat) : Nat :=
  (clockHz.toUInt64.toFloat / (max target 1).toUInt64.toFloat * 100.0).round.toUInt64.toNat

def measure (cycles elapsed target : Nat) : Sample :=
  let elapsed := max elapsed 1
  let clockHz := min maxRate (cycles * nanosPerSecond / elapsed)
  ⟨cycles, elapsed, clockHz, percentOf clockHz target⟩

def elapsedSeconds (s : Sample) : Float :=
  (s.elapsed / nanosPerSecond).toUInt64.toFloat +
    (s.elapsed % nanosPerSecond).toUInt64.toFloat / 1000000000.0

def elapsedBinary (s : Sample) : Binary :=
  .ofBits s.elapsedSeconds.toBits

def elapsedFixed (s : Sample) : String :=
  let b := s.elapsedBinary
  Decimal.fixed 6 b.num b.den

/-- Host time in seconds with the fewest digits, positional from 10^-5 up to below 10^16. -/
def elapsedText (s : Sample) : String :=
  let d := s.elapsedBinary.shortest
  if -5 ≤ d.magnitude ∧ d.magnitude ≤ 15 then d.positional else d.scientific

end Sample

inductive Format where
  | text
  | json
  deriving DecidableEq

def Format.render : Format → Sample → String
  | .text, s => s!"Clock={s.clockHz}Hz ({s.speedPercent}% speed)"
  | .json, s =>
    s!"\x7b\"cycles\":{s.cycles},\"elapsed_secs\":{s.elapsedText}," ++
      s!"\"clock_hz\":{s.clockHz},\"speed_percent\":{s.speedPercent}\x7d"

end Famicom.Pacing

import Famicom.Cartridge.Image
import Famicom.Log.Basic
import Famicom.Pacing.Sample

/-!
# Epochs

A machine is run as fast as the host allows, in epochs of one second of its own time: it is
stepped until the cycles of the epoch reach the target clock, and the host time that took gives
a speed sample.  Whether to go on is asked between epochs only.

Machine and host are given by their actions in a monad, so the same loop runs against real time
and against a clock in a state.  A machine need not make progress; `horizon` bounds the steps of
an epoch and the number of epochs.
-/

namespace Famicom.Pacing

/-- A machine that is stepped; a step gives the cycles it took. -/
structure Machine (m : Type → Type) (σ ε : Type) where
  reset : σ → m σ
  step : σ → m (Except ε Nat × σ)

/-- The surroundings of a run. -/
structure Host (m : Type → Type) where
  /-- Reads the clock, in nanoseconds from some fixed time. -/
  now : m Nat
  emit : Sample → m Unit
  /-- The run is to end at the next boundary between epochs. -/
  cancelled : m Bool
  log : Log.Record → m Unit

inductive Outcome (ε α : Type) where
  | finished (value : α)
  | faulted (error : ε)
  /-- The horizon was reached. -/
  | exhausted
  deriving DecidableEq

inductive RunError (ε : Type) where
  /-- The image was rejected and no machine was built. -/
  | format (error : Cartridge.FormatError)
  | fault (error : ε)
  deriving DecidableEq

def RunError.message {ε : Type} : RunError ε → String
  | .format error => error.message
  | .fault _ => "console fault"

def RunError.causes {ε : Type} (describe : ε → String) : RunError ε → List String
  | .format _ => []
  | .fault error => [describe error]

def logTarget : String := "emu_pacer::driver"

def epochRecord (epoch : Nat) (sample : Sample) : Log.Record :=
  ⟨.debug, logTarget, s!"epoch {epoch}: {sample.cycles} cycles in {sample.elapsedFixed}s"⟩

section

variable {m : Type → Type} [Monad m] {σ ε : Type}

/-- Steps a machine until `budget` cycles have passed; gives the cycles in all. -/
@[specialize]
def runSteps (machine : Machine m σ ε) (budget : Nat) :
    (horizon cycles : Nat) → σ → m (Outcome ε Nat × σ)
  | 0, cycles, state =>
    pure (if budget ≤ cycles then .finished cycles else .exhausted, state)
  | horizon + 1, cycles, state => do
    if budget ≤ cycles then
      return (.finished cycles, state)
    match ← machine.step state with
    | (.ok spent, state) => runSteps machine budget horizon (cycles + spent) state
    | (.error error, state) => return (.faulted error, state)

@[specialize]
def runEpoch (machine : Machine m σ ε) (host : Host m) (target horizon : Nat) (state : σ) :
    m (Outcome ε Sample × σ) := do
  let start ← host.now
  match ← runSteps machine target horizon 0 state with
  | (.finished cycles, state) =>
    let stop ← host.now
    return (.finished (.measure cycles (stop - start) target), state)
  | (.faulted error, state) => return (.faulted error, state)
  | (.exhausted, state) => return (.exhausted, state)

/-- Runs epochs from number `epoch` on until the host cancels; gives the epochs completed. -/
@[specialize]
def paceFrom (machine : Machine m σ ε) (host : Host m) (target horizon : Nat) :
    (rounds epoch : Nat) → σ → m (Outcome ε Nat × σ)
  | 0, _, state => pure (.exhausted, state)
  | rounds + 1, epoch, state => do
    if ← host.cancelled then
      host.log ⟨.info, logTarget, s!"cancelled after {epoch} epochs"⟩
      return (.finished epoch, state)
    match ← runEpoch machine host target horizon state with
    | (.finished sample, state) =>
      host.log (epochRecord epoch sample)
      host.emit sample
      paceFrom machine host target horizon rounds (epoch + 1) state
    | (.faulted error, state) => return (.faulted error, state)
    | (.exhausted, state) => return (.exhausted, state)

@[specialize]
def pace (machine : Machine m σ ε) (host : Host m) (target horizon : Nat) (state : σ) :
    m (Outcome ε Nat × σ) :=
  paceFrom machine host target horizon horizon 0 state

/-- Reads an image, builds a machine around the cartridge, resets it and paces it.  A rejected
image ends the run before anything else happens. -/
@[specialize]
def runImage (machine : Machine m σ ε) (host : Host m) (target horizon : Nat)
    (build : Cartridge → m σ) (image : Array UInt8) : m (Outcome (RunError ε) Nat) := do
  match Cartridge.ofImage image with
  | .error error => return .faulted (.format error)
  | .ok cartridge =>
    host.log ⟨.info, logTarget, s!"cartridge: {cartridge.title}"⟩
    host.log ⟨.info, logTarget, s!"target clock {target} Hz"⟩
    let state ← build cartridge
    let state ← machine.reset state
    match ← pace machine host target horizon state with
    | (.finished epochs, _) => return .finished epochs
    | (.faulted error, _) => return .faulted (.fault error)
    | (.exhausted, _) => return .exhausted

end

end Famicom.Pacing

import Famicom.Console.Step
import Famicom.Console.Trace
import Famicom.Pacing.Epoch

/-!
# The console as a machine

A console can be paced: its events go to an observer, and resets and sprite transfers to the
log.
-/

namespace Famicom.Console

/-- A console whose events and log records go to the surroundings. -/
@[inline]
def machine {m : Type → Type} [Monad m] (probes : Probes) (observe : Event → m Unit)
    (log : Log.Record → m Unit) : Pacing.Machine m Console Cpu.Fault where
  reset console := do
    let console := console.reset
    log console.resetRecord
    return console
  step console :=
    match console.step probes with
    | (.ok quantum, console) => do
      quantum.events.forM observe
      return (.ok quantum.cycles, console)
    | (.error fault, console) => return (.error fault, console)

end Famicom.Console

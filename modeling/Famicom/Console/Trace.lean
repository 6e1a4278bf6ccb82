import Famicom.Console.Event
import Famicom.Log.Filter

/-!
# Tracing

Snapshots can be written to the log.  Only the asked ones are taken, and of those only the ones
that the log shows.
-/

namespace Famicom.Console

inductive TraceTarget where
  | cpu
  | ppu
  | mapper
  deriving DecidableEq

namespace TraceTarget

def word : TraceTarget → String
  | .cpu => "cpu"
  | .ppu => "ppu"
  | .mapper => "mapper"

def identifier : TraceTarget → String
  | .cpu => "Cpu"
  | .ppu => "Ppu"
  | .mapper => "Mapper"

def ofWord? (word : String) : Option TraceTarget :=
  [cpu, ppu, mapper].find? (·.word == word)

def logTarget (target : TraceTarget) : String :=
  "emu_nes::" ++ target.word

end TraceTarget

def Probes.ofTargets (targets : List TraceTarget) : Probes :=
  ⟨targets.contains .cpu, targets.contains .ppu, targets.contains .mapper⟩

/-- Drops the probes whose snapshots a log filter would not show. -/
def Probes.shownBy (p : Probes) (filter : Log.Filter) : Probes :=
  let shown (target : TraceTarget) : Bool := filter.enabled target.logTarget .trace
  ⟨p.cpu && shown .cpu, p.ppu && shown .ppu, p.mapper && shown .mapper⟩

/-- The log record of an event, if it has one: snapshots are traced under the name of their
target, sprite transfers under that of the console. -/
def Event.record? : Event → Option Log.Record
  | .dma page cycles => some (dmaRecord page cycles)
  | .cpu state => some ⟨.trace, TraceTarget.cpu.logTarget, state.stateLine⟩
  | .ppu state => some ⟨.trace, TraceTarget.ppu.logTarget, state.stateLine⟩
  | .mapper state => some ⟨.trace, TraceTarget.mapper.logTarget, state.stateLine⟩
  | .frame _ => none

end Famicom.Console

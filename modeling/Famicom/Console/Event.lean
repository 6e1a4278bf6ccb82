import Famicom.Board
import Famicom.Cpu.Step
import Famicom.Log.Basic
import Famicom.Ppu.Basic

/-!
# Events

What a step of the console shows to the outside, in order: completed frames and sprite
transfers always, snapshots of the processor, the picture processor and the mapper only where a
probe asks for them.
-/

namespace Famicom.Console

structure Probes where
  /-- After each instruction, interrupt entry or sprite transfer. -/
  cpu : Bool
  /-- After each dot. -/
  ppu : Bool
  /-- After the mapper observed a dot. -/
  mapper : Bool
  deriving DecidableEq

def Probes.none : Probes :=
  ⟨false, false, false⟩

def Probes.describe (p : Probes) : String :=
  s!"StepCallbacks \x7b mapper: {Text.boolean p.mapper}, cpu: {Text.boolean p.cpu}, " ++
    s!"ppu: {Text.boolean p.ppu} \x7d"

inductive Event where
  | dma (page : UInt8) (cycles : Nat)
  | cpu (state : Cpu)
  | ppu (state : Ppu.Snapshot)
  | mapper (state : Banking)
  | frame (frame : Frame)

def logTarget : String := "nes_console::console"

def dmaRecord (page : UInt8) (cycles : Nat) : Log.Record :=
  ⟨.trace, logTarget, s!"OAM DMA from ${Text.hexByte page}00, {cycles} cycles"⟩

end Famicom.Console

import Famicom.Bits
import Famicom.Board
import Famicom.Capture
import Famicom.Cartridge.Basic
import Famicom.Cartridge.Image
import Famicom.CommandLine.Options
import Famicom.CommandLine.Program
import Famicom.Console.Bus
import Famicom.Console.Event
import Famicom.Console.Machine
import Famicom.Console.Step
import Famicom.Console.Trace
import Famicom.Cpu.Addressing
import Famicom.Cpu.Bus
import Famicom.Cpu.Execute
import Famicom.Cpu.Instruction
import Famicom.Cpu.Opcode
import Famicom.Cpu.Registers
import Famicom.Cpu.Step
import Famicom.Decimal.Basic
import Famicom.Decimal.Shortest
import Famicom.File.Error
import Famicom.File.Tree
import Famicom.Frame
import Famicom.Log.Basic
import Famicom.Log.Filter
import Famicom.Main
import Famicom.Mapper.Basic
import Famicom.Mapper.Kind
import Famicom.Mapper.Mmc1
import Famicom.Mapper.Mmc3
import Famicom.Memory
import Famicom.Mirroring
import Famicom.Pacing.Clock
import Famicom.Pacing.Epoch
import Famicom.Pacing.Sample
import Famicom.Pattern.Basic
import Famicom.Pattern.Build
import Famicom.Pattern.CharSet
import Famicom.Pattern.Class
import Famicom.Pattern.Cursor
import Famicom.Pattern.Encoding
import Famicom.Pattern.Escape
import Famicom.Pattern.Extent
import Famicom.Pattern.Group
import Famicom.Pattern.Meaning
import Famicom.Pattern.Nesting
import Famicom.Pattern.Normal
import Famicom.Pattern.Position
import Famicom.Pattern.Problem
import Famicom.Pattern.Reader
import Famicom.Pattern.Tree
import Famicom.Png
import Famicom.Ppu.Background
import Famicom.Ppu.Basic
import Famicom.Ppu.Flags
import Famicom.Ppu.Palette
import Famicom.Ppu.PatternBus
import Famicom.Ppu.Raster
import Famicom.Ppu.Registers
import Famicom.Ppu.Scanline
import Famicom.Ppu.Scroll
import Famicom.Ppu.Sprite
import Famicom.Ppu.Tick
import Famicom.Proofs.Bits
import Famicom.Proofs.Board.Banking
import Famicom.Proofs.Capture
import Famicom.Proofs.Cartridge.Format
import Famicom.Proofs.Checked.Arithmetic
import Famicom.Proofs.Checked.Background
import Famicom.Proofs.Checked.Cartridge
import Famicom.Proofs.Checked.Console
import Famicom.Proofs.Checked.Frame
import Famicom.Proofs.Checked.Processor
import Famicom.Proofs.Checked.Registers
import Famicom.Proofs.Checked.Scanline
import Famicom.Proofs.Checked.Sprites
import Famicom.Proofs.Console.Bus
import Famicom.Proofs.Console.EpochBound
import Famicom.Proofs.Console.Fault
import Famicom.Proofs.Console.Interrupt
import Famicom.Proofs.Console.LineInterrupt
import Famicom.Proofs.Console.Lockstep
import Famicom.Proofs.Console.Reset
import Famicom.Proofs.Console.Run
import Famicom.Proofs.Console.Snapshots
import Famicom.Proofs.Console.SpriteTransfer
import Famicom.Proofs.Console.Transfer
import Famicom.Proofs.Console.WorkMemory
import Famicom.Proofs.Cpu.BinaryMode
import Famicom.Proofs.Cpu.Chains
import Famicom.Proofs.Cpu.Cost
import Famicom.Proofs.Cpu.Decimal
import Famicom.Proofs.Cpu.Digits
import Famicom.Proofs.Cpu.Driven
import Famicom.Proofs.Cpu.Effects
import Famicom.Proofs.Cpu.Fault
import Famicom.Proofs.Cpu.Footprint
import Famicom.Proofs.Cpu.InPlace
import Famicom.Proofs.Cpu.LastInFirstOut
import Famicom.Proofs.Cpu.Nesting
import Famicom.Proofs.Cpu.Operands
import Famicom.Proofs.Cpu.Rules
import Famicom.Proofs.Cpu.SavedStatus
import Famicom.Proofs.Cpu.Stack
import Famicom.Proofs.Cpu.Status
import Famicom.Proofs.Cpu.StraightLine
import Famicom.Proofs.Cpu.Transcript
import Famicom.Proofs.Cpu.Writes
import Famicom.Proofs.Frame
import Famicom.Proofs.Mapper.BankHistory
import Famicom.Proofs.Mapper.History
import Famicom.Proofs.Mapper.LineCounter
import Famicom.Proofs.Mapper.SerialPort
import Famicom.Proofs.Pacing.Calls
import Famicom.Proofs.Pacing.Partition
import Famicom.Proofs.Ppu.Bounds
import Famicom.Proofs.Ppu.Composition
import Famicom.Proofs.Ppu.DataPort
import Famicom.Proofs.Ppu.Dot
import Famicom.Proofs.Ppu.FrameCount
import Famicom.Proofs.Ppu.FreshPicture
import Famicom.Proofs.Ppu.Pace
import Famicom.Proofs.Ppu.PatternReads
import Famicom.Proofs.Ppu.Plane
import Famicom.Proofs.Ppu.Raster
import Famicom.Proofs.Ppu.RegisterWords
import Famicom.Proofs.Ppu.ScrolledPicture
import Famicom.Proofs.Ppu.StatusFlags
import Famicom.Proofs.Ppu.Sweep
import Famicom.Text
import Famicom.Text.Blank
import Famicom.Text.Control
import Famicom.Text.Letter

import Famicom.Ppu.Basic
import Famicom.Ppu.PatternBus

/-!
# Registers of the picture processor

The eight registers through which the processor reaches the picture processor, repeated every eight
bytes, and the address space behind the data register: pattern tables on the cartridge, nametables
and palettes here.
-/

namespace Famicom.Ppu

variable {β : Type} [PatternBus β]

/-! ### Video memory -/

/-- The byte of a nametable address under the mirroring in effect. -/
def nametableByte (ppu : Ppu) (bus : β) (address : Nat) : UInt8 :=
  ppu.nametables.get ((PatternBus.mirroring bus).nametableOffset address)

def vramRead (ppu : Ppu) (bus : β) (address : Nat) : UInt8 × β :=
  if address < 0x2000 then PatternBus.read bus address.toUInt16
  else if address < 0x3F00 then (ppu.nametableByte bus address, bus)
  else (ppu.palette.get (paletteIndex address), bus)

def vramWrite (ppu : Ppu) (bus : β) (address : Nat) (value : UInt8) : Ppu × β :=
  if address < 0x2000 then
    (ppu, PatternBus.write bus address.toUInt16 value)
  else if address < 0x3F00 then
    let i := (PatternBus.mirroring bus).nametableOffset address
    ({ ppu with nametables := ppu.nametables.set i value }, bus)
  else
    ({ ppu with palette := ppu.palette.set (paletteIndex address) (value &&& 0x3F) }, bus)

def vramAddress (ppu : Ppu) : Nat :=
  ppu.scroll.current.toNat % 0x4000

def stepAddress (ppu : Ppu) : Ppu :=
  { ppu with scroll := ppu.scroll.increment ppu.control.vramStep }

/-! ### Sprite memory -/

def readOam (ppu : Ppu) : UInt8 :=
  ppu.oam.get ppu.oamAddress.toFin

/-- Stores a byte at the sprite address and moves it on. -/
def writeOam (ppu : Ppu) (value : UInt8) : Ppu :=
  { ppu with
    oam := ppu.oam.set ppu.oamAddress.toNat value ppu.oamAddress.toNat_lt
    oamAddress := ppu.oamAddress + 1 }

/-! ### Registers -/

/-- Reads the status register, which ends vertical blank and starts a new pair of writes. -/
def readStatus (ppu : Ppu) : UInt8 × Ppu :=
  (ppu.status.bits &&& 0xE0 ||| ppu.openBus &&& 0x1F,
    { ppu with
      status := ppu.status.clear Status.vblankMask
      scroll := { ppu.scroll with second := false } })

/-- Reads the data register.  Palettes answer at once, and the buffer takes the nametable byte
beneath them; all else answers through the buffer. -/
def readData (ppu : Ppu) (bus : β) : UInt8 × Ppu × β :=
  let address := ppu.vramAddress
  if 0x3F00 ≤ address then
    let value := ppu.palette.get (paletteIndex address) &&& 0x3F ||| ppu.openBus &&& 0xC0
    let (below, bus) := ppu.vramRead bus (address - 0x1000)
    (value, { ppu with readBuffer := below }.stepAddress, bus)
  else
    let value := ppu.readBuffer
    let (next, bus) := ppu.vramRead bus address
    (value, { ppu with readBuffer := next }.stepAddress, bus)

def readRegister (ppu : Ppu) (bus : β) (address : UInt16) : UInt8 × Ppu × β :=
  match address.toNat % 8 with
  | 2 =>
    let (value, ppu) := ppu.readStatus
    (value, { ppu with openBus := value }, bus)
  | 4 =>
    let value := ppu.readOam
    (value, { ppu with openBus := value }, bus)
  | 7 =>
    let (value, ppu, bus) := ppu.readData bus
    (value, { ppu with openBus := value }, bus)
  | _ => (ppu.openBus, ppu, bus)

/-- Writes the control register.  Enabling the interrupt during vertical blank raises it at
once. -/
def writeControl (ppu : Ppu) (value : UInt8) : Ppu :=
  let raises := !ppu.control.nmiEnabled && (Control.mk value).nmiEnabled && ppu.status.vblank
  { ppu with
    control := ⟨value⟩
    scroll := ppu.scroll.selectTable value
    nmiPending := ppu.nmiPending || raises }

def writeRegister (ppu : Ppu) (bus : β) (address : UInt16) (value : UInt8) : Ppu × β :=
  let ppu := { ppu with openBus := value }
  match address.toNat % 8 with
  | 0 => (ppu.writeControl value, bus)
  | 1 => ({ ppu with mask := ⟨value⟩ }, bus)
  | 3 => ({ ppu with oamAddress := value }, bus)
  | 4 => (ppu.writeOam value, bus)
  | 5 => ({ ppu with scroll := ppu.scroll.writeScroll value }, bus)
  | 6 => ({ ppu with scroll := ppu.scroll.writeAddress value }, bus)
  | 7 =>
    let (ppu, bus) := ppu.vramWrite bus ppu.vramAddress value
    (ppu.stepAddress, bus)
  | _ => (ppu, bus)

end Famicom.Ppu

import Famicom.Board
import Famicom.Cpu.Bus
import Famicom.Ppu.Tick

/-!
# The memory map

What the processor sees: two kibibytes of memory four times over, the registers of the
picture processor, those of sound and controllers, of which only the sprite transfer is wired,
and the cartridge.  A register that does not answer shows the byte last seen on the bus.
-/

namespace Famicom

def ramSize : Nat := 0x0800

structure SystemBus where
  ram : Memory ramSize
  ppu : Ppu
  board : Board
  /-- The page whose transfer to sprite memory was requested. -/
  dmaPage : Option UInt8
  /-- The byte last seen on the bus. -/
  openBus : UInt8

namespace SystemBus

def powerOn (cartridge : Cartridge) : SystemBus :=
  ⟨Memory.zeroed ramSize, .powerOn, .powerOn cartridge, none, 0⟩

def ramIndex (address : UInt16) : Fin ramSize :=
  ⟨address.toNat % ramSize, Nat.mod_lt _ (by decide)⟩

/-- Reads a byte and leaves it on the bus. -/
def read (bus : SystemBus) (address : UInt16) : UInt8 × SystemBus :=
  match bus with
  | ⟨ram, ppu, board, dmaPage, openBus⟩ =>
    if address < 0x2000 then
      let value := ram.get (ramIndex address)
      (value, ⟨ram, ppu, board, dmaPage, value⟩)
    else if address < 0x4000 then
      let (value, ppu, board) := ppu.readRegister board address
      (value, ⟨ram, ppu, board, dmaPage, value⟩)
    else if address = 0x4016 ∨ address = 0x4017 then
      -- No button is pressed: the data bits are low, the upper bits are not driven.
      let value := openBus &&& 0xE0
      (value, ⟨ram, ppu, board, dmaPage, value⟩)
    else if address < 0x4020 then
      (openBus, ⟨ram, ppu, board, dmaPage, openBus⟩)
    else
      let value := board.read address
      (value, ⟨ram, ppu, board, dmaPage, value⟩)

def write (bus : SystemBus) (address : UInt16) (value : UInt8) : SystemBus :=
  match bus with
  | ⟨ram, ppu, board, dmaPage, _⟩ =>
    if address < 0x2000 then
      ⟨ram.set (ramIndex address) value, ppu, board, dmaPage, value⟩
    else if address < 0x4000 then
      let (ppu, board) := ppu.writeRegister board address value
      ⟨ram, ppu, board, dmaPage, value⟩
    else if address = 0x4014 then
      ⟨ram, ppu, board, some value, value⟩
    else if address < 0x4020 then
      ⟨ram, ppu, board, dmaPage, value⟩
    else
      ⟨ram, ppu, board.write address value, dmaPage, value⟩

instance : Cpu.Bus SystemBus where
  read := read
  write := write

/-! ### Sprite transfer -/

def takeDma (bus : SystemBus) : Option UInt8 × SystemBus :=
  (bus.dmaPage, { bus with dmaPage := none })

def dmaByte (bus : SystemBus) (address : UInt16) : SystemBus :=
  match bus.read address with
  | (value, bus) => { bus with ppu := bus.ppu.writeOam value }

def runDma (bus : SystemBus) (page : UInt8) : SystemBus :=
  (List.range 256).foldl (fun bus i => bus.dmaByte (wordOf i.toUInt8 page)) bus

end SystemBus

end Famicom

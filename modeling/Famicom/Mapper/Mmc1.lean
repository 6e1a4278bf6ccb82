import Famicom.Bits
import Famicom.Mirroring

/-!
# MMC1

Four registers of up to five bits are loaded one bit at a time through a shift register: every
fifth write passes the collected bits, the first written being the lowest, to the register that
the address of that write selects.  A write with bit 7 set empties it and fixes the last
program bank at the top.
-/

namespace Famicom.Mapper

structure Mmc1 where
  shift : UInt8
  count : UInt8
  /-- Mirroring in bits 0 and 1, program mode in bits 2 and 3, pattern mode in bit 4. -/
  control : UInt8
  chr0 : UInt8
  chr1 : UInt8
  prg : UInt8
  deriving DecidableEq

namespace Mmc1

/-- The chip when power comes on: the last program bank is fixed at the top. -/
def powerOn : Mmc1 :=
  ⟨0, 0, 0x0C, 0, 0, 0⟩

/-- Passes five bits to the register that an address selects. -/
def loadRegister (chip : Mmc1) (address : UInt16) (data : UInt8) : Mmc1 :=
  if address < 0xA000 then { chip with control := data }
  else if address < 0xC000 then { chip with chr0 := data }
  else if address < 0xE000 then { chip with chr1 := data }
  else { chip with prg := data &&& 0x0F }

def write (chip : Mmc1) (address : UInt16) (value : UInt8) : Mmc1 :=
  if anyBit value 0x80 then
    { chip with shift := 0, count := 0, control := chip.control ||| 0x0C }
  else
    let shift := chip.shift ||| (value &&& 1) <<< chip.count
    if chip.count < 4 then
      { chip with shift := shift, count := chip.count + 1 }
    else
      { chip with shift := 0, count := 0 }.loadRegister address shift

/-- The 16 KiB program bank seen at an address, before wrapping to the banks present. -/
def prgBank (chip : Mmc1) (banks : Nat) (address : UInt16) : Nat :=
  let high := decide (0xC000 ≤ address)
  let bank := (chip.prg &&& 0x0F).toNat
  match (chip.control >>> 2 &&& 0x03).toNat with
  | 0 | 1 => bank / 2 * 2 + if high then 1 else 0
  | 2 => if high then bank else 0
  | _ => if high then banks - 1 else bank

/-- The 4 KiB pattern bank seen at an address, before wrapping to the banks present. -/
def chrBank (chip : Mmc1) (address : UInt16) : Nat :=
  let high := decide (0x1000 ≤ address)
  if !anyBit chip.control 0x10 then (chip.chr0 &&& 0x1E).toNat + if high then 1 else 0
  else if high then chip.chr1.toNat
  else chip.chr0.toNat

def mirroring (chip : Mmc1) : Mirroring :=
  match (chip.control &&& 0x03).toNat with
  | 0 => .singleLower
  | 1 => .singleUpper
  | 2 => .vertical
  | _ => .horizontal

end Mmc1

end Famicom.Mapper

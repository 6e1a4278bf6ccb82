import Famicom.Bits
import Famicom.Cartridge.Basic

/-!
# Cartridge images

The iNES format: a header of sixteen bytes, an optional trainer, program memory and pattern
memory, one behind the other; what follows is ignored.  The first check that fails decides the
error: length of the header, its magic, the presence of program memory, the sections in order,
and last the mapper number.
-/

namespace Famicom.Cartridge

/-! ### Errors -/

inductive ImageSection where
  | trainer
  | prgRom
  | chrRom
  deriving DecidableEq

def ImageSection.name : ImageSection → String
  | .trainer => "trainer"
  | .prgRom => "PRG ROM"
  | .chrRom => "CHR ROM"

inductive FormatError where
  | tooShort (size : Nat)
  | badMagic (found : List UInt8)
  | noPrgRom
  | truncated (block : ImageSection) (expected actual : Nat)
  | unsupportedMapper (number : UInt8)
  deriving DecidableEq

def FormatError.message : FormatError → String
  | .tooShort size => s!"image is {size} bytes, shorter than the 16-byte iNES header"
  | .badMagic found => s!"bad iNES magic {Text.bracketed (found.map Text.hexByte)}"
  | .noPrgRom => "header declares no PRG ROM"
  | .truncated block expected actual =>
    s!"{block.name} truncated: expected {expected} bytes, found {actual}"
  | .unsupportedMapper number => s!"unsupported mapper {number}"

def ofSections (prg chr : Array UInt8) (number : UInt8) (mirroring : Mirroring) :
    Except FormatError Cartridge :=
  match Mapper.Kind.ofNumber? number with
  | none => .error (.unsupportedMapper number)
  | some kind =>
    match ofSections? prg chr kind mirroring with
    | none => .error .noPrgRom
    | some cartridge => .ok cartridge

/-! ### The header -/

def headerSize : Nat := 16

def magic : List UInt8 := [0x4E, 0x45, 0x53, 0x1A]

structure Header where
  prgBanks : Nat
  chrBanks : Nat
  mapperNumber : UInt8
  mirroring : Mirroring
  battery : Bool
  trainer : Bool
  prgBanks_pos : 0 < prgBanks

def mirroringOfFlags (flags6 : UInt8) : Mirroring :=
  if anyBit flags6 0x08 then .fourScreen
  else if anyBit flags6 0x01 then .vertical
  else .horizontal

/-- The mapper number of a header.  Old images have junk at the end of the header and in the
seventh byte, whose half of the number is then dropped. -/
def mapperNumberOfFlags (flags6 flags7 : UInt8) (tailClean : Bool) : UInt8 :=
  if !anyBit flags7 0x0C && !tailClean then flags6 >>> 4
  else flags6 >>> 4 ||| flags7 &&& 0xF0

def Header.read (image : Array UInt8) : Except FormatError Header :=
  if h : image.size < headerSize then
    .error (.tooShort image.size)
  else
    have hSize : 16 ≤ image.size := by simp only [headerSize] at h; omega
    let found := [image[0], image[1], image[2], image[3]]
    if found ≠ magic then
      .error (.badMagic found)
    else if hPrg : image[4].toNat = 0 then
      .error .noPrgRom
    else
      let tailClean := image[12] == 0 && image[13] == 0 && image[14] == 0 && image[15] == 0
      .ok {
        prgBanks := image[4].toNat
        chrBanks := image[5].toNat
        mapperNumber := mapperNumberOfFlags image[6] image[7] tailClean
        mirroring := mirroringOfFlags image[6]
        battery := anyBit image[6] 0x02
        trainer := anyBit image[6] 0x04
        prgBanks_pos := Nat.pos_of_ne_zero hPrg }

/-! ### Sections -/

def cut (image : Array UInt8) (block : ImageSection) (start size : Nat) :
    Except FormatError (Vector UInt8 size) :=
  if h : start + size ≤ image.size then
    .ok ⟨image.extract start (start + size), by simp; omega⟩
  else
    .error (.truncated block size (image.size - start))

def cutTrainer (image : Array UInt8) (header : Header) :
    Except FormatError (Option (Array UInt8)) :=
  if header.trainer then
    match cut image .trainer headerSize trainerSize with
    | .ok block => .ok (some block.toArray)
    | .error e => .error e
  else
    .ok none

def Header.prgStart (header : Header) : Nat :=
  headerSize + if header.trainer then trainerSize else 0

def Header.prgSize (header : Header) : Nat :=
  header.prgBanks * prgBankSize

def Header.chrSize (header : Header) : Nat :=
  header.chrBanks * chrBankSize

theorem Header.prgSize_pos (header : Header) : 0 < header.prgSize :=
  Nat.mul_pos header.prgBanks_pos (by decide)

def ofImage (image : Array UInt8) : Except FormatError Cartridge := do
  let header ← Header.read image
  let trainer ← cutTrainer image header
  let prg ← cut image .prgRom header.prgStart header.prgSize
  let chr ← cut image .chrRom (header.prgStart + header.prgSize) header.chrSize
  match Mapper.Kind.ofNumber? header.mapperNumber with
  | none => .error (.unsupportedMapper header.mapperNumber)
  | some kind =>
    .ok {
      prg := prg.toArray
      chr := chr.toArray
      kind := kind
      mirroring := header.mirroring
      battery := header.battery
      trainer := trainer
      prg_pos := by rw [prg.size_toArray]; exact header.prgSize_pos }

end Famicom.Cartridge

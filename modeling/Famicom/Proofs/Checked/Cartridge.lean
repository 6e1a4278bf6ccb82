import Famicom.Board
import Famicom.Proofs.Bits
import Famicom.Proofs.Checked.Arithmetic

/-!
# Checked cartridges

Mappers and boards with every operation checked: bank numbers and offsets in sizes of memory, the
shift register of MMC1 in bytes, windows in words, and each access to a memory by its place.  On a
board whose memories have sizes, and whose shift register holds fewer than five bits, nothing is
refused and the results are those of the plain functions, whatever the sizes are.
-/

namespace Famicom

open Checked

namespace Mapper

/-! ### Banks -/

def bankCount? (memory bank : Nat) : Option Nat := do
  return max (← div memory bank) 1

def bankOffset? (memory bank number address : Nat) : Option Nat := do
  let banks ← bankCount? memory bank
  let start ← mul .size (← rem number banks) bank
  add .size start (address % bank)

def Mmc1.prgBank? (chip : Mmc1) (banks : Nat) (address : UInt16) : Option Nat := do
  let high := decide (0xC000 ≤ address)
  let bank := (chip.prg &&& 0x0F).toNat
  match ((← shiftDown chip.control 2) &&& 0x03).toNat with
  | 0 | 1 => add .size (bank / 2 * 2) (if high then 1 else 0)
  | 2 => return if high then bank else 0
  | _ => if high then sub banks 1 else return bank

def Mmc1.chrBank? (chip : Mmc1) (address : UInt16) : Option Nat :=
  let high := decide (0x1000 ≤ address)
  if !anyBit chip.control 0x10 then
    add .size (chip.chr0 &&& 0x1E).toNat (if high then 1 else 0)
  else if high then some chip.chr1.toNat
  else some chip.chr0.toNat

def Mmc3.bank? (chip : Mmc3) (number : Nat) : Option Nat := do
  return (← chip.banks[number]?).toNat

/-- The 8 KiB program bank of MMC3 in one of the four windows.  The last bank but one saturates at
the first. -/
def Mmc3.prgBank? (chip : Mmc3) (banks : Nat) (window : Nat) : Option Nat := do
  let r6 := (← chip.bank? 6) % 64
  let r7 := (← chip.bank? 7) % 64
  let swapped := anyBit chip.select 0x40
  match window with
  | 0 => return if swapped then banks - 2 else r6
  | 1 => return r7
  | 2 => return if swapped then r6 else banks - 2
  | _ => sub banks 1

def Mmc3.chrBank? (chip : Mmc3) (window : Nat) : Option Nat := do
  match if anyBit chip.select 0x80 then (window + 4) % 8 else window with
  | 0 => return (← chip.bank? 0) / 2 * 2
  | 1 => return (← chip.bank? 0) / 2 * 2 + 1
  | 2 => return (← chip.bank? 1) / 2 * 2
  | 3 => return (← chip.bank? 1) / 2 * 2 + 1
  | 4 => chip.bank? 2
  | 5 => chip.bank? 3
  | 6 => chip.bank? 4
  | _ => chip.bank? 5

/-! ### Offsets -/

def prgOffset? (mapper : Mapper) (memory : Nat) (address : UInt16) : Option Nat := do
  let a := address.toNat
  match mapper with
  | .nrom | .cnrom _ => rem (← sub a 0x8000) (max memory 1)
  | .mmc1 chip =>
    let banks ← bankCount? memory 0x4000
    bankOffset? memory 0x4000 (← chip.prgBank? banks address) a
  | .uxrom latch =>
    let banks ← bankCount? memory 0x4000
    if a < 0xC000 then bankOffset? memory 0x4000 (latch.toNat % 16) a
    else bankOffset? memory 0x4000 (← sub banks 1) a
  | .mmc3 chip =>
    let banks ← bankCount? memory 0x2000
    let window ← div (← sub a 0x8000) 0x2000
    bankOffset? memory 0x2000 (← chip.prgBank? banks window) a
  | .axrom latch => bankOffset? memory 0x8000 (latch.toNat % 8) a

def chrOffset? (mapper : Mapper) (memory : Nat) (address : UInt16) : Option Nat := do
  let a := address.toNat
  match mapper with
  | .nrom | .uxrom _ | .axrom _ => return a % 0x2000
  | .mmc1 chip => bankOffset? memory 0x1000 (← chip.chrBank? address) a
  | .cnrom latch => bankOffset? memory 0x2000 (latch.toNat % 4) a
  | .mmc3 chip =>
    let window ← div (a % 0x2000) 0x0400
    bankOffset? memory 0x0400 (← chip.chrBank? window) a

/-! ### Nothing is refused -/

section

variable {memory bank : Nat}

theorem bankCount?_eq (h : 0 < bank) : bankCount? memory bank = some (bankCount memory bank) := by
  rw [bankCount?, bind_eq (div_eq h)]
  rfl

theorem bankCount_pos : 0 < bankCount memory bank :=
  Nat.lt_of_lt_of_le Nat.zero_lt_one (Nat.le_max_right _ _)

theorem bankCount_mul_le : bankCount memory bank * bank ≤ max memory bank := by
  unfold bankCount
  rcases Nat.le_total (memory / bank) 1 with h | h
  · rw [Nat.max_eq_right h, Nat.one_mul]
    exact Nat.le_max_right _ _
  · rw [Nat.max_eq_left h]
    exact Nat.le_trans (Nat.div_mul_le_self memory bank) (Nat.le_max_left _ _)

theorem bankOffset_lt (h : 0 < bank) (number address : Nat) :
    bankOffset memory bank number address < max memory bank := by
  have hNumber : number % bankCount memory bank + 1 ≤ bankCount memory bank :=
    Nat.mod_lt _ bankCount_pos
  calc bankOffset memory bank number address
      < number % bankCount memory bank * bank + bank := Nat.add_lt_add_left (Nat.mod_lt _ h) _
    _ = (number % bankCount memory bank + 1) * bank := (Nat.succ_mul _ _).symm
    _ ≤ bankCount memory bank * bank := Nat.mul_le_mul_right bank hNumber
    _ ≤ max memory bank := bankCount_mul_le

theorem bankOffset?_eq (hMemory : memory < 2 ^ 64) (h : 0 < bank) (hBank : bank < 2 ^ 64)
    (number address : Nat) :
    bankOffset? memory bank number address = some (bankOffset memory bank number address) := by
  have hOffset : bankOffset memory bank number address < 2 ^ 64 :=
    Nat.lt_of_lt_of_le (bankOffset_lt h number address)
      (Nat.max_le.2 ⟨Nat.le_of_lt hMemory, Nat.le_of_lt hBank⟩)
  have hStart : number % bankCount memory bank * bank < 2 ^ 64 :=
    Nat.lt_of_le_of_lt (Nat.le_add_right _ _) hOffset
  rw [bankOffset?, bind_eq (bankCount?_eq h), bind_eq (rem_eq bankCount_pos),
    bind_eq (mul_size hStart)]
  exact add_size hOffset

end

theorem Mmc1.prgBank?_eq (chip : Mmc1) {banks : Nat} (h : 0 < banks) (address : UInt16) :
    chip.prgBank? banks address = some (chip.prgBank banks address) := by
  have hBank : (chip.prg &&& 0x0F).toNat < 16 := by
    rw [UInt8.toNat_and]
    exact Nat.and_lt_two_pow _ (by decide : (0x0F : UInt8).toNat < 2 ^ 4)
  have hPair (high : Bool) :
      (chip.prg &&& 0x0F).toNat / 2 * 2 + (if high then 1 else 0) < 2 ^ 64 := by
    split <;> omega
  unfold prgBank? prgBank
  rw [bind_eq (shiftDown_eq chip.control (by decide : 2 < 8)),
    show (2 : Nat).toUInt8 = 2 from rfl]
  generalize (chip.control >>> 2 &&& 0x03).toNat = mode
  match mode with
  | 0 => exact add_size (hPair _)
  | 1 => exact add_size (hPair _)
  | 2 => rfl
  | mode + 3 =>
    show (if decide (0xC000 ≤ address) = true then sub banks 1 else _) = some (if _ then _ else _)
    split
    · exact sub_eq h
    · rfl

theorem Mmc1.chrBank?_eq (chip : Mmc1) (address : UInt16) :
    chip.chrBank? address = some (chip.chrBank address) := by
  have hBank := (chip.chr0 &&& 0x1E).toNat_lt
  simp only [chrBank?, chrBank]
  split
  · exact add_size (by split <;> omega)
  · split
    · rfl
    · rfl

theorem Mmc3.bank?_eq (chip : Mmc3) {number : Nat} (h : number < 8) :
    chip.bank? number = some (chip.bank number) := by
  have hSlot : slot number = ⟨number, h⟩ := Fin.ext (Nat.mod_eq_of_lt h)
  rw [bank?, bind_eq (get_eq _ h), bank, hSlot]
  rfl

theorem Mmc3.prgBank?_eq (chip : Mmc3) {banks : Nat} (h : 0 < banks) (window : Nat) :
    chip.prgBank? banks window = some (chip.prgBank banks window) := by
  rw [prgBank?, bind_eq (chip.bank?_eq (by decide : 6 < 8)),
    bind_eq (chip.bank?_eq (by decide : 7 < 8))]
  match window with
  | 0 => rfl
  | 1 => rfl
  | 2 => rfl
  | window + 3 => exact sub_eq h

theorem Mmc3.chrBank?_eq (chip : Mmc3) (window : Nat) :
    chip.chrBank? window = some (chip.chrBank window) := by
  have hBank (number : Nat) (h : number < 8) := chip.bank?_eq h
  unfold chrBank? chrBank
  generalize (if anyBit chip.select 0x80 then (window + 4) % 8 else window) = seen
  match seen with
  | 0 => exact bind_eq (hBank 0 (by decide)) _
  | 1 => exact bind_eq (hBank 0 (by decide)) _
  | 2 => exact bind_eq (hBank 1 (by decide)) _
  | 3 => exact bind_eq (hBank 1 (by decide)) _
  | 4 => exact hBank 2 (by decide)
  | 5 => exact hBank 3 (by decide)
  | 6 => exact hBank 4 (by decide)
  | seen + 7 => exact hBank 5 (by decide)

theorem prgOffset?_eq (mapper : Mapper) {memory : Nat} (hMemory : memory < 2 ^ 64)
    (hPos : 0 < memory) {address : UInt16} (h : 0x8000 ≤ address.toNat) :
    mapper.prgOffset? memory address = some (mapper.prgOffset memory address) := by
  cases mapper with
  | nrom =>
    simp only [prgOffset?, prgOffset]
    rw [bind_eq (sub_eq h), Nat.max_eq_left hPos, rem_eq hPos]
  | cnrom latch =>
    simp only [prgOffset?, prgOffset]
    rw [bind_eq (sub_eq h), Nat.max_eq_left hPos, rem_eq hPos]
  | mmc1 chip =>
    simp only [prgOffset?, prgOffset]
    rw [bind_eq (bankCount?_eq (by decide)), bind_eq (chip.prgBank?_eq bankCount_pos _)]
    exact bankOffset?_eq hMemory (by decide) (by decide) _ _
  | uxrom latch =>
    simp only [prgOffset?, prgOffset]
    rw [bind_eq (bankCount?_eq (by decide)), bind_eq (sub_eq bankCount_pos)]
    split
    · exact bankOffset?_eq hMemory (by decide) (by decide) _ _
    · exact bankOffset?_eq hMemory (by decide) (by decide) _ _
  | mmc3 chip =>
    simp only [prgOffset?, prgOffset]
    rw [bind_eq (bankCount?_eq (by decide)), bind_eq (sub_eq h), bind_eq (div_eq (by decide)),
      bind_eq (chip.prgBank?_eq bankCount_pos _)]
    exact bankOffset?_eq hMemory (by decide) (by decide) _ _
  | axrom latch => exact bankOffset?_eq hMemory (by decide) (by decide) _ _

theorem chrOffset?_eq (mapper : Mapper) {memory : Nat} (hMemory : memory < 2 ^ 64)
    (address : UInt16) :
    mapper.chrOffset? memory address = some (mapper.chrOffset memory address) := by
  cases mapper with
  | nrom => rfl
  | uxrom latch => rfl
  | axrom latch => rfl
  | mmc1 chip =>
    simp only [chrOffset?, chrOffset]
    rw [bind_eq (chip.chrBank?_eq _)]
    exact bankOffset?_eq hMemory (by decide) (by decide) _ _
  | cnrom latch => exact bankOffset?_eq hMemory (by decide) (by decide) _ _
  | mmc3 chip =>
    simp only [chrOffset?, chrOffset]
    rw [bind_eq (div_eq (by decide)), bind_eq (chip.chrBank?_eq _)]
    exact bankOffset?_eq hMemory (by decide) (by decide) _ _

/-! ### Registers -/

def Mmc1.write? (chip : Mmc1) (address : UInt16) (value : UInt8) : Option Mmc1 :=
  if anyBit value 0x80 then some (chip.write address value)
  else do
    let shift := chip.shift ||| (← shiftUp (value &&& 1) chip.count.toNat)
    let count ← add .byte chip.count.toNat 1
    if count < 5 then return { chip with shift := shift, count := count.toUInt8 }
    else return { chip with shift := 0, count := 0 }.loadRegister address shift

/-- Takes a write to a register of MMC3; only the bank registers are found by their place. -/
def Mmc3.write? (chip : Mmc3) (address : UInt16) (value : UInt8) : Option Mmc3 :=
  if address < 0xA000 ∧ address % 2 ≠ 0 then do
    return { chip with banks := ← put chip.banks (chip.select.toNat % 8) value }
  else some (chip.write address value)

def Mmc3.clock? (chip : Mmc3) : Option Mmc3 :=
  if chip.counter = 0 || chip.reload then some chip.clock
  else do
    let counter := (← sub chip.counter.toNat 1).toUInt8
    return { chip with
      counter := counter
      irqPending := chip.irqPending || (counter == 0 && chip.irqEnabled) }

/-- Takes a write of the processor.  A latch keeps the whole byte; the bank that it selects is
reduced to those present in memories of the given sizes. -/
def write? (mapper : Mapper) (prg chr : Nat) (address : UInt16) (value : UInt8) :
    Option Mapper := do
  match mapper with
  | .nrom => return .nrom
  | .mmc1 chip => return .mmc1 (← chip.write? address value)
  | .uxrom _ =>
    let _ ← rem (value.toNat % 16) (← bankCount? prg 0x4000)
    return .uxrom value
  | .cnrom _ =>
    let _ ← rem (value.toNat % 4) (← bankCount? chr 0x2000)
    return .cnrom value
  | .mmc3 chip => return .mmc3 (← chip.write? address value)
  | .axrom _ =>
    let _ ← rem (value.toNat % 8) (← bankCount? prg 0x8000)
    return .axrom value

def observed? (mapper : Mapper) (position : Ppu.Position) : Option Mapper := do
  match mapper with
  | .mmc3 chip => if Mmc3.clocksAt position then return .mmc3 (← chip.clock?) else return .mmc3 chip
  | other => return other

/-- The shift register of an MMC1 holds fewer than five bits. -/
def Settled : Mapper → Prop
  | .mmc1 chip => chip.count.toNat < 5
  | _ => True

theorem settled_powerOn (kind : Kind) : (powerOn kind).Settled := by
  cases kind with
  | mmc1 => exact (by decide : 0 < 5)
  | nrom | uxrom | cnrom | mmc3 | axrom => trivial

theorem Mmc1.write?_eq {chip : Mmc1} (h : chip.count.toNat < 5) (address : UInt16)
    (value : UInt8) :
    chip.write? address value = some (chip.write address value) ∧
      (chip.write address value).count.toNat < 5 := by
  have hNext : (chip.count.toNat + 1).toUInt8 = chip.count + 1 := by
    apply UInt8.toNat_inj.1
    rw [UInt8.toNat_add, Nat.toUInt8_eq, UInt8.toNat_ofNat']
    rfl
  unfold write? write
  split
  · exact ⟨rfl, (by decide : 0 < 5)⟩
  · rw [bind_eq (shiftUp_eq _ (by omega)), bind_eq (add_byte (by omega)), Nat.toUInt8_eq,
      UInt8.ofNat_toNat, hNext]
    by_cases hFew : chip.count < 4
    · have hCount : chip.count.toNat < 4 := UInt8.lt_iff_toNat_lt.1 hFew
      rw [if_pos (by omega), if_pos hFew]
      refine ⟨rfl, ?_⟩
      show (chip.count + 1).toNat < 5
      rw [← hNext, Nat.toUInt8_eq, UInt8.toNat_ofNat']
      omega
    · have hCount : ¬ chip.count.toNat < 4 := fun h => hFew (UInt8.lt_iff_toNat_lt.2 h)
      rw [if_neg (by omega), if_neg hFew]
      refine ⟨rfl, ?_⟩
      unfold loadRegister
      repeat' split
      all_goals exact (by decide : 0 < 5)

-- The bound on the count carries the proof: a shift register with eight bits would be refused.
example : Mmc1.write? { Mmc1.powerOn with count := 8 } 0x8000 0x01 = none := by decide

theorem Mmc3.write?_eq (chip : Mmc3) (address : UInt16) (value : UInt8) :
    chip.write? address value = some (chip.write address value) := by
  unfold write?
  split
  · rename_i h
    rw [bind_eq (put_eq chip.banks value (Nat.mod_lt _ (by decide)))]
    unfold write
    rw [if_pos h.1, if_neg h.2]
    rfl
  · rfl

theorem Mmc3.clock?_eq (chip : Mmc3) : chip.clock? = some chip.clock := by
  unfold clock?
  split
  · rfl
  · rename_i h
    have hPos : chip.counter ≠ 0 ∧ chip.reload = false := by simpa using h
    have hCounter : 1 ≤ chip.counter.toNat :=
      Nat.pos_of_ne_zero fun hZero => hPos.1 (UInt8.toNat_inj.1 hZero)
    have hNext : (chip.counter.toNat - 1).toUInt8 = chip.counter - 1 := by
      apply UInt8.toNat_inj.1
      have hLt := chip.counter.toNat_lt
      rw [UInt8.toNat_sub_of_le chip.counter 1 (UInt8.le_iff_toNat_le.2 hCounter), Nat.toUInt8_eq,
        UInt8.toNat_ofNat']
      show (chip.counter.toNat - 1) % 2 ^ 8 = chip.counter.toNat - 1
      omega
    rw [bind_eq (sub_eq hCounter), hNext]
    simp only [clock, hPos.2, Bool.or_false, decide_eq_true_eq, if_neg hPos.1]
    rfl

theorem write?_eq {mapper : Mapper} (h : mapper.Settled) (prg chr : Nat) (address : UInt16)
    (value : UInt8) :
    mapper.write? prg chr address value = some (mapper.write address value) ∧
      (mapper.write address value).Settled := by
  cases mapper with
  | nrom => exact ⟨rfl, trivial⟩
  | mmc1 chip =>
    obtain ⟨hWrite, hCount⟩ := Mmc1.write?_eq h address value
    exact ⟨bind_eq hWrite _, hCount⟩
  | uxrom latch =>
    refine ⟨?_, trivial⟩
    simp only [write?]
    rw [bind_eq (bankCount?_eq (by decide)), bind_eq (rem_eq bankCount_pos)]
    rfl
  | cnrom latch =>
    refine ⟨?_, trivial⟩
    simp only [write?]
    rw [bind_eq (bankCount?_eq (by decide)), bind_eq (rem_eq bankCount_pos)]
    rfl
  | mmc3 chip => exact ⟨bind_eq (chip.write?_eq address value) _, trivial⟩
  | axrom latch =>
    refine ⟨?_, trivial⟩
    simp only [write?]
    rw [bind_eq (bankCount?_eq (by decide)), bind_eq (rem_eq bankCount_pos)]
    rfl

theorem observed?_eq (mapper : Mapper) (position : Ppu.Position) :
    mapper.observed? position = some (mapper.observe position) := by
  cases mapper with
  | mmc3 chip =>
    simp only [observed?, observe, Mmc3.observe]
    split
    · exact bind_eq chip.clock?_eq _
    · rfl
  | nrom | mmc1 | uxrom | cnrom | axrom => rfl

theorem Settled.observe {mapper : Mapper} (h : mapper.Settled) (position : Ppu.Position) :
    (mapper.observe position).Settled := by
  cases mapper with
  | mmc1 chip => exact h
  | nrom | uxrom | cnrom | mmc3 | axrom => trivial

end Mapper

namespace Board

/-! ### Boards -/

def read? (board : Board) (address : UInt16) : Option UInt8 := do
  if address < 0x6000 then return 0
  else if address < 0x8000 then board.workRam[← sub address.toNat 0x6000]?
  else
    let offset ← board.mapper.prgOffset? board.prg.size address
    board.prg[← rem offset board.prg.size]?

def write? (board : Board) (address : UInt16) (value : UInt8) : Option Board := do
  if address < 0x6000 then return board
  else if address < 0x8000 then
    return { board with workRam := ← put board.workRam (← sub address.toNat 0x6000) value }
  else
    return { board with
      mapper := ← board.mapper.write? board.prg.size board.chr.size address value }

def observed? (board : Board) (position : Ppu.Position) : Option Board := do
  return { board with mapper := ← board.mapper.observed? position }

def chrRead? (board : Board) (address : UInt16) : Option UInt8 := do
  let offset ← board.mapper.chrOffset? board.chr.size address
  board.chr[← rem offset board.chr.size]?

def chrWrite? (board : Board) (address : UInt16) (value : UInt8) : Option Board :=
  if board.chrWritable then do
    let offset ← board.mapper.chrOffset? board.chr.size address
    let i ← rem offset board.chr.size
    if h : i < board.chr.size then
      return { board with
        chr := board.chr.set i value
        chr_pos := by simpa using board.chr_pos }
    else none
  else some board

def prgBank? (board : Board) (window : Nat) : Option Nat := do
  let address ← add .word 0x8000 (← mul .word window 0x2000)
  let offset ← board.mapper.prgOffset? board.prg.size address.toUInt16
  div (← rem offset board.prg.size) 0x2000

def chrBank? (board : Board) (window : Nat) : Option Nat := do
  let address ← mul .word window 0x0400
  let offset ← board.mapper.chrOffset? board.chr.size address.toUInt16
  div (← rem offset board.chr.size) 0x0400

def banking? (board : Board) : Option Banking := do
  let prgBanks ← fill (Vector.replicate 4 0) board.prgBank?
  let chrBanks ← fill (Vector.replicate 8 0) board.chrBank?
  return ⟨board.mapper.kind, prgBanks, chrBanks, board.mirroring, board.irq⟩

/-- The memories of the board have sizes, and its mapper is settled. -/
structure Sound (board : Board) : Prop where
  prg : board.prg.size < 2 ^ 64
  chr : board.chr.size < 2 ^ 64
  mapper : board.mapper.Settled

theorem sound_powerOn {c : Cartridge} (hPrg : c.prg.size < 2 ^ 64) (hChr : c.chr.size < 2 ^ 64) :
    (powerOn c).Sound where
  prg := hPrg
  chr := by
    unfold powerOn
    dsimp only
    split
    · rw [Array.size_replicate]
      decide
    · exact hChr
  mapper := Mapper.settled_powerOn c.kind

section

variable {board : Board} (h : board.Sound)

include h

theorem Sound.read?_eq (address : UInt16) : board.read? address = some (board.read address) := by
  unfold read? read
  split
  · rfl
  rename_i hLow
  have hLeast : 0x6000 ≤ address.toNat := UInt16.le_iff_toNat_le.1 (UInt16.not_lt.1 hLow)
  split
  · rename_i hWork
    have hMost : address.toNat < 0x8000 := UInt16.lt_iff_toNat_lt.1 hWork
    rw [bind_eq (sub_eq hLeast), get_eq _ (by show _ < 0x2000; omega)]
    have hPlace : address.toNat - 0x6000 = address.toNat % 0x2000 := by omega
    simp only [hPlace]
  · rename_i hRom
    have hHigh : 0x8000 ≤ address.toNat := UInt16.le_iff_toNat_le.1 (UInt16.not_lt.1 hRom)
    rw [bind_eq (board.mapper.prgOffset?_eq h.prg board.prg_pos hHigh),
      bind_eq (rem_eq board.prg_pos)]
    exact Array.getElem?_eq_getElem _

theorem Sound.write?_eq (address : UInt16) (value : UInt8) :
    board.write? address value = some (board.write address value) ∧
      (board.write address value).Sound := by
  unfold write? write
  split
  · exact ⟨rfl, h⟩
  rename_i hLow
  have hLeast : 0x6000 ≤ address.toNat := UInt16.le_iff_toNat_le.1 (UInt16.not_lt.1 hLow)
  split
  · rename_i hWork
    have hMost : address.toNat < 0x8000 := UInt16.lt_iff_toNat_lt.1 hWork
    refine ⟨?_, h.prg, h.chr, h.mapper⟩
    rw [bind_eq (sub_eq hLeast), bind_eq (put_eq _ _ (by show _ < 0x2000; omega))]
    have hPlace : address.toNat - 0x6000 = address.toNat % 0x2000 := by omega
    simp only [hPlace]
    rfl
  · obtain ⟨hWrite, hMapper⟩ :=
      Mapper.write?_eq h.mapper board.prg.size board.chr.size address value
    exact ⟨bind_eq hWrite _, h.prg, h.chr, hMapper⟩

theorem Sound.observed?_eq (position : Ppu.Position) :
    board.observed? position = some (board.observe position) ∧
      (board.observe position).Sound :=
  ⟨bind_eq (board.mapper.observed?_eq position) _, h.prg, h.chr, h.mapper.observe position⟩

theorem Sound.chrRead?_eq (address : UInt16) :
    board.chrRead? address = some (board.chrRead address) := by
  rw [chrRead?, bind_eq (board.mapper.chrOffset?_eq h.chr address), bind_eq (rem_eq board.chr_pos)]
  exact Array.getElem?_eq_getElem _

theorem Sound.chrWrite?_eq (address : UInt16) (value : UInt8) :
    board.chrWrite? address value = some (board.chrWrite address value) ∧
      (board.chrWrite address value).Sound := by
  unfold chrWrite? chrWrite
  split
  · rw [bind_eq (board.mapper.chrOffset?_eq h.chr address), bind_eq (rem_eq board.chr_pos),
      dif_pos (Nat.mod_lt _ board.chr_pos)]
    refine ⟨rfl, h.prg, ?_, h.mapper⟩
    rw [Array.size_set]
    exact h.chr
  · exact ⟨rfl, h⟩

theorem Sound.prgBank?_eq (w : Fin 4) : board.prgBank? w.val =
    some ((board.prgIndex (0x8000 + 0x2000 * w.val.toUInt16)).val / 0x2000) := by
  have hAddress : (0x8000 + w.val * 0x2000).toUInt16 = 0x8000 + 0x2000 * w.val.toUInt16 := by
    rw [Nat.mul_comm, Nat.toUInt16_eq, UInt16.ofNat_add, UInt16.ofNat_mul]
    rfl
  have hHigh : 0x8000 ≤ (0x8000 + 0x2000 * w.val.toUInt16 : UInt16).toNat := by
    rw [← hAddress, Nat.toUInt16_eq, UInt16.toNat_ofNat']
    omega
  rw [prgBank?, bind_eq (mul_word (by omega)), bind_eq (add_word (by omega)), hAddress,
    bind_eq (board.mapper.prgOffset?_eq h.prg board.prg_pos hHigh),
    bind_eq (rem_eq board.prg_pos), div_eq (by decide)]
  rfl

theorem Sound.chrBank?_eq (w : Fin 8) : board.chrBank? w.val =
    some ((board.chrIndex (0x0400 * w.val.toUInt16)).val / 0x0400) := by
  have hAddress : (w.val * 0x0400).toUInt16 = 0x0400 * w.val.toUInt16 := by
    rw [Nat.mul_comm, Nat.toUInt16_eq, UInt16.ofNat_mul]
    rfl
  rw [chrBank?, bind_eq (mul_word (by omega)), hAddress,
    bind_eq (board.mapper.chrOffset?_eq h.chr _), bind_eq (rem_eq board.chr_pos),
    div_eq (by decide)]
  rfl

theorem Sound.banking?_eq : board.banking? = some board.banking := by
  rw [banking?, bind_eq (fill_eq _ h.prgBank?_eq), bind_eq (fill_eq _ h.chrBank?_eq)]
  rfl

end

end Board

end Famicom

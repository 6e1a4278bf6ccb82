import Famicom.Board

/-!
# Banking

The banks that a board reports are the banks that it reads.  A report samples each mapper at the
first address of every window, while a read goes through the mapper at its own address and then
wraps to the memory present; the two agree because within a window a mapper never changes the bank
and passes the low bits of the address on.  What the surroundings do to a board changes neither
program memory nor pattern memory that cannot be written.
-/

namespace Famicom

/-! ### Windows -/

def prgWindowSize : Nat := 0x2000

def chrWindowSize : Nat := 0x0400

/-- Two offsets of one window: the bank is the same, and the second one reaches as far into it as
the address `a` reaches into its window. -/
structure SameWindow (unit start offset a : Nat) : Prop where
  bank : offset / unit = start / unit
  rest : offset % unit = a % unit

theorem SameWindow.wrap {unit start offset a size : Nat} (h : SameWindow unit start offset a)
    (hSize : unit ∣ size) : SameWindow unit (start % size) (offset % size) a := by
  obtain ⟨banks, rfl⟩ := hSize
  constructor
  · rw [Nat.mod_mul_right_div_self, Nat.mod_mul_right_div_self, h.bank]
  · rw [Nat.mod_mul_right_mod, h.rest]

theorem SameWindow.eq {unit start offset a : Nat} (h : SameWindow unit start offset a) :
    offset = start / unit * unit + a % unit := by
  rw [← h.bank, ← h.rest, Nat.mul_comm]
  exact (Nat.div_add_mod offset unit).symm

namespace Mapper

theorem sameWindow_bankOffset {unit memory bank number s a : Nat} (hUnit : 0 < unit)
    (hBank : unit ∣ bank) (h : SameWindow unit (s % bank) (a % bank) a) :
    SameWindow unit (bankOffset memory bank number s) (bankOffset memory bank number a) a := by
  obtain ⟨k, rfl⟩ := hBank
  have hBase : number % bankCount memory (unit * k) * (unit * k) =
      unit * (number % bankCount memory (unit * k) * k) := by
    rw [← Nat.mul_assoc, ← Nat.mul_assoc, Nat.mul_comm _ unit]
  simp only [bankOffset, hBase]
  constructor
  · rw [Nat.mul_add_div hUnit, Nat.mul_add_div hUnit, h.bank]
  · rw [Nat.mul_add_mod, h.rest]

theorem sameWindow_prgOffset (mapper : Mapper) {memory : Nat} (hMemory : prgWindowSize ∣ memory)
    {s a : UInt16} (hHigh : 0x8000 ≤ s.toNat) (hStart : s.toNat % prgWindowSize = 0)
    (hWindow : s.toNat / prgWindowSize = a.toNat / prgWindowSize) :
    SameWindow prgWindowSize (mapper.prgOffset memory s) (mapper.prgOffset memory a) a.toNat := by
  simp only [prgWindowSize] at *
  have hHalf : (s.toNat < 0xC000) = (a.toNat < 0xC000) := by
    apply propext
    omega
  have hTop : (0xC000 ≤ s) = (0xC000 ≤ a) := by
    simp only [UInt16.le_iff_toNat_le, UInt16.reduceToNat]
    apply propext
    omega
  have hSlot : (s.toNat - 0x8000) / 0x2000 = (a.toNat - 0x8000) / 0x2000 := by omega
  have hRest : (a.toNat - 0x8000) % 0x2000 = a.toNat % 0x2000 := by omega
  have hLinear : SameWindow 0x2000 ((s.toNat - 0x8000) % memory) ((a.toNat - 0x8000) % memory)
      a.toNat := SameWindow.wrap ⟨hSlot.symm, hRest⟩ hMemory
  cases mapper with
  | nrom => exact hLinear
  | cnrom latch => exact hLinear
  | mmc1 chip =>
    simp only [prgOffset, Mmc1.prgBank, hTop]
    exact sameWindow_bankOffset (by decide) (by decide) ⟨by omega, by omega⟩
  | uxrom latch =>
    simp only [prgOffset, hHalf]
    exact sameWindow_bankOffset (by decide) (by decide) ⟨by omega, by omega⟩
  | mmc3 chip =>
    simp only [prgOffset, hSlot]
    exact sameWindow_bankOffset (by decide) (by decide) ⟨by omega, by omega⟩
  | axrom latch => exact sameWindow_bankOffset (by decide) (by decide) ⟨by omega, by omega⟩

theorem sameWindow_chrOffset (mapper : Mapper) (memory : Nat) {s a : UInt16}
    (hStart : s.toNat % chrWindowSize = 0)
    (hWindow : s.toNat / chrWindowSize = a.toNat / chrWindowSize) :
    SameWindow chrWindowSize (mapper.chrOffset memory s) (mapper.chrOffset memory a) a.toNat := by
  simp only [chrWindowSize] at *
  have hTop : (0x1000 ≤ s) = (0x1000 ≤ a) := by
    simp only [UInt16.le_iff_toNat_le, UInt16.reduceToNat]
    apply propext
    omega
  have hSlot : s.toNat % 0x2000 / 0x0400 = a.toNat % 0x2000 / 0x0400 := by omega
  cases mapper with
  | nrom => exact ⟨by simp only [chrOffset]; omega, by simp only [chrOffset]; omega⟩
  | uxrom latch => exact ⟨by simp only [chrOffset]; omega, by simp only [chrOffset]; omega⟩
  | axrom latch => exact ⟨by simp only [chrOffset]; omega, by simp only [chrOffset]; omega⟩
  | mmc1 chip =>
    simp only [chrOffset, Mmc1.chrBank, hTop]
    exact sameWindow_bankOffset (by decide) (by decide) ⟨by omega, by omega⟩
  | cnrom latch => exact sameWindow_bankOffset (by decide) (by decide) ⟨by omega, by omega⟩
  | mmc3 chip =>
    simp only [chrOffset, hSlot]
    exact sameWindow_bankOffset (by decide) (by decide) ⟨by omega, by omega⟩

end Mapper

namespace Board

/-! ### What is done to a board -/

inductive Operation where
  | read (address : UInt16)
  | write (address : UInt16) (value : UInt8)
  | chrRead (address : UInt16)
  | chrWrite (address : UInt16) (value : UInt8)
  | observe (position : Ppu.Position)
  deriving DecidableEq

/-- The board after an operation.  A read of the processor has no way to change it. -/
def perform (board : Board) : Operation → Board
  | .read _ => board
  | .write address value => board.write address value
  | .chrRead address => (Ppu.PatternBus.read board address).2
  | .chrWrite address value => Ppu.PatternBus.write board address value
  | .observe position => board.observe position

def performAll (board : Board) (operations : List Operation) : Board :=
  operations.foldl perform board

/-- What is left of a cartridge on a board whatever was done to it. -/
structure Carries (board : Board) (c : Cartridge) : Prop where
  prg : board.prg = c.prg
  chr : c.chr ≠ #[] → board.chr = c.chr
  chrRam : c.chr = #[] → board.chr.size = chrBankSize
  chrWritable : board.chrWritable = c.chr.isEmpty

theorem carries_powerOn (c : Cartridge) : (powerOn c).Carries c where
  prg := rfl
  chr h := by
    have hSome : c.chr.isEmpty = false := by simpa using h
    simp [powerOn, hSome]
  chrRam h := by simp [powerOn, h]
  chrWritable := rfl

theorem Carries.of_eq {board after : Board} {c : Cartridge} (h : board.Carries c)
    (hPrg : after.prg = board.prg) (hChr : after.chr = board.chr)
    (hWritable : after.chrWritable = board.chrWritable) : after.Carries c where
  prg := hPrg.trans h.prg
  chr hSome := hChr.trans (h.chr hSome)
  chrRam hNone := by rw [hChr, h.chrRam hNone]
  chrWritable := hWritable.trans h.chrWritable

theorem Carries.chrWrite {board : Board} {c : Cartridge} (h : board.Carries c)
    (address : UInt16) (value : UInt8) : (board.chrWrite address value).Carries c := by
  unfold Board.chrWrite
  split
  · rename_i hWritable
    have hRam : c.chr = #[] := by simpa [h.chrWritable] using hWritable
    exact {
      prg := h.prg
      chr := fun hSome => absurd hRam hSome
      chrRam := fun hNone => by rw [Array.size_set, h.chrRam hNone]
      chrWritable := h.chrWritable }
  · exact h

theorem Carries.write {board : Board} {c : Cartridge} (h : board.Carries c)
    (address : UInt16) (value : UInt8) : (board.write address value).Carries c := by
  unfold Board.write
  split
  · exact h
  · split <;> exact h.of_eq rfl rfl rfl

theorem Carries.perform {board : Board} {c : Cartridge} (h : board.Carries c)
    (operation : Operation) : (board.perform operation).Carries c := by
  cases operation with
  | read address => exact h
  | write address value => exact h.write address value
  | chrRead address => exact h
  | chrWrite address value => exact h.chrWrite address value
  | observe position => exact h.of_eq rfl rfl rfl

theorem Carries.performAll {board : Board} {c : Cartridge} (h : board.Carries c)
    (operations : List Operation) : (board.performAll operations).Carries c := by
  induction operations generalizing board with
  | nil => exact h
  | cons operation rest ih => exact ih (h.perform operation)

theorem Carries.prg_dvd {board : Board} {c : Cartridge} (h : board.Carries c)
    (hSize : prgBankSize ∣ c.prg.size) : prgWindowSize ∣ board.prg.size := by
  rw [h.prg]
  exact Nat.dvd_trans (by decide) hSize

theorem Carries.chr_dvd {board : Board} {c : Cartridge} (h : board.Carries c)
    (hSize : chrBankSize ∣ c.chr.size) : chrWindowSize ∣ board.chr.size := by
  by_cases hRam : c.chr = #[]
  · rw [h.chrRam hRam]
    decide
  · rw [h.chr hRam]
    exact Nat.dvd_trans (by decide) hSize

/-! ### What a board reports -/

theorem prgWindow_lt (a : UInt16) : (a.toNat - 0x8000) / 0x2000 < 4 := by
  have ha := a.toNat_lt
  omega

theorem chrWindow_lt {a : UInt16} (h : a.toNat < 0x2000) : a.toNat / 0x0400 < 8 := by
  omega

theorem read_prg (board : Board) {a : UInt16} (h : 0x8000 ≤ a.toNat) :
    board.prg[(board.prgIndex a).val]? = some (board.read a) := by
  have hWork : ¬a < 0x6000 := by
    simp only [UInt16.lt_iff_toNat_lt, UInt16.reduceToNat]
    omega
  have hRom : ¬a < 0x8000 := by
    simp only [UInt16.lt_iff_toNat_lt, UInt16.reduceToNat]
    omega
  rw [read, if_neg hWork, if_neg hRom]
  exact Array.getElem?_eq_getElem _

theorem prgBanks_get (board : Board) (w : Fin 4) :
    board.banking.prgBanks.get w =
      (board.prgIndex (0x8000 + 0x2000 * w.val.toUInt16)).val / prgWindowSize :=
  Vector.getElem_ofFn w.isLt

theorem chrBanks_get (board : Board) (w : Fin 8) :
    board.banking.chrBanks.get w =
      (board.chrIndex (0x0400 * w.val.toUInt16)).val / chrWindowSize :=
  Vector.getElem_ofFn w.isLt

theorem prgIndex_eq (board : Board) (hSize : prgWindowSize ∣ board.prg.size) {a : UInt16}
    (h : 0x8000 ≤ a.toNat) :
    (board.prgIndex a).val =
      board.banking.prgBanks.get ⟨_, prgWindow_lt a⟩ * prgWindowSize + a.toNat % prgWindowSize := by
  have ha := a.toNat_lt
  have hStart : (0x8000 + 0x2000 * ((a.toNat - 0x8000) / 0x2000).toUInt16 : UInt16).toNat =
      0x8000 + 0x2000 * ((a.toNat - 0x8000) / 0x2000) := by
    simp
    omega
  rw [prgBanks_get]
  refine ((Mapper.sameWindow_prgOffset board.mapper hSize ?_ ?_ ?_).wrap hSize).eq
  · rw [hStart]
    omega
  · rw [hStart, prgWindowSize]
    omega
  · rw [hStart, prgWindowSize]
    omega

theorem chrIndex_eq (board : Board) (hSize : chrWindowSize ∣ board.chr.size) {a : UInt16}
    (h : a.toNat < 0x2000) :
    (board.chrIndex a).val =
      board.banking.chrBanks.get ⟨_, chrWindow_lt h⟩ * chrWindowSize + a.toNat % chrWindowSize := by
  have hStart : (0x0400 * (a.toNat / 0x0400).toUInt16 : UInt16).toNat =
      0x0400 * (a.toNat / 0x0400) := by
    simp
    omega
  rw [chrBanks_get]
  refine ((Mapper.sameWindow_chrOffset board.mapper board.chr.size ?_ ?_).wrap hSize).eq
  · rw [hStart, chrWindowSize]
    omega
  · rw [hStart, chrWindowSize]
    omega

/-- Whatever was done to a board, the banks that it reports are those that it reads, and they are
present: program memory is that of the cartridge, pattern memory is that of the cartridge or eight
kibibytes that can be written. -/
theorem banking_shows_what_is_read (c : Cartridge) (hPrg : prgBankSize ∣ c.prg.size)
    (hChr : chrBankSize ∣ c.chr.size) (operations : List Operation) :
    let board := (powerOn c).performAll operations
    let report := board.banking
    (∀ (a : UInt16) (_ : 0x8000 ≤ a.toNat),
      let w := ⟨(a.toNat - 0x8000) / 0x2000, prgWindow_lt a⟩
      c.prg[report.prgBanks.get w * 0x2000 + a.toNat % 0x2000]? = some (board.read a)) ∧
    (∀ (a : UInt16) (h : a.toNat < 0x2000),
      let w := ⟨a.toNat / 0x0400, chrWindow_lt h⟩
      board.chr[report.chrBanks.get w * 0x0400 + a.toNat % 0x0400]? = some (board.chrRead a)) ∧
    (c.chr ≠ #[] → board.chr = c.chr) ∧ (c.chr = #[] → board.chr.size = 0x2000) ∧
    (∀ w, report.prgBanks.get w < c.prg.size / 0x2000) ∧
    (∀ w, report.chrBanks.get w < board.chr.size / 0x0400) := by
  intro board report
  have hCarries : board.Carries c := (carries_powerOn c).performAll operations
  have hPrgSize := hCarries.prg_dvd hPrg
  have hChrSize := hCarries.chr_dvd hChr
  refine ⟨?_, ?_, hCarries.chr, hCarries.chrRam, ?_, ?_⟩
  · intro a ha w
    rw [← hCarries.prg, ← board.read_prg ha]
    exact congrArg (board.prg[·]?) (board.prgIndex_eq hPrgSize ha).symm
  · intro a ha w
    have hPlace := congrArg (board.chr[·]?) (board.chrIndex_eq hChrSize ha).symm
    exact hPlace.trans (Array.getElem?_eq_getElem (board.chrIndex a).isLt)
  · intro w
    rw [← hCarries.prg, prgBanks_get]
    exact Nat.div_lt_div_of_lt_of_dvd hPrgSize (Fin.isLt _)
  · intro w
    rw [chrBanks_get]
    exact Nat.div_lt_div_of_lt_of_dvd hChrSize (Fin.isLt _)

/-- With six program banks and a register that asks for the tenth, the banks reported are still
among the six. -/
theorem banking_shows_what_is_read_six_banks :
    let c : Cartridge :=
      ⟨Array.replicate 0xC000 0xEA, #[], .mmc3, .vertical, false, none,
        by rw [Array.size_replicate]; decide⟩
    let operations : List Operation := [.write 0x8000 6, .write 0x8001 9]
    prgBankSize ∣ c.prg.size ∧ chrBankSize ∣ c.chr.size ∧
      ∀ w, ((powerOn c).performAll operations).banking.prgBanks.get w < 6 := by
  intro c operations
  have hSize : c.prg.size = 0xC000 := Array.size_replicate
  have hPrg : prgBankSize ∣ c.prg.size := by
    rw [hSize]
    decide
  have hChr : chrBankSize ∣ c.chr.size := by decide
  refine ⟨hPrg, hChr, ?_⟩
  have hBanks := (banking_shows_what_is_read c hPrg hChr operations).2.2.2.2.1
  rw [hSize] at hBanks
  exact hBanks

end Board

end Famicom

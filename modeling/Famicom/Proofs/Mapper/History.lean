import Famicom.Proofs.Board.Banking

/-!
# Histories of a mapper

A mapper sees two things of what is done to its board: the writes of the processor from $8000 up
and the dots of the raster.  Here they are cut out of a run of the board, so that statements about
a chip speak of its own history.
-/

namespace Famicom

namespace Mapper

structure RegisterWrite where
  address : UInt16
  value : UInt8
  deriving DecidableEq

def perform (mapper : Mapper) : Board.Operation → Mapper
  | .write address value => if 0x8000 ≤ address then mapper.write address value else mapper
  | .observe position => mapper.observe position
  | _ => mapper

def performAll (mapper : Mapper) (operations : List Board.Operation) : Mapper :=
  operations.foldl perform mapper

end Mapper

namespace Board

def Operation.registerWrite? : Operation → Option Mapper.RegisterWrite
  | .write address value => if 0x8000 ≤ address then some ⟨address, value⟩ else none
  | _ => none

def registerWrites (operations : List Operation) : List Mapper.RegisterWrite :=
  operations.filterMap Operation.registerWrite?

theorem write_mapper (board : Board) (address : UInt16) (value : UInt8) :
    (board.write address value).mapper =
      if 0x8000 ≤ address then board.mapper.write address value else board.mapper := by
  by_cases hHigh : 0x8000 ≤ address
  · have hMid : ¬address < 0x8000 := UInt16.not_lt.2 hHigh
    have hLow : ¬address < 0x6000 := UInt16.not_lt.2 (UInt16.le_trans (by decide) hHigh)
    simp only [write, hLow, hMid, hHigh, ↓reduceIte]
  · have hMid : address < 0x8000 := UInt16.not_le.1 hHigh
    simp only [write, hMid, hHigh, ↓reduceIte]
    split <;> rfl

theorem chrWrite_mapper (board : Board) (address : UInt16) (value : UInt8) :
    (board.chrWrite address value).mapper = board.mapper := by
  unfold chrWrite
  split <;> rfl

theorem perform_mapper (board : Board) (operation : Operation) :
    (board.perform operation).mapper = board.mapper.perform operation := by
  cases operation with
  | read address => rfl
  | write address value => exact board.write_mapper address value
  | chrRead address => rfl
  | chrWrite address value => exact board.chrWrite_mapper address value
  | observe position => rfl

theorem performAll_mapper (board : Board) (operations : List Operation) :
    (board.performAll operations).mapper = board.mapper.performAll operations := by
  induction operations generalizing board with
  | nil => rfl
  | cons operation rest ih =>
    show ((board.perform operation).performAll rest).mapper = _
    rw [ih, perform_mapper]
    rfl

end Board

/-! ### The registers of MMC3 -/

namespace Mapper

namespace Mmc3

/-- The eight registers: two on each page of $2000 bytes, told apart by the lowest bit of the
address. -/
inductive Port where
  | select
  | bank
  | mirroring
  | protection
  | latch
  | reload
  | acknowledge
  | enable
  deriving DecidableEq

def portOf (address : UInt16) : Port :=
  if address.toNat < 0xA000 then if address.toNat % 2 = 0 then .select else .bank
  else if address.toNat < 0xC000 then if address.toNat % 2 = 0 then .mirroring else .protection
  else if address.toNat < 0xE000 then if address.toNat % 2 = 0 then .latch else .reload
  else if address.toNat % 2 = 0 then .acknowledge else .enable

theorem slot_select_lt (chip : Mmc3) : (slot chip.select.toNat).val < 8 :=
  (slot chip.select.toNat).isLt

def store (chip : Mmc3) (value : UInt8) : Port → Mmc3
  | .select => { chip with select := value }
  | .bank =>
    { chip with banks := chip.banks.set (slot chip.select.toNat) value chip.slot_select_lt }
  | .mirroring =>
    { chip with mirroring := some (if anyBit value 0x01 then .horizontal else .vertical) }
  | .protection => chip
  | .latch => { chip with latch := value }
  | .reload => { chip with counter := 0, reload := true }
  | .acknowledge => { chip with irqEnabled := false, irqPending := false }
  | .enable => { chip with irqEnabled := true }

theorem write_eq (chip : Mmc3) (address : UInt16) (value : UInt8) :
    chip.write address value = chip.store value (portOf address) := by
  have hEven : address % 2 = 0 ↔ address.toNat % 2 = 0 := by
    rw [← UInt16.toNat_inj]
    rfl
  simp only [write, portOf, UInt16.lt_iff_toNat_lt, UInt16.reduceToNat, hEven]
  split
  · split <;> rfl
  · split
    · split <;> rfl
    · split <;> split <;> rfl

def perform (chip : Mmc3) : Board.Operation → Mmc3
  | .write address value =>
    if 0x8000 ≤ address then chip.store value (portOf address) else chip
  | .observe position => chip.observe position
  | _ => chip

def performAll (chip : Mmc3) (operations : List Board.Operation) : Mmc3 :=
  operations.foldl perform chip

end Mmc3

theorem perform_mmc3 (chip : Mmc3) (operation : Board.Operation) :
    (Mapper.mmc3 chip).perform operation = .mmc3 (chip.perform operation) := by
  cases operation with
  | write address value =>
    simp only [perform, Mmc3.perform, write, Mmc3.write_eq]
    split <;> rfl
  | read address => rfl
  | chrRead address => rfl
  | chrWrite address value => rfl
  | observe position => rfl

theorem performAll_mmc3 (chip : Mmc3) (operations : List Board.Operation) :
    (Mapper.mmc3 chip).performAll operations = .mmc3 (chip.performAll operations) := by
  induction operations generalizing chip with
  | nil => rfl
  | cons operation rest ih =>
    show ((Mapper.mmc3 chip).perform operation).performAll rest = _
    rw [perform_mmc3, ih]
    rfl

end Mapper

end Famicom

import Famicom.Proofs.Bits
import Famicom.Proofs.Checked.Arithmetic
import Famicom.Proofs.Mapper.History

/-!
# The banks of MMC3

The banks in effect are told by the history of register writes alone: the last value of the select
register, and for each of the eight bank registers the last value stored while the select register
named it.  Writes to the interrupt registers and dots of the raster leave the banks as they are.
-/

namespace Famicom.Mapper.Mmc3

/-! ### What a history tells -/

def lastValue? (port : Port) (ws : List RegisterWrite) : Option UInt8 :=
  ((ws.filter fun w => portOf w.address = port).getLast?).map RegisterWrite.value

/-- The value last written to the select register, zero if none was. -/
def selected (ws : List RegisterWrite) : Nat :=
  ((lastValue? .select ws).getD 0).toNat

/-- Each of some writes, with all writes before it. -/
def withPast (past : List RegisterWrite) :
    List RegisterWrite → List (List RegisterWrite × RegisterWrite)
  | [] => []
  | w :: rest => (past, w) :: withPast (past ++ [w]) rest

/-- The values stored while the select register named a bank register, in order. -/
def stored (i : Nat) (ws : List RegisterWrite) : List UInt8 :=
  (withPast [] ws).filterMap fun (past, w) =>
    if portOf w.address = .bank ∧ selected past % 8 = i then some w.value else none

/-- The value last stored in a bank register, zero if none was. -/
def bankRegister (ws : List RegisterWrite) (i : Nat) : Nat :=
  ((stored i ws).getLast?.getD 0).toNat

/-- The 8 KiB banks of the four program windows, with `P` banks present. -/
def prgWindows (P m : Nat) (R : Nat → Nat) : Vector Nat 4 :=
  let plain := #v[R 6 % 64 % P, R 7 % 64 % P, P - 2, P - 1]
  if m / 64 % 2 = 1 then plain.swap 0 2 else plain

/-- The 1 KiB banks of the eight pattern windows, with `C` banks present. -/
def chrWindows (C m : Nat) (R : Nat → Nat) : Vector Nat 8 :=
  let plain := #v[R 0 / 2 * 2 % C, (R 0 / 2 * 2 + 1) % C, R 1 / 2 * 2 % C, (R 1 / 2 * 2 + 1) % C,
    R 2 % C, R 3 % C, R 4 % C, R 5 % C]
  if m / 128 % 2 = 1 then Vector.ofFn fun w => plain.get (w ^^^ ⟨4, by decide⟩) else plain

def mirroringAfter (wiring : Mirroring) (ws : List RegisterWrite) : Mirroring :=
  if wiring = .fourScreen then .fourScreen
  else match lastValue? .mirroring ws with
    | some value => if value.toNat % 2 = 0 then .vertical else .horizontal
    | none => wiring

/-! ### Histories that grow -/

theorem lastValue?_concat (port : Port) (ws : List RegisterWrite) (w : RegisterWrite) :
    lastValue? port (ws ++ [w]) =
      if portOf w.address = port then some w.value else lastValue? port ws := by
  by_cases h : portOf w.address = port
  · simp [lastValue?, h]
  · simp [lastValue?, h]

theorem withPast_concat (past ws : List RegisterWrite) (w : RegisterWrite) :
    withPast past (ws ++ [w]) = withPast past ws ++ [(past ++ ws, w)] := by
  induction ws generalizing past with
  | nil => simp [withPast]
  | cons v ws ih => simp [withPast, ih]

theorem stored_concat (i : Nat) (ws : List RegisterWrite) (w : RegisterWrite) :
    stored i (ws ++ [w]) = stored i ws ++
      if portOf w.address = .bank ∧ selected ws % 8 = i then [w.value] else [] := by
  unfold stored
  rw [withPast_concat, List.nil_append, List.filterMap_append]
  by_cases h : portOf w.address = .bank ∧ selected ws % 8 = i
  · simp [h]
  · simp [h]

/-- Select register, bank registers and mirroring of a chip are what a history tells. -/
structure Recalls (chip : Mmc3) (ws : List RegisterWrite) : Prop where
  select : chip.select.toNat = selected ws
  banks : ∀ i < 8, chip.bank i = bankRegister ws i
  mirroring : chip.mirroring = (lastValue? .mirroring ws).map fun value =>
    if value.toNat % 2 = 0 then .vertical else .horizontal

theorem recalls_powerOn : powerOn.Recalls [] where
  select := rfl
  banks i _ := by simp [bank, powerOn, bankRegister, stored, withPast, Vector.get]
  mirroring := rfl

theorem bank_set (chip : Mmc3) (value : UInt8) {i : Nat} (hi : i < 8) :
    bank
        { chip with banks := chip.banks.set (slot chip.select.toNat) value chip.slot_select_lt } i =
      if chip.select.toNat % 8 = i then value.toNat else chip.bank i := by
  have hSlot : (slot i).val = i := Nat.mod_eq_of_lt hi
  rw [bank, bank, Checked.get_set, hSlot]
  show (if chip.select.toNat % 8 = i then value else chip.banks.get (slot i)).toNat = _
  split <;> rfl

theorem Recalls.store {chip : Mmc3} {ws : List RegisterWrite} (h : chip.Recalls ws)
    (w : RegisterWrite) : (chip.store w.value (portOf w.address)).Recalls (ws ++ [w]) := by
  have hSelected (hPort : portOf w.address ≠ .select) : selected (ws ++ [w]) = selected ws := by
    rw [selected, lastValue?_concat, if_neg hPort]
    rfl
  have hBanks (hPort : portOf w.address ≠ .bank) (i : Nat) :
      bankRegister (ws ++ [w]) i = bankRegister ws i := by
    simp [bankRegister, stored_concat, hPort]
  have hMirroring (hPort : portOf w.address ≠ .mirroring) :
      lastValue? .mirroring (ws ++ [w]) = lastValue? .mirroring ws := by
    rw [lastValue?_concat, if_neg hPort]
  -- Every register but three leaves what the history tells of all three.
  have hOther (hSelect : portOf w.address ≠ .select) (hBank : portOf w.address ≠ .bank)
      (hMirror : portOf w.address ≠ .mirroring) {next : Mmc3} (hS : next.select = chip.select)
      (hB : next.banks = chip.banks) (hM : next.mirroring = chip.mirroring) :
      next.Recalls (ws ++ [w]) := by
    refine ⟨?_, ?_, ?_⟩
    · rw [hS, hSelected hSelect, h.select]
    · intro i hi
      rw [hBanks hBank, ← h.banks i hi, bank, bank, hB]
    · rw [hM, hMirroring hMirror, h.mirroring]
  cases hPort : portOf w.address with
  | select =>
    refine ⟨?_, ?_, ?_⟩
    · simp [Mmc3.store, selected, lastValue?_concat, hPort]
    · intro i hi
      rw [hBanks (by simp [hPort]), ← h.banks i hi]
      rfl
    · rw [hMirroring (by simp [hPort]), ← h.mirroring]
      rfl
  | bank =>
    refine ⟨?_, ?_, ?_⟩
    · rw [hSelected (by simp [hPort]), ← h.select]
      rfl
    · intro i hi
      rw [Mmc3.store, chip.bank_set _ hi, h.select, h.banks i hi, bankRegister, bankRegister,
        stored_concat]
      by_cases hHere : selected ws % 8 = i
      · simp [hPort, hHere]
      · simp [hHere]
    · rw [hMirroring (by simp [hPort]), ← h.mirroring]
      rfl
  | mirroring =>
    refine ⟨?_, ?_, ?_⟩
    · rw [hSelected (by simp [hPort]), ← h.select]
      rfl
    · intro i hi
      rw [hBanks (by simp [hPort]), ← h.banks i hi]
      rfl
    · have hBit : anyBit w.value 0x01 = true ↔ w.value.toNat % 2 ^ 1 ≠ 0 := anyBit_low rfl
      rw [lastValue?_concat, if_pos hPort, Mmc3.store, Option.map_some]
      simp only [hBit, Nat.pow_one]
      split <;> simp_all
  | protection => exact hOther (by simp [hPort]) (by simp [hPort]) (by simp [hPort]) rfl rfl rfl
  | latch => exact hOther (by simp [hPort]) (by simp [hPort]) (by simp [hPort]) rfl rfl rfl
  | reload => exact hOther (by simp [hPort]) (by simp [hPort]) (by simp [hPort]) rfl rfl rfl
  | acknowledge => exact hOther (by simp [hPort]) (by simp [hPort]) (by simp [hPort]) rfl rfl rfl
  | enable => exact hOther (by simp [hPort]) (by simp [hPort]) (by simp [hPort]) rfl rfl rfl

theorem observe_banks (chip : Mmc3) (position : Ppu.Position) :
    (chip.observe position).select = chip.select ∧ (chip.observe position).banks = chip.banks ∧
      (chip.observe position).mirroring = chip.mirroring := by
  unfold observe clock
  split <;> exact ⟨rfl, rfl, rfl⟩

theorem Recalls.performAll {chip : Mmc3} {ws : List RegisterWrite} (h : chip.Recalls ws)
    (operations : List Board.Operation) :
    (chip.performAll operations).Recalls (ws ++ Board.registerWrites operations) := by
  induction operations generalizing chip ws with
  | nil =>
    show chip.Recalls (ws ++ [])
    rwa [List.append_nil]
  | cons operation rest ih =>
    show ((chip.perform operation).performAll rest).Recalls _
    cases operation with
    | write address value =>
      by_cases hHigh : 0x8000 ≤ address
      · have hNext := ih (h.store ⟨address, value⟩)
        simpa [perform, Board.registerWrites, Board.Operation.registerWrite?, hHigh] using hNext
      · simpa [perform, Board.registerWrites, Board.Operation.registerWrite?, hHigh] using ih h
    | read address => exact ih h
    | chrRead address => exact ih h
    | chrWrite address value => exact ih h
    | observe position =>
      obtain ⟨hSelect, hBanks, hMirroring⟩ := chip.observe_banks position
      refine ih ⟨?_, ?_, ?_⟩
      · rw [← h.select]
        exact congrArg UInt8.toNat hSelect
      · intro i hi
        rw [← h.banks i hi, bank, bank]
        exact congrArg (fun banks => (banks.get (slot i)).toNat) hBanks
      · rw [← h.mirroring]
        exact hMirroring

/-! ### Windows of a board -/

section Windows

variable {board : Board} {chip : Mmc3} (hMapper : board.mapper = .mmc3 chip)

include hMapper

theorem prgBanks_mmc3 (hSize : prgWindowSize ∣ board.prg.size) (w : Fin 4) :
    board.banking.prgBanks.get w =
      chip.prgBank (board.prg.size / 0x2000) w.val % (board.prg.size / 0x2000) := by
  obtain ⟨banks, hBanks⟩ := hSize
  have hPos := board.prg_pos
  have hw := w.isLt
  simp only [prgWindowSize] at hBanks
  have hCount : bankCount board.prg.size 0x2000 = banks := by
    unfold bankCount
    omega
  have hStart : (0x8000 + 0x2000 * w.val.toUInt16 : UInt16).toNat = 0x8000 + 0x2000 * w.val := by
    simp
    omega
  have hWindow : (0x8000 + 0x2000 * w.val - 0x8000) / 0x2000 = w.val := by omega
  have hFirst : (0x8000 + 0x2000 * w.val) % 0x2000 = 0 := by omega
  have hLess := Nat.mod_lt (chip.prgBank banks w.val) (by omega : banks > 0)
  have hQuotient : board.prg.size / 0x2000 = banks := by omega
  rw [Board.prgBanks_get, hQuotient]
  show board.mapper.prgOffset board.prg.size _ % board.prg.size / 0x2000 = _
  simp only [hMapper, prgOffset, bankOffset, hCount, hStart, hWindow, hFirst]
  rw [Nat.mod_eq_of_lt (by omega)]
  omega

theorem chrBanks_mmc3 (hSize : chrWindowSize ∣ board.chr.size) (w : Fin 8) :
    board.banking.chrBanks.get w =
      chip.chrBank w.val % (board.chr.size / 0x400) := by
  obtain ⟨banks, hBanks⟩ := hSize
  have hPos := board.chr_pos
  have hw := w.isLt
  simp only [chrWindowSize] at hBanks
  have hCount : bankCount board.chr.size 0x400 = banks := by
    unfold bankCount
    omega
  have hStart : (0x400 * w.val.toUInt16 : UInt16).toNat = 0x400 * w.val := by
    simp
    omega
  have hWindow : 0x400 * w.val % 0x2000 / 0x400 = w.val := by omega
  have hFirst : 0x400 * w.val % 0x400 = 0 := by omega
  have hLess := Nat.mod_lt (chip.chrBank w.val) (by omega : banks > 0)
  have hQuotient : board.chr.size / 0x400 = banks := by omega
  rw [Board.chrBanks_get, hQuotient]
  show board.mapper.chrOffset board.chr.size _ % board.chr.size / 0x400 = _
  simp only [hMapper, chrOffset, bankOffset, hCount, hStart, hWindow, hFirst]
  rw [Nat.mod_eq_of_lt (by omega)]
  omega

end Windows

theorem Recalls.prgBank_eq {chip : Mmc3} {ws : List RegisterWrite} (h : chip.Recalls ws)
    {P : Nat} (hP : 2 ≤ P) (w : Fin 4) :
    chip.prgBank P w.val % P = (prgWindows P (selected ws) (bankRegister ws)).get w := by
  have hSwap : anyBit chip.select 0x40 = true ↔ selected ws / 64 % 2 = 1 := by
    rw [← h.select]
    exact anyBit_single (k := 6) rfl
  have hLast : (P - 1) % P = P - 1 := Nat.mod_eq_of_lt (by omega)
  have hBefore : (P - 2) % P = P - 2 := Nat.mod_eq_of_lt (by omega)
  simp only [prgBank, prgWindows, hSwap, h.banks 6 (by decide), h.banks 7 (by decide)]
  by_cases hBit : selected ws / 64 % 2 = 1
  · simp only [hBit, ↓reduceIte]
    match w with
    | 0 => exact hBefore
    | 1 => rfl
    | 2 => rfl
    | 3 => exact hLast
  · simp only [hBit, ↓reduceIte]
    match w with
    | 0 => rfl
    | 1 => rfl
    | 2 => exact hBefore
    | 3 => exact hLast

theorem Recalls.chrBank_eq {chip : Mmc3} {ws : List RegisterWrite} (h : chip.Recalls ws)
    (C : Nat) (w : Fin 8) :
    chip.chrBank w.val % C = (chrWindows C (selected ws) (bankRegister ws)).get w := by
  have hSwap : anyBit chip.select 0x80 = true ↔ selected ws / 128 % 2 = 1 := by
    rw [← h.select]
    exact anyBit_single (k := 7) rfl
  simp only [chrBank, chrWindows, hSwap, h.banks 0 (by decide), h.banks 1 (by decide),
    h.banks 2 (by decide), h.banks 3 (by decide), h.banks 4 (by decide), h.banks 5 (by decide)]
  by_cases hBit : selected ws / 128 % 2 = 1
  · simp only [hBit, ↓reduceIte]
    match w with
    | 0 | 1 | 2 | 3 | 4 | 5 | 6 | 7 => rfl
  · simp only [hBit, ↓reduceIte]
    match w with
    | 0 | 1 | 2 | 3 | 4 | 5 | 6 | 7 => rfl

/-! ### What leaves the banks alone -/

/-- A dot, or a write to one of the interrupt registers. -/
def leavesBanks : Board.Operation → Bool
  | .observe _ => true
  | .write address _ => decide (0xC000 ≤ address.toNat)
  | _ => false

structure SameBanks (a b : Mmc3) : Prop where
  select : b.select = a.select
  banks : b.banks = a.banks
  mirroring : b.mirroring = a.mirroring

theorem SameBanks.store {a b : Mmc3} (h : SameBanks a b) (value : UInt8) (port : Port) :
    SameBanks (a.store value port) (b.store value port) := by
  obtain ⟨hSelect, hBanks, hMirroring⟩ := h
  cases port with
  | select => exact ⟨rfl, hBanks, hMirroring⟩
  | bank => exact ⟨hSelect, by simp only [Mmc3.store, hSelect, hBanks], hMirroring⟩
  | mirroring => exact ⟨hSelect, hBanks, rfl⟩
  | protection => exact ⟨hSelect, hBanks, hMirroring⟩
  | latch => exact ⟨hSelect, hBanks, hMirroring⟩
  | reload => exact ⟨hSelect, hBanks, hMirroring⟩
  | acknowledge => exact ⟨hSelect, hBanks, hMirroring⟩
  | enable => exact ⟨hSelect, hBanks, hMirroring⟩

theorem SameBanks.observe {a b : Mmc3} (h : SameBanks a b) (position : Ppu.Position) :
    SameBanks (a.observe position) b := by
  obtain ⟨hSelect, hBanks, hMirroring⟩ := a.observe_banks position
  exact ⟨h.select.trans hSelect.symm, h.banks.trans hBanks.symm,
    h.mirroring.trans hMirroring.symm⟩

theorem SameBanks.interrupt {a b : Mmc3} (h : SameBanks a b) {address : UInt16}
    (hHigh : 0xC000 ≤ address.toNat) (value : UInt8) :
    SameBanks (a.store value (portOf address)) b := by
  have hNotLow : ¬address.toNat < 0xA000 := by omega
  have hNotMid : ¬address.toNat < 0xC000 := by omega
  simp only [portOf, hNotLow, hNotMid, ↓reduceIte]
  split <;> split <;> exact ⟨h.select, h.banks, h.mirroring⟩

theorem SameBanks.performAll {a b : Mmc3} (h : SameBanks a b)
    (operations : List Board.Operation) :
    SameBanks (a.performAll operations)
      (b.performAll (operations.filter fun operation => !leavesBanks operation)) := by
  induction operations generalizing a b with
  | nil => exact h
  | cons operation rest ih =>
    show SameBanks ((a.perform operation).performAll rest) _
    cases operation with
    | read address => exact ih h
    | chrRead address => exact ih h
    | chrWrite address value => exact ih h
    | observe position => exact ih (h.observe position)
    | write address value =>
      by_cases hHigh : 0xC000 ≤ address.toNat
      · have hPort : 0x8000 ≤ address := by
          rw [UInt16.le_iff_toNat_le]
          exact Nat.le_trans (by decide) hHigh
        have hLeaves : leavesBanks (.write address value) = true := decide_eq_true hHigh
        rw [List.filter_cons_of_neg (by simp [hLeaves]), perform, if_pos hPort]
        exact ih (h.interrupt hHigh value)
      · have hTouches : leavesBanks (.write address value) = false := decide_eq_false hHigh
        rw [List.filter_cons_of_pos (by simp [hTouches])]
        refine ih ?_
        simp only [perform]
        split
        · exact h.store value (portOf address)
        · exact h

theorem SameBanks.prgBank {a b : Mmc3} (h : SameBanks a b) (P w : Nat) :
    b.prgBank P w = a.prgBank P w := by
  simp only [Mmc3.prgBank, bank, h.select, h.banks]

theorem SameBanks.chrBank {a b : Mmc3} (h : SameBanks a b) (w : Nat) :
    b.chrBank w = a.chrBank w := by
  simp only [Mmc3.chrBank, bank, h.select, h.banks]

/-! ### A board since power came on -/

theorem mapper_since_powerOn {c : Cartridge} (hKind : c.kind = .mmc3)
    (operations : List Board.Operation) :
    ((Board.powerOn c).performAll operations).mapper = .mmc3 (powerOn.performAll operations) := by
  have hStart : (Board.powerOn c).mapper = .mmc3 powerOn := by
    show Mapper.powerOn c.kind = _
    rw [hKind]
    rfl
  rw [Board.performAll_mapper, hStart, performAll_mmc3]

theorem wiring_performAll (board : Board) (operations : List Board.Operation) :
    (board.performAll operations).wiring = board.wiring := by
  induction operations generalizing board with
  | nil => rfl
  | cons operation rest ih =>
    refine (ih (board.perform operation)).trans ?_
    cases operation with
    | read address => rfl
    | chrRead address => rfl
    | observe position => rfl
    | write address value =>
      simp only [Board.perform, Board.write]
      split
      · rfl
      · split <;> rfl
    | chrWrite address value =>
      show (board.chrWrite address value).wiring = board.wiring
      unfold Board.chrWrite
      split <;> rfl

theorem chrSize_eq {board : Board} {c : Cartridge} (h : board.Carries c) :
    board.chr.size = if c.chr = #[] then chrBankSize else c.chr.size := by
  split
  · rename_i hRam
    exact h.chrRam hRam
  · rename_i hRom
    rw [h.chr hRom]

theorem chrSize_dvd {board : Board} {c : Cartridge} (h : board.Carries c)
    (hChr : chrBankSize ∣ c.chr.size) : chrBankSize ∣ board.chr.size := by
  rw [chrSize_eq h]
  split
  · exact Nat.dvd_refl _
  · exact hChr

/-- With a whole number of 8 KiB of pattern memory, a pair of banks wraps as a pair. -/
theorem pair_mod {size : Nat} (hPos : 0 < size) (hSize : chrBankSize ∣ size) (r : Nat) :
    (r / 2 * 2 + 1) % (size / 0x400) = r / 2 * 2 % (size / 0x400) + 1 := by
  obtain ⟨k, hk⟩ := hSize
  simp only [chrBankSize] at hk
  have hBanks : size / 0x400 = 4 * k * 2 := by omega
  have hLess := Nat.mod_lt (r / 2) (by omega : 4 * k > 0)
  have hOne : 1 % (4 * k * 2) = 1 := Nat.mod_eq_of_lt (by omega)
  have hEven : r / 2 * 2 % (4 * k * 2) = r / 2 % (4 * k) * 2 := Nat.mul_mod_mul_right _ _ _
  rw [hBanks, Nat.add_mod, hOne, Nat.mod_eq_of_lt (by omega)]

theorem Recalls.mirroring_eq {board : Board} {chip : Mmc3} {ws : List RegisterWrite}
    (h : chip.Recalls ws) (hMapper : board.mapper = .mmc3 chip) :
    board.mirroring = mirroringAfter board.wiring ws := by
  have hChip : board.mapper.mirroring? = chip.mirroring := by
    rw [hMapper]
    rfl
  rw [Board.mirroring, hChip, h.mirroring, mirroringAfter]
  cases lastValue? .mirroring ws <;> rfl

theorem prgWindows_top (P m : Nat) (R : Nat → Nat) : (prgWindows P m R).get 3 = P - 1 := by
  unfold prgWindows
  split <;> rfl

theorem prgWindows_shows_second_last (P m : Nat) (R : Nat → Nat) :
    ∃ w, (prgWindows P m R).get w = P - 2 := by
  unfold prgWindows
  split
  · exact ⟨0, rfl⟩
  · exact ⟨2, rfl⟩

theorem SameBanks.banking {a b : Board} {c : Cartridge} {chip chip' : Mmc3}
    (h : SameBanks chip chip') (hA : a.mapper = .mmc3 chip) (hB : b.mapper = .mmc3 chip')
    (hCarriesA : a.Carries c) (hCarriesB : b.Carries c) (hPrg : prgBankSize ∣ c.prg.size)
    (hChr : chrBankSize ∣ c.chr.size) :
    b.banking.prgBanks = a.banking.prgBanks ∧ b.banking.chrBanks = a.banking.chrBanks := by
  refine ⟨Vector.ext fun i hi => ?_, Vector.ext fun i hi => ?_⟩
  · have hHere := prgBanks_mmc3 hA (hCarriesA.prg_dvd hPrg) ⟨i, hi⟩
    have hThere := prgBanks_mmc3 hB (hCarriesB.prg_dvd hPrg) ⟨i, hi⟩
    rw [hCarriesA.prg] at hHere
    rw [hCarriesB.prg, h.prgBank] at hThere
    exact hThere.trans hHere.symm
  · have hHere := chrBanks_mmc3 hA (hCarriesA.chr_dvd hChr) ⟨i, hi⟩
    have hThere := chrBanks_mmc3 hB (hCarriesB.chr_dvd hChr) ⟨i, hi⟩
    have hSize : b.chr.size = a.chr.size :=
      (chrSize_eq hCarriesB).trans (chrSize_eq hCarriesA).symm
    rw [hSize, h.chrBank] at hThere
    exact hThere.trans hHere.symm

section Recalled

variable {board : Board} {c : Cartridge} {chip : Mmc3} {ws : List RegisterWrite}
  (h : chip.Recalls ws) (hMapper : board.mapper = .mmc3 chip) (hCarries : board.Carries c)

include h hMapper hCarries

theorem Recalls.prgBanks (hPrg : prgBankSize ∣ c.prg.size) (w : Fin 4) :
    board.banking.prgBanks.get w =
      (prgWindows (c.prg.size / 0x2000) (selected ws) (bankRegister ws)).get w := by
  have hTwo : 2 ≤ c.prg.size / 0x2000 := by
    obtain ⟨k, hk⟩ := hPrg
    have hPos := c.prg_pos
    simp only [prgBankSize] at hk
    omega
  rw [prgBanks_mmc3 hMapper (hCarries.prg_dvd hPrg) w, hCarries.prg]
  exact h.prgBank_eq hTwo w

theorem Recalls.chrBanks (hChr : chrBankSize ∣ c.chr.size) (w : Fin 8) :
    board.banking.chrBanks.get w =
      (chrWindows (board.chr.size / 0x400) (selected ws) (bankRegister ws)).get w := by
  rw [chrBanks_mmc3 hMapper (hCarries.chr_dvd hChr) w]
  exact h.chrBank_eq _ w

theorem Recalls.read_prg (hPrg : prgBankSize ∣ c.prg.size) {a : UInt16} (ha : 0x8000 ≤ a.toNat) :
    c.prg[(prgWindows (c.prg.size / 0x2000) (selected ws) (bankRegister ws)).get
      ⟨_, Board.prgWindow_lt a⟩ * 0x2000 + a.toNat % 0x2000]? = some (board.read a) := by
  rw [← h.prgBanks hMapper hCarries hPrg, ← hCarries.prg, ← board.read_prg ha]
  exact congrArg (board.prg[·]?) (board.prgIndex_eq (hCarries.prg_dvd hPrg) ha).symm

/-- The top of program memory shows the last bank whatever the chip holds. -/
theorem Recalls.read_top (hPrg : prgBankSize ∣ c.prg.size) {a : UInt16} (ha : 0xE000 ≤ a.toNat) :
    c.prg[c.prg.size - 0x2000 + a.toNat % 0x2000]? = some (board.read a) := by
  have hWindow : (⟨(a.toNat - 0x8000) / 0x2000, Board.prgWindow_lt a⟩ : Fin 4) = 3 := by
    have hLess := a.toNat_lt
    apply Fin.ext
    show (a.toNat - 0x8000) / 0x2000 = 3
    omega
  have hLast : c.prg.size - 0x2000 = (c.prg.size / 0x2000 - 1) * 0x2000 := by
    obtain ⟨k, hk⟩ := hPrg
    simp only [prgBankSize] at hk
    omega
  rw [← h.read_prg hMapper hCarries hPrg (by omega), hWindow, prgWindows_top, hLast]

theorem Recalls.read_chr (hChr : chrBankSize ∣ c.chr.size) {a : UInt16} (ha : a.toNat < 0x2000) :
    board.chr[(chrWindows (board.chr.size / 0x400) (selected ws) (bankRegister ws)).get
      ⟨_, Board.chrWindow_lt ha⟩ * 0x400 + a.toNat % 0x400]? = some (board.chrRead a) := by
  rw [← h.chrBanks hMapper hCarries hChr]
  have hPlace := congrArg (board.chr[·]?) (board.chrIndex_eq (hCarries.chr_dvd hChr) ha).symm
  exact hPlace.trans (Array.getElem?_eq_getElem (board.chrIndex a).isLt)

end Recalled

/-- Whatever was done to a board since power came on, with `m` the value last written to the
select register and `R` the values last stored in the bank registers: the windows of program
memory show `R 6`, `R 7` and the last two banks, the first and the third exchanged when bit 6 of
`m` is set, and the bank at the top never changes; those of pattern memory show pairs of banks
after `R 0` and `R 1` and the banks `R 2` to `R 5`, the halves exchanged when bit 7 of `m` is set;
the mirroring is that last written unless the board has four screens.  Dots and writes to the
interrupt registers have no part in it. -/
theorem banks_follow_history (c : Cartridge) (hKind : c.kind = .mmc3)
    (hPrg : prgBankSize ∣ c.prg.size) (hChr : chrBankSize ∣ c.chr.size)
    (operations : List Board.Operation) :
    let board := (Board.powerOn c).performAll operations
    let quiet := (Board.powerOn c).performAll
      (operations.filter fun operation => !leavesBanks operation)
    let ws := Board.registerWrites operations
    let m := selected ws
    let R := bankRegister ws
    let P := c.prg.size / 0x2000
    let C := board.chr.size / 0x400
    board.banking.prgBanks = prgWindows P m R ∧
    (∀ (a : UInt16) (_ : 0x8000 ≤ a.toNat),
      let w := ⟨(a.toNat - 0x8000) / 0x2000, Board.prgWindow_lt a⟩
      c.prg[(prgWindows P m R).get w * 0x2000 + a.toNat % 0x2000]? = some (board.read a)) ∧
    (∃ w, (prgWindows P m R).get w = P - 2) ∧
    (∀ a : UInt16, 0xE000 ≤ a.toNat →
      c.prg[c.prg.size - 0x2000 + a.toNat % 0x2000]? = some (board.read a)) ∧
    board.banking.chrBanks = chrWindows C m R ∧
    (∀ (a : UInt16) (h : a.toNat < 0x2000),
      let w := ⟨a.toNat / 0x0400, Board.chrWindow_lt h⟩
      board.chr[(chrWindows C m R).get w * 0x400 + a.toNat % 0x400]? = some (board.chrRead a)) ∧
    (∀ i < 2, (R i / 2 * 2 + 1) % C = R i / 2 * 2 % C + 1) ∧
    board.mirroring = mirroringAfter c.mirroring ws ∧
    quiet.banking.prgBanks = board.banking.prgBanks ∧
    quiet.banking.chrBanks = board.banking.chrBanks ∧ quiet.mirroring = board.mirroring := by
  intro board quiet ws m R P C
  have hCarries : board.Carries c := (Board.carries_powerOn c).performAll operations
  have hQuietCarries : quiet.Carries c := (Board.carries_powerOn c).performAll _
  have hMapper : board.mapper = .mmc3 (powerOn.performAll operations) :=
    mapper_since_powerOn hKind operations
  have hQuiet : quiet.mapper = .mmc3 (powerOn.performAll _) := mapper_since_powerOn hKind _
  have hRecalls : (powerOn.performAll operations).Recalls ws :=
    recalls_powerOn.performAll operations
  have hSame := SameBanks.performAll (a := powerOn) (b := powerOn) ⟨rfl, rfl, rfl⟩ operations
  have hWiring : board.wiring = c.mirroring := wiring_performAll _ _
  have hQuietWiring : quiet.wiring = c.mirroring := wiring_performAll _ _
  obtain ⟨hQuietPrg, hQuietChr⟩ :=
    hSame.banking hMapper hQuiet hCarries hQuietCarries hPrg hChr
  refine ⟨Vector.ext fun i hi => hRecalls.prgBanks hMapper hCarries hPrg ⟨i, hi⟩,
    fun a ha => hRecalls.read_prg hMapper hCarries hPrg ha, prgWindows_shows_second_last P m R,
    fun a ha => hRecalls.read_top hMapper hCarries hPrg ha,
    Vector.ext fun i hi => hRecalls.chrBanks hMapper hCarries hChr ⟨i, hi⟩,
    fun a ha => hRecalls.read_chr hMapper hCarries hChr ha, ?_, ?_, hQuietPrg, hQuietChr, ?_⟩
  · intro i _
    exact pair_mod board.chr_pos (chrSize_dvd hCarries hChr) (R i)
  · rw [hRecalls.mirroring_eq hMapper, hWiring]
  · simp only [Board.mirroring, hMapper, hQuiet, Mapper.mirroring?, hSame.mirroring, hWiring,
      hQuietWiring]

/-- Six banks, the first and the third window exchanged, and register 6 asked for the tenth. -/
theorem banks_follow_history_six_banks :
    let c : Cartridge :=
      ⟨Array.replicate 0xC000 0xEA, #[], .mmc3, .vertical, false, none,
        by rw [Array.size_replicate]; decide⟩
    let operations : List Board.Operation :=
      [.write 0x8000 0x46, .observe ⟨3, 280, true⟩, .write 0xC001 5, .write 0x9FFF 9,
        .write 0xA000 1, .write 0x8000 0xC0, .write 0x8001 3]
    let board := (Board.powerOn c).performAll operations
    c.kind = .mmc3 ∧ prgBankSize ∣ c.prg.size ∧ chrBankSize ∣ c.chr.size ∧
      board.banking.prgBanks = #v[4, 0, 3, 5] ∧
      board.banking.chrBanks = #v[0, 0, 0, 0, 2, 3, 0, 1] ∧ board.mirroring = .horizontal := by
  intro c operations board
  have hSize : c.prg.size = 0xC000 := Array.size_replicate
  have hPrg : prgBankSize ∣ c.prg.size := by
    rw [hSize]
    decide
  have hChr : chrBankSize ∣ c.chr.size := by decide
  obtain ⟨hBanks, -, -, -, hPatterns, -, -, hMirroring, -⟩ :=
    banks_follow_history c rfl hPrg hChr operations
  have hRam : board.chr.size = 0x2000 :=
    ((Board.carries_powerOn c).performAll operations).chrRam rfl
  refine ⟨rfl, hPrg, hChr, hBanks.trans ?_, hPatterns.trans ?_, hMirroring.trans (by decide)⟩
  · rw [hSize]
    decide
  · rw [hRam]
    decide

end Famicom.Mapper.Mmc3

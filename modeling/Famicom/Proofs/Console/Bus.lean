import Famicom.Console.Bus
import Famicom.Proofs.Cpu.Footprint
import Famicom.Proofs.Ppu.Dot

/-!
# Accesses of the processor

What the accesses of the processor do to the beam, to the interrupt of the picture processor and
to the requested sprite transfer.  Reads, those of a sprite transfer included, change none of
them; a write changes the last two at one address each.  Since a step writes at most one byte
outside the stack, it raises the interrupt or requests a transfer at most once.
-/

namespace Famicom.SystemBus

/-! ### Reads -/

/-- What reads leave alone: only the vertical blank flag may have been taken back. -/
structure Calm (before after : SystemBus) : Prop where
  raster : after.ppu.raster = before.ppu.raster
  nmiPending : after.ppu.nmiPending = before.ppu.nmiPending
  vblank : after.ppu.status.vblank = true → before.ppu.status.vblank = true
  dmaPage : after.dmaPage = before.dmaPage

theorem Calm.refl (bus : SystemBus) : Calm bus bus :=
  ⟨rfl, rfl, id, rfl⟩

theorem Calm.trans {a b c : SystemBus} (h : Calm a b) (h' : Calm b c) : Calm a c where
  raster := h'.raster.trans h.raster
  nmiPending := h'.nmiPending.trans h.nmiPending
  vblank := h.vblank ∘ h'.vblank
  dmaPage := h'.dmaPage.trans h.dmaPage

theorem calm_read (bus : SystemBus) (address : UInt16) : Calm bus (bus.read address).2 := by
  obtain ⟨ram, ppu, board, dmaPage, openBus⟩ := bus
  simp only [read]
  split
  · exact ⟨rfl, rfl, id, rfl⟩
  · split
    · obtain ⟨hRaster, hNmi, hVblank⟩ := ppu.readRegister_keeps board address
      exact ⟨hRaster, hNmi, hVblank, rfl⟩
    · split
      · exact ⟨rfl, rfl, id, rfl⟩
      · split <;> exact ⟨rfl, rfl, id, rfl⟩

theorem calm_dmaByte (bus : SystemBus) (address : UInt16) : Calm bus (bus.dmaByte address) :=
  (bus.calm_read address).trans ⟨rfl, rfl, id, rfl⟩

theorem runDma_preserves {P : SystemBus → Prop}
    (h : ∀ bus address, P bus → P (bus.dmaByte address)) {bus : SystemBus} (hBus : P bus)
    (page : UInt8) : P (bus.runDma page) := by
  unfold runDma
  generalize List.range 256 = offsets
  induction offsets generalizing bus with
  | nil => exact hBus
  | cons i rest ih => exact ih (h bus _ hBus)

theorem calm_runDma (bus : SystemBus) (page : UInt8) : Calm bus (bus.runDma page) :=
  runDma_preserves (fun b address hCalm => hCalm.trans (b.calm_dmaByte address)) (.refl bus) page

/-! ### Writes -/

def raisesAtWrite (bus : SystemBus) (address : UInt16) (value : UInt8) : Bool :=
  decide (0x2000 ≤ address ∧ address < 0x4000) && bus.ppu.raisesAtWrite address value

/-- All that a write does to beam, interrupt, vertical blank flag and requested transfer. -/
theorem write_effect (bus : SystemBus) (address : UInt16) (value : UInt8) :
    (bus.write address value).ppu.raster = bus.ppu.raster ∧
      (bus.write address value).ppu.nmiPending =
        (bus.ppu.nmiPending || bus.raisesAtWrite address value) ∧
      (bus.write address value).ppu.status.vblank = bus.ppu.status.vblank ∧
      (bus.write address value).dmaPage =
        if address = 0x4014 then some value else bus.dmaPage := by
  obtain ⟨ram, ppu, board, dmaPage, openBus⟩ := bus
  have hQuiet (h : ¬(0x2000 ≤ address ∧ address < 0x4000)) :
      (ppu.nmiPending || raisesAtWrite ⟨ram, ppu, board, dmaPage, openBus⟩ address value) =
        ppu.nmiPending := by
    rw [raisesAtWrite, decide_eq_false h, Bool.false_and, Bool.or_false]
  simp only [write]
  split
  · rename_i hRam
    have hNot : address ≠ 0x4014 := by rintro rfl; exact absurd hRam (by decide)
    refine ⟨rfl, (hQuiet fun h => ?_).symm, rfl, (if_neg hNot).symm⟩
    exact absurd (UInt16.lt_of_lt_of_le hRam h.1) (UInt16.lt_irrefl address)
  · rename_i hRam
    split
    · rename_i hPpu
      have hNot : address ≠ 0x4014 := by rintro rfl; exact absurd hPpu (by decide)
      obtain ⟨hRaster, hNmi, hVblank⟩ := ppu.writeRegister_keeps board address value
      refine ⟨hRaster, ?_, hVblank, (if_neg hNot).symm⟩
      rw [raisesAtWrite, decide_eq_true ⟨UInt16.not_lt.1 hRam, hPpu⟩, Bool.true_and]
      exact hNmi
    · rename_i hHigh
      have hRaise := hQuiet fun h => hHigh h.2
      split
      · exact ⟨rfl, hRaise.symm, rfl, rfl⟩
      · split <;> exact ⟨rfl, hRaise.symm, rfl, rfl⟩

theorem onStack_lt {address : UInt16} (h : Cpu.OnStack address) : address < 0x2000 := by
  have hPage : address.toNat / 256 = 1 := by simpa [pageOf] using congrArg UInt16.toNat h
  rw [UInt16.lt_iff_toNat_lt]
  show address.toNat < 8192
  omega

/-! ### Computations -/

variable {α : Type}

theorem run_raster (m : Cpu.BusM α) (bus : SystemBus) :
    (m.run bus).2.ppu.raster = bus.ppu.raster :=
  (Cpu.BusM.run_view (fun b : SystemBus => b.ppu.raster)
    (fun b address => (b.calm_read address).raster)
    (fun b address value => (b.write_effect address value).1) m bus).1

theorem vblank_of_run (m : Cpu.BusM α) (bus : SystemBus) :
    ((m.run bus).2.ppu.status.vblank = true → bus.ppu.status.vblank = true) ∧
      ∀ w ∈ m.writes bus, w.bus.ppu.status.vblank = true → bus.ppu.status.vblank = true :=
  Cpu.BusM.run_preserves
    (P := fun b : SystemBus => b.ppu.status.vblank = true → bus.ppu.status.vblank = true)
    (fun b address h hFlag => h ((b.calm_read address).vblank hFlag))
    (fun b address value h hFlag => h ((b.write_effect address value).2.2.1.symm.trans hFlag))
    m bus id

theorem calm_run (m : Cpu.BusM α) (bus : SystemBus) (h : m.writes bus = []) :
    Calm bus (m.run bus).2 := by
  induction m generalizing bus with
  | done value => exact .refl bus
  | read address next ih => exact (bus.calm_read address).trans (ih _ _ h)
  | write address value next ih => simp [Cpu.BusM.writes] at h

/-! ### Requested transfers -/

def requests (writes : List (Cpu.Write SystemBus)) : List UInt8 :=
  writes.filterMap fun w => if w.address = 0x4014 then some w.value else none

theorem foldl_requests (writes : List (Cpu.Write SystemBus)) (page : Option UInt8) :
    writes.foldl (fun page w => if w.address = 0x4014 then some w.value else page) page =
      (requests writes).getLast?.or page := by
  induction writes generalizing page with
  | nil => rfl
  | cons w rest ih =>
    rw [List.foldl_cons, ih]
    by_cases hDma : w.address = 0x4014
    · have hCons : requests (w :: rest) = w.value :: requests rest := by
        simp [requests, hDma]
      rw [hCons, if_pos hDma, List.getLast?_cons]
      cases (requests rest).getLast? <;> rfl
    · have hCons : requests (w :: rest) = requests rest := by simp [requests, hDma]
      rw [hCons, if_neg hDma]

theorem requests_length_le {writes : List (Cpu.Write SystemBus)}
    (h : Cpu.Sparing (writes.map Cpu.Write.target)) : (requests writes).length ≤ 1 := by
  rcases h with hFew | hStack
  · have hMap := List.length_filterMap_le
      (fun w : Cpu.Write SystemBus => if w.address = 0x4014 then some w.value else none) writes
    rw [List.length_map] at hFew
    exact Nat.le_trans hMap hFew
  · have hNone : requests writes = [] := by
      refine List.filterMap_eq_nil_iff.2 ?_
      intro w hw
      have hLow := onStack_lt (hStack _ (List.mem_map_of_mem hw))
      refine if_neg ?_
      intro hDma
      rw [show w.target.1 = 0x4014 from hDma] at hLow
      exact absurd hLow (by decide)
    simp [hNone]

theorem run_dmaPage (m : Cpu.BusM α) (bus : SystemBus) (hNone : bus.dmaPage = none)
    (hSparing : Cpu.Sparing ((m.writes bus).map Cpu.Write.target)) :
    (m.run bus).2.dmaPage.toList = requests (m.writes bus) := by
  have hFold := Cpu.BusM.run_foldl (fun b : SystemBus => b.dmaPage)
    (fun page w => if w.address = 0x4014 then some w.value else page)
    (fun b address => (b.calm_read address).dmaPage)
    (fun w => (w.bus.write_effect w.address w.value).2.2.2) m bus
  rw [hFold, foldl_requests, hNone, Option.or_none]
  have hLength := requests_length_le hSparing
  match requests (m.writes bus), hLength with
  | [], _ => rfl
  | [_], _ => rfl

/-! ### Raised interrupts -/

def raisings (writes : List (Cpu.Write SystemBus)) : List (Cpu.Write SystemBus) :=
  writes.filter fun w => w.bus.raisesAtWrite w.address w.value

theorem raisings_length_le {writes : List (Cpu.Write SystemBus)}
    (h : Cpu.Sparing (writes.map Cpu.Write.target)) : (raisings writes).length ≤ 1 := by
  rcases h with hFew | hStack
  · rw [List.length_map] at hFew
    exact Nat.le_trans (List.length_filter_le _ _) hFew
  · have hNone : raisings writes = [] := by
      refine List.filter_eq_nil_iff.2 ?_
      intro w hw
      have hLow := onStack_lt (hStack _ (List.mem_map_of_mem hw))
      have hOut : ¬(0x2000 ≤ w.address ∧ w.address < 0x4000) :=
        fun hIn => UInt16.lt_irrefl _ (UInt16.lt_of_lt_of_le hLow hIn.1)
      simp [raisesAtWrite, hOut]
    simp [hNone]

/-- A sparing computation that requests a transfer does not raise the interrupt. -/
theorem raisings_of_requests {writes : List (Cpu.Write SystemBus)}
    (h : Cpu.Sparing (writes.map Cpu.Write.target)) (hRequest : requests writes ≠ []) :
    raisings writes = [] := by
  obtain ⟨page, hPage⟩ := List.exists_mem_of_ne_nil _ hRequest
  obtain ⟨w, hw, hValue⟩ := List.mem_filterMap.1 hPage
  have hDma : w.address = 0x4014 := by
    split at hValue
    · assumption
    · cases hValue
  rcases h with hFew | hStack
  · rw [List.length_map] at hFew
    obtain ⟨v, rfl⟩ : ∃ v, writes = [v] := List.length_eq_one_iff.1
      (Nat.le_antisymm hFew (List.length_pos_of_mem hw))
    obtain rfl : w = v := List.mem_singleton.1 hw
    have hQuiet : w.bus.raisesAtWrite w.address w.value = false := by
      rw [raisesAtWrite, hDma]
      rfl
    simp [raisings, hQuiet]
  · have hLow := onStack_lt (hStack _ (List.mem_map_of_mem hw))
    rw [show w.target.1 = 0x4014 from hDma] at hLow
    exact absurd hLow (by decide)

theorem run_nmiPending (m : Cpu.BusM α) (bus : SystemBus) :
    (m.run bus).2.ppu.nmiPending =
      (bus.ppu.nmiPending || !(raisings (m.writes bus)).isEmpty) := by
  have hFold := Cpu.BusM.run_foldl (fun b : SystemBus => b.ppu.nmiPending)
    (fun pending w => pending || w.bus.raisesAtWrite w.address w.value)
    (fun b address => (b.calm_read address).nmiPending)
    (fun w => (w.bus.write_effect w.address w.value).2.1) m bus
  have hAny (writes : List (Cpu.Write SystemBus)) (pending : Bool) :
      writes.foldl (fun pending w => pending || w.bus.raisesAtWrite w.address w.value) pending =
        (pending || !(raisings writes).isEmpty) := by
    induction writes generalizing pending with
    | nil => simp [raisings]
    | cons w rest ih =>
      rw [List.foldl_cons, ih]
      cases hRaise : w.bus.raisesAtWrite w.address w.value <;> simp [raisings, hRaise]
  rw [hFold, hAny]

theorem nmiPending_of_head?_raisings (m : Cpu.BusM α) (bus : SystemBus)
    {w : Cpu.Write SystemBus} (h : (raisings (m.writes bus)).head? = some w) :
    w.bus.ppu.nmiPending = bus.ppu.nmiPending := by
  induction m generalizing bus with
  | done value => simp [Cpu.BusM.writes, raisings] at h
  | read address next ih => exact (ih _ _ h).trans (bus.calm_read address).nmiPending
  | write address value next ih =>
    cases hRaise : bus.raisesAtWrite address value with
    | true =>
      obtain rfl : ⟨bus, address, value⟩ = w := by
        simpa [Cpu.BusM.writes, raisings, hRaise] using h
      rfl
    | false =>
      have hRest : (raisings (next.writes (Cpu.Bus.write bus address value))).head? = some w := by
        simpa [Cpu.BusM.writes, raisings, hRaise] using h
      have hKeep : (bus.write address value).ppu.nmiPending = bus.ppu.nmiPending := by
        rw [(bus.write_effect address value).2.1, hRaise, Bool.or_false]
      exact (ih _ hRest).trans hKeep

/-- Every write of a sparing computation that raises the interrupt finds it as it was before the
computation, and finds the vertical blank flag up from before on. -/
theorem found_of_mem_raisings (m : Cpu.BusM α) (bus : SystemBus)
    (hSparing : Cpu.Sparing ((m.writes bus).map Cpu.Write.target))
    {w : Cpu.Write SystemBus} (h : w ∈ raisings (m.writes bus)) :
    w.bus.ppu.nmiPending = bus.ppu.nmiPending ∧ bus.ppu.status.vblank = true := by
  have hLength := raisings_length_le hSparing
  have hHead : (raisings (m.writes bus)).head? = some w := by
    cases hList : raisings (m.writes bus) with
    | nil => simp [hList] at h
    | cons v rest =>
      rw [hList, List.length_cons] at hLength
      have hRest : rest = [] := List.eq_nil_of_length_eq_zero (by omega)
      rw [hList, hRest, List.mem_singleton] at h
      rw [List.head?_cons, h]
  refine ⟨nmiPending_of_head?_raisings m bus hHead, ?_⟩
  obtain ⟨hWrite, hRaise⟩ := List.mem_filter.1 h
  refine (vblank_of_run m bus).2 w hWrite ?_
  simp only [raisesAtWrite, Ppu.raisesAtWrite, Bool.and_eq_true] at hRaise
  exact hRaise.2.2.2

end Famicom.SystemBus

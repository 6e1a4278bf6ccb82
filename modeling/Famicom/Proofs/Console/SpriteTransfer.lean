import Famicom.Proofs.Board.Banking
import Famicom.Proofs.Console.WorkMemory
import Mathlib.Data.List.Nodup

/-!
# What a sprite transfer copies

A transfer reads the 256 bytes of a page, in order and each once, and stores the byte read next at
the sprite address, which goes once around: sprite memory becomes the page, rotated by the address
that the transfer started from.  Nothing is written to the bus.  A page of memory is copied as it
stands, and besides sprite memory only the byte last seen on the bus changes.
-/

namespace Famicom

class SpriteBus (β : Type) extends Cpu.Bus β where
  store : β → UInt8 → β

namespace SpriteBus

variable {β : Type} [SpriteBus β]

def copyByte (bus : β) (address : UInt16) : β :=
  match Cpu.Bus.read bus address with
  | (value, bus) => store bus value

def copyPage (bus : β) (page : UInt8) : β :=
  (List.range 256).foldl (fun bus i => copyByte bus (wordOf i.toUInt8 page)) bus

end SpriteBus

namespace SystemBus

instance : SpriteBus SystemBus where
  store bus value := { bus with ppu := bus.ppu.writeOam value }

theorem runDma_eq_copyPage (bus : SystemBus) (page : UInt8) :
    bus.runDma page = SpriteBus.copyPage bus page :=
  rfl

/-! ### Observed transfers -/

inductive Observation where
  | read (address : UInt16) (value : UInt8)
  | write (address : UInt16) (value : UInt8)
  | store (place value : UInt8)
  deriving DecidableEq

def Observation.place? : Observation → Option UInt8
  | .store place _ => some place
  | _ => none

structure Observed where
  bus : SystemBus
  log : List Observation

instance : SpriteBus Observed where
  read observed address :=
    match observed.bus.read address with
    | (value, bus) => (value, ⟨bus, observed.log ++ [.read address value]⟩)
  write observed address value :=
    ⟨observed.bus.write address value, observed.log ++ [.write address value]⟩
  store observed value :=
    ⟨SpriteBus.store observed.bus value,
      observed.log ++ [.store observed.bus.ppu.oamAddress value]⟩

/-! ### Copying some bytes -/

/-- The bus once the first bytes of a page have been copied. -/
def copied (bus : SystemBus) (page : UInt8) (count : Nat) : SystemBus :=
  (List.range count).foldl (fun bus i => bus.dmaByte (wordOf i.toUInt8 page)) bus

/-- The byte that the read of one place of a page gives during the transfer. -/
def fetched (bus : SystemBus) (page : UInt8) (i : Nat) : UInt8 :=
  ((bus.copied page i).read (wordOf i.toUInt8 page)).1

def placeOf (start : UInt8) (i : Nat) : UInt8 :=
  .ofNat (start.toNat + i)

theorem copied_succ (bus : SystemBus) (page : UInt8) (count : Nat) :
    bus.copied page (count + 1) = (bus.copied page count).dmaByte (wordOf count.toUInt8 page) := by
  rw [copied, List.range_succ, List.foldl_append]
  rfl

theorem read_sprites (bus : SystemBus) (address : UInt16) :
    (bus.read address).2.ppu.oam = bus.ppu.oam ∧
      (bus.read address).2.ppu.oamAddress = bus.ppu.oamAddress := by
  obtain ⟨ram, ppu, board, dmaPage, openBus⟩ := bus
  simp only [read]
  split
  · exact ⟨rfl, rfl⟩
  split
  · obtain ⟨status, scroll, buffer, seen, hRead⟩ := ppu.readRegister_eq board address
    dsimp only
    rw [hRead]
    exact ⟨rfl, rfl⟩
  split
  · exact ⟨rfl, rfl⟩
  · split <;> exact ⟨rfl, rfl⟩

theorem copied_oamAddress (bus : SystemBus) (page : UInt8) (count : Nat) :
    (bus.copied page count).ppu.oamAddress = placeOf bus.ppu.oamAddress count := by
  induction count with
  | zero => exact (UInt8.ofNat_toNat).symm
  | succ count ih =>
    rw [copied_succ]
    show ((bus.copied page count).read _).2.ppu.oamAddress + 1 = _
    rw [(read_sprites _ _).2, ih, placeOf, placeOf, ← Nat.add_assoc, UInt8.ofNat_add _ 1]
    rfl

theorem writeOam_get (ppu : Ppu) (value place : UInt8) :
    (ppu.writeOam value).oam.get place.toFin =
      if place = ppu.oamAddress then value else ppu.oam.get place.toFin := by
  have hPlace := place.toNat_lt
  show (ppu.oam.set ppu.oamAddress.toNat value ppu.oamAddress.toNat_lt)[place.toNat] =
    if place = ppu.oamAddress then value else ppu.oam[place.toNat]
  rw [Vector.getElem_set]
  by_cases h : place = ppu.oamAddress
  · rw [if_pos (congrArg UInt8.toNat h.symm), if_pos h]
  · rw [if_neg fun hNat => h (UInt8.toNat_inj.1 hNat.symm), if_neg h]

theorem copied_oam_succ (bus : SystemBus) (page : UInt8) (count : Nat) (place : UInt8) :
    (bus.copied page (count + 1)).ppu.oam.get place.toFin =
      if place = placeOf bus.ppu.oamAddress count then bus.fetched page count
      else (bus.copied page count).ppu.oam.get place.toFin := by
  obtain ⟨hOam, hAddress⟩ := (bus.copied page count).read_sprites (wordOf count.toUInt8 page)
  rw [copied_oamAddress] at hAddress
  rw [copied_succ, ← hAddress, ← hOam]
  exact writeOam_get _ _ place

theorem placeOf_inj {start : UInt8} {i j : Nat} (hi : i < 256) (hj : j < 256)
    (h : placeOf start i = placeOf start j) : i = j := by
  have hNat := congrArg UInt8.toNat h
  simp only [placeOf, UInt8.toNat_ofNat'] at hNat
  omega

/-- What was stored stays until the sprite address has gone around. -/
theorem copied_oam (bus : SystemBus) (page : UInt8) {i count : Nat} (hi : i < count)
    (hCount : count ≤ 256) :
    (bus.copied page count).ppu.oam.get (placeOf bus.ppu.oamAddress i).toFin =
      bus.fetched page i := by
  induction count with
  | zero => cases hi
  | succ count ih =>
    rw [copied_oam_succ]
    rcases Nat.lt_succ_iff_lt_or_eq.1 hi with hEarlier | rfl
    · have hApart : placeOf bus.ppu.oamAddress i ≠ placeOf bus.ppu.oamAddress count :=
        fun h => Nat.ne_of_lt hEarlier (placeOf_inj (by omega) hCount h)
      rw [if_neg hApart]
      exact ih hEarlier (Nat.le_of_lt hCount)
    · exact if_pos rfl

/-! ### The accesses -/

def addressOf (page : UInt8) (i : Nat) : UInt16 :=
  .ofNat (256 * page.toNat + i)

theorem addressOf_eq (page : UInt8) {i : Nat} (h : i < 256) :
    addressOf page i = wordOf i.toUInt8 page := by
  apply UInt16.toNat_inj.1
  have hPage := page.toNat_lt
  rw [wordOf_toNat, addressOf, UInt16.toNat_ofNat', Nat.toUInt8_eq, UInt8.toNat_ofNat']
  omega

/-- The accesses of a transfer: each byte is read and stored before the next is read. -/
def transferLog (page start : UInt8) (values : Nat → UInt8) : List Observation :=
  (List.range 256).flatMap fun i =>
    [.read (addressOf page i) (values i), .store (placeOf start i) (values i)]

theorem observed_foldl (bus : SystemBus) (page : UInt8) (count : Nat) :
    (List.range count).foldl (fun o i => SpriteBus.copyByte o (wordOf i.toUInt8 page))
        (⟨bus, []⟩ : Observed) =
      ⟨bus.copied page count, (List.range count).flatMap fun i =>
        [.read (wordOf i.toUInt8 page) (bus.fetched page i),
          .store (placeOf bus.ppu.oamAddress i) (bus.fetched page i)]⟩ := by
  induction count with
  | zero => rfl
  | succ count ih =>
    have hAddress := ((bus.copied page count).read_sprites (wordOf count.toUInt8 page)).2
    rw [copied_oamAddress] at hAddress
    rw [List.range_succ, List.foldl_append, ih, List.flatMap_append, List.flatMap_singleton,
      copied_succ, ← hAddress]
    show Observed.mk _ ((_ ++ [_]) ++ [_]) = _
    rw [List.append_assoc]
    rfl

theorem copied_all (bus : SystemBus) (page : UInt8) : bus.copied page 256 = bus.runDma page :=
  rfl

theorem observed_copyPage (bus : SystemBus) (page : UInt8) :
    SpriteBus.copyPage (⟨bus, []⟩ : Observed) page =
      ⟨bus.runDma page, transferLog page bus.ppu.oamAddress (bus.fetched page)⟩ := by
  refine (observed_foldl bus page 256).trans (congrArg (Observed.mk _) ?_)
  refine List.flatMap_congr fun i hi => ?_
  rw [addressOf_eq page (List.mem_range.1 hi)]

theorem places_transferLog (page start : UInt8) (values : Nat → UInt8) :
    (transferLog page start values).filterMap Observation.place? =
      (List.range 256).map (placeOf start) := by
  rw [transferLog, List.filterMap_flatMap, List.map_eq_flatMap]
  rfl

theorem count_placeOf (start place : UInt8) :
    ((List.range 256).map (placeOf start)).count place = 1 := by
  apply List.count_eq_one_of_mem
  · refine List.Nodup.map_on ?_ List.nodup_range
    intro i hi j hj h
    exact placeOf_inj (List.mem_range.1 hi) (List.mem_range.1 hj) h
  · have hs := start.toNat_lt
    have hp := place.toNat_lt
    refine List.mem_map.2 ⟨(place - start).toNat, List.mem_range.2 (place - start).toNat_lt, ?_⟩
    apply UInt8.toNat_inj.1
    rw [placeOf, UInt8.toNat_ofNat', UInt8.toNat_sub]
    omega

/-! ### Pages of memory -/

theorem read_withPpu (bus : SystemBus) {address : UInt16} (h : InMemory address) (ppu : Ppu)
    (seen : UInt8) :
    { bus with ppu := ppu, openBus := seen }.read address =
      ((bus.read address).1, { bus with ppu := ppu, openBus := (bus.read address).1 }) := by
  have hValue : ({ bus with ppu := ppu }.read address).1 = (bus.read address).1 := by
    rcases h with hLow | hHigh
    · rw [read_ram _ hLow, read_ram _ hLow]
    · rw [read_cartridge _ hHigh, read_cartridge _ hHigh]
  rw [← hValue]
  exact read_inMemory { bus with ppu := ppu } h seen

/-- The page lies in internal memory, in work memory or in program memory. -/
def PageInMemory (page : UInt8) : Prop :=
  page < 0x20 ∨ 0x60 ≤ page

theorem inMemory_of_page {page : UInt8} (h : PageInMemory page) (i : UInt8) :
    InMemory (wordOf i page) := by
  have hi := i.toNat_lt
  unfold PageInMemory at h
  unfold InMemory
  simp only [UInt8.lt_iff_toNat_lt, UInt8.le_iff_toNat_le, UInt16.lt_iff_toNat_lt,
    UInt16.le_iff_toNat_le, wordOf_toNat, UInt8.reduceToNat, UInt16.reduceToNat] at h ⊢
  omega

/-- While a page of memory is copied only sprite memory, its address and the byte last seen on the
bus change, and each read gives what it would have given before. -/
theorem copied_eq (bus : SystemBus) {page : UInt8} (h : PageInMemory page) (count : Nat) :
    bus.copied page count = { bus with
      ppu := { bus.ppu with
        oam := (bus.copied page count).ppu.oam
        oamAddress := (bus.copied page count).ppu.oamAddress }
      openBus := (bus.copied page count).openBus } := by
  induction count with
  | zero => rfl
  | succ count ih =>
    have hRead := bus.read_withPpu (inMemory_of_page h count.toUInt8)
      { bus.ppu with
        oam := (bus.copied page count).ppu.oam
        oamAddress := (bus.copied page count).ppu.oamAddress } (bus.copied page count).openBus
    rw [← ih] at hRead
    rw [copied_succ, dmaByte, hRead]
    rfl

theorem fetched_eq (bus : SystemBus) {page : UInt8} (h : PageInMemory page) (i : Nat) :
    bus.fetched page i = (bus.read (wordOf i.toUInt8 page)).1 := by
  rw [fetched, bus.copied_eq h i, bus.read_withPpu (inMemory_of_page h i.toUInt8)]

theorem copied_openBus (bus : SystemBus) {page : UInt8} (h : PageInMemory page) (count : Nat) :
    (bus.copied page (count + 1)).openBus = bus.fetched page count := by
  rw [copied_succ, bus.fetched_eq h, bus.copied_eq h count, dmaByte,
    bus.read_withPpu (inMemory_of_page h count.toUInt8)]

/-- What memory holds at an address: internal memory is seen four times over, and program memory
as it is banked, which for whole windows is as the board reports it. -/
structure Holds (bus : SystemBus) (address : UInt16) (value : UInt8) : Prop where
  ram : address < 0x2000 → bus.ram[address.toNat % 0x0800]? = some value
  workRam : 0x6000 ≤ address → address < 0x8000 →
    bus.board.workRam[address.toNat - 0x6000]? = some value
  prg : 0x8000 ≤ address → bus.board.prg[(bus.board.prgIndex address).val]? = some value
  banked : 0x8000 ≤ address → prgWindowSize ∣ bus.board.prg.size → ∃ bank,
    bus.board.banking.prgBanks[(address.toNat - 0x8000) / 0x2000]? = some bank ∧
      bus.board.prg[bank * 0x2000 + address.toNat % 0x2000]? = some value

theorem holds_read (bus : SystemBus) (address : UInt16) :
    bus.Holds address (bus.read address).1 where
  ram hLow := by
    rw [read_ram bus hLow]
    exact Vector.getElem?_eq_getElem _
  workRam hLeast hBelow := by
    have hLeastNat : 0x6000 ≤ address.toNat := hLeast
    have hBelowNat : address.toNat < 0x8000 := hBelow
    have hPlace : address.toNat % 0x2000 = address.toNat - 0x6000 := by omega
    rw [read_workRam bus ⟨hLeast, hBelow⟩, ← hPlace]
    exact Vector.getElem?_eq_getElem _
  prg hHigh := by
    have hOver : 0x4020 ≤ address := UInt16.le_trans (by decide) hHigh
    rw [read_cartridge bus hOver]
    exact bus.board.read_prg hHigh
  banked hHigh hSize := by
    have hOver : 0x4020 ≤ address := UInt16.le_trans (by decide) hHigh
    refine ⟨_, Vector.getElem?_eq_getElem (Board.prgWindow_lt address), ?_⟩
    rw [read_cartridge bus hOver, ← bus.board.read_prg hHigh]
    exact congrArg (bus.board.prg[·]?) (bus.board.prgIndex_eq hSize hHigh).symm

/-! ### Transfers -/

/-- What a transfer does on any page: it reads the values one after another, from the first address
of the page to the last, and stores each behind the one before, wrapping around, so that every
place is written once and the sprite address ends where it began. -/
structure Copies (bus : SystemBus) (page : UInt8) (values : Nat → UInt8) : Prop where
  observed : SpriteBus.copyPage (⟨bus, []⟩ : Observed) page =
    ⟨bus.runDma page, transferLog page bus.ppu.oamAddress values⟩
  once : ∀ place, ((transferLog page bus.ppu.oamAddress values).filterMap
    Observation.place?).count place = 1
  stored : ∀ i < 256,
    (bus.runDma page).ppu.oam.get (placeOf bus.ppu.oamAddress i).toFin = values i
  returned : (bus.runDma page).ppu.oamAddress = bus.ppu.oamAddress

/-- What it does besides on a page of memory: the values are those that memory held, and all but
sprite memory and the byte last seen on the bus is as it was. -/
structure CopiesMemory (bus : SystemBus) (page : UInt8) (values : Nat → UInt8) : Prop where
  held : ∀ i < 256, bus.Holds (addressOf page i) (values i)
  frame : bus.runDma page = { bus with
    ppu := { bus.ppu with oam := (bus.runDma page).ppu.oam }
    openBus := values 255 }

theorem runDma_oamAddress (bus : SystemBus) (page : UInt8) :
    (bus.runDma page).ppu.oamAddress = bus.ppu.oamAddress := by
  have hTurn : UInt8.ofNat (bus.ppu.oamAddress.toNat + 256) = bus.ppu.oamAddress := by
    rw [UInt8.ofNat_add, UInt8.ofNat_toNat]
    exact UInt8.add_zero _
  rw [← copied_all, copied_oamAddress]
  exact hTurn

/-- A transfer copies a page to sprite memory, rotated by the sprite address, whatever the bus and
the page. -/
theorem transfer_rotates_page (bus : SystemBus) (page : UInt8) :
    ∃ values, bus.Copies page values ∧ (PageInMemory page → bus.CopiesMemory page values) := by
  refine ⟨bus.fetched page, ⟨?_, ?_, ?_, ?_⟩, fun hPage => ⟨?_, ?_⟩⟩
  · exact bus.observed_copyPage page
  · intro place
    rw [places_transferLog]
    exact count_placeOf bus.ppu.oamAddress place
  · intro i hi
    rw [← copied_all]
    exact bus.copied_oam page hi (Nat.le_refl 256)
  · exact bus.runDma_oamAddress page
  · intro i hi
    rw [bus.fetched_eq hPage, ← addressOf_eq page hi]
    exact bus.holds_read _
  · have hCopied := bus.copied_eq hPage 256
    rw [copied_all, runDma_oamAddress] at hCopied
    rw [← bus.copied_openBus hPage 255, copied_all]
    exact hCopied

/-- A page of internal memory in the third of its four places, copied from within sprite memory. -/
theorem transfer_rotates_page_mirrored :
    let bus : SystemBus := { powerOn Console.jammedCartridge with
      ram := Vector.ofFn fun i => i.val.toUInt8
      ppu := { Ppu.powerOn with oamAddress := 0xF0 } }
    PageInMemory 0x15 ∧ (bus.runDma 0x15).ppu.oam.get (0xF5 : UInt8).toFin = 0x05 ∧
      (bus.runDma 0x15).ppu.oam.get (0x10 : UInt8).toFin = 0x20 ∧
      (bus.runDma 0x15).openBus = 0xFF := by
  intro bus
  obtain ⟨values, hCopies, hMemory⟩ := transfer_rotates_page bus 0x15
  have hPage : PageInMemory 0x15 := .inl (by decide)
  have hHeld (i : Nat) (hi : i < 256) : values i = i.toUInt8 := by
    have hAddress : (addressOf 0x15 i).toNat = 0x1500 + i := by
      rw [addressOf, UInt16.toNat_ofNat']
      exact Nat.mod_eq_of_lt (by simp only [UInt8.reduceToNat]; omega)
    have hLow : addressOf 0x15 i < 0x2000 := by
      rw [UInt16.lt_iff_toNat_lt, hAddress]
      simp only [UInt16.reduceToNat]
      omega
    have hPlace : (0x1500 + i) % 0x0800 = 0x0500 + i := by omega
    have hRam := ((hMemory hPage).held i hi).ram hLow
    rw [hAddress, hPlace, Vector.getElem?_ofFn, dif_pos (by simp only [ramSize]; omega)] at hRam
    rw [← Option.some.inj hRam]
    apply UInt8.toNat_inj.1
    simp only [Nat.toUInt8_eq, UInt8.toNat_ofNat']
    omega
  have hFirst : placeOf 0xF0 5 = 0xF5 := by decide
  have hLast : placeOf 0xF0 0x20 = 0x10 := by decide
  refine ⟨hPage, ?_, ?_, ?_⟩
  · rw [← hFirst]
    exact (hCopies.stored 5 (by decide)).trans (hHeld 5 (by decide))
  · rw [← hLast]
    exact (hCopies.stored 0x20 (by decide)).trans (hHeld 0x20 (by decide))
  · exact (congrArg openBus (hMemory hPage).frame).trans (hHeld 0xFF (by decide))

end SystemBus

end Famicom

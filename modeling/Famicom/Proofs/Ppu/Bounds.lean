import Famicom.Proofs.Checked.Sprites
import Famicom.Proofs.Ppu.RegisterWords
import Famicom.Proofs.Ppu.StatusFlags

/-!
# What stays in range

Whatever is done to a picture processor, its words keep their unused bits clear, its memories hold
entries of six bits and colours of the table, and the cartridge is asked for nothing but patterns.
For the last of these a bus is watched: it notes the addresses that it is asked for, and answers as
it did before.
-/

namespace Famicom.Ppu

variable {β : Type} [PatternBus β]

/-! ### Watched buses -/

structure Watched (β : Type) where
  bus : β
  seen : List UInt16

instance watchedBus : PatternBus (Watched β) where
  read w address :=
    let (value, bus) := PatternBus.read w.bus address
    (value, ⟨bus, address :: w.seen⟩)
  write w address value := ⟨PatternBus.write w.bus address value, address :: w.seen⟩
  mirroring w := PatternBus.mirroring w.bus

def Watched.Below (w : Watched β) : Prop :=
  ∀ address ∈ w.seen, address.toNat < 0x2000

/-- A watched bus and a plain one lead to the same, and the watched one was asked for patterns
alone. -/
structure Agree {α : Type} (watched : α × Watched β) (plain : α × β) : Prop where
  value : watched.1 = plain.1
  bus : watched.2.bus = plain.2
  below : watched.2.Below

section Watched

variable {w : Watched β} (hw : w.Below)

include hw

theorem agree_read {address : UInt16} (h : address.toNat < 0x2000) :
    Agree (PatternBus.read w address) (PatternBus.read w.bus address) :=
  ⟨rfl, rfl, List.forall_mem_cons.2 ⟨h, hw⟩⟩

theorem agree_planes {α : Type} (f : UInt8 → UInt8 → α) {address : UInt16}
    (h : address.toNat + 8 < 0x2000) :
    Agree
      (let (low, w) := PatternBus.read w address
        let (high, w) := PatternBus.read w (address + 8)
        (f low high, w))
      (let (low, bus) := PatternBus.read w.bus address
        let (high, bus) := PatternBus.read bus (address + 8)
        (f low high, bus)) := by
  have hSecond : (address + 8).toNat < 0x2000 := by
    rw [UInt16.toNat_add]
    show (address.toNat + 8) % 65536 < 0x2000
    omega
  exact ⟨rfl, rfl, List.forall_mem_cons.2 ⟨hSecond, List.forall_mem_cons.2 ⟨by omega, hw⟩⟩⟩

theorem agree_fetchTile (ppu : Ppu) (place : VramAddress) :
    Agree (ppu.fetchTile w place) (ppu.fetchTile w.bus place) := by
  have hAddress : (tilePatternAddress ppu.control.backgroundTable
      (ppu.nametableByte w.bus place.tileAddress) place.fineY.val).toNat + 8 < 0x2000 := by
    have hTable := backgroundTable_toNat ppu.control
    have hTile := (ppu.nametableByte w.bus place.tileAddress).toNat_lt
    have hRow := place.fineY.isLt
    rw [tilePatternAddress, ← toUInt16_parts, Nat.toUInt16_eq, UInt16.toNat_ofNat']
    omega
  exact agree_planes hw (fun low high => TileRow.mk low high
    (ppu.nametableByte w.bus place.attributeAddress >>> place.attributeShift.toUInt8 &&& 0x03))
    hAddress

omit hw [PatternBus β] in
theorem spritePatternAddress_lt (control : Control) (tile : UInt8) {row : Nat}
    (hRow : row < control.spriteHeight) :
    (spritePatternAddress control tile row).toNat + 8 < 0x2000 := by
  have hTile := tile.toNat_lt
  have hTable := spriteTable_le control
  have hOdd : (tile &&& 0x01).toNat ≤ 0x01 := toNat_and_le _ _
  have hEven : (tile &&& 0xFE).toNat ≤ 0xFE := toNat_and_le _ _
  unfold spritePatternAddress
  split
  · rename_i hTall
    simp only [Nat.toUInt16_eq, UInt16.toNat_ofNat', UInt16.toNat_add, UInt16.toNat_mul,
      UInt8.toNat_toUInt16, UInt16.reduceToNat]
    omega
  · rename_i hSmall
    have hHeight := (spriteHeight_cases control).resolve_right hSmall
    rw [← toUInt16_parts, Nat.toUInt16_eq, UInt16.toNat_ofNat']
    omega

theorem agree_fetchSprite (ppu : Ppu) {line : Nat} {i : Fin 64} (h : ppu.spriteOnLine line i = true) :
    Agree (ppu.fetchSprite w line i) (ppu.fetchSprite w.bus line i) :=
  agree_planes hw (fun low high => SpriteRow.mk i (ppu.spriteLeft i) low high (ppu.spriteAttributes i))
    (spritePatternAddress_lt ppu.control (ppu.spriteTile i) (spriteRow?_eq h).2)

theorem agree_fetchTiles (ppu : Ppu) (start : VramAddress) (n : Nat) :
    (ppu.fetchTiles start n w).1 = (ppu.fetchTiles start n w.bus).1 ∧
      Agree (ppu.fetchTiles start n w).2 (ppu.fetchTiles start n w.bus).2 := by
  induction n with
  | zero => exact ⟨rfl, rfl, rfl, hw⟩
  | succ n ih =>
    obtain ⟨hTiles, hPlace, hBus, hBelow⟩ := ih
    -- Both walks have come to the same place, so the next tile is the same.
    have hTile := agree_fetchTile hBelow ppu (ppu.fetchTiles start n w).2.1
    rw [hBus, hPlace] at hTile
    have hStep (γ : Type) [PatternBus γ] (bus : γ) : ppu.fetchTiles start (n + 1) bus =
      ((ppu.fetchTiles start n bus).1.push
        (ppu.fetchTile (ppu.fetchTiles start n bus).2.2 (ppu.fetchTiles start n bus).2.1).1,
        (ppu.fetchTiles start n bus).2.1.nextTile,
        (ppu.fetchTile (ppu.fetchTiles start n bus).2.2 (ppu.fetchTiles start n bus).2.1).2) := rfl
    rw [hStep, hStep, hTiles, hPlace, hTile.value]
    exact ⟨rfl, rfl, hTile.bus, hTile.below⟩

theorem agree_fetchSprites (ppu : Ppu) (line : Nat) {found : List (Fin 64)}
    (h : ∀ i ∈ found, ppu.spriteOnLine line i = true) :
    Agree (ppu.fetchSprites line found w) (ppu.fetchSprites line found w.bus) := by
  induction found generalizing w with
  | nil => exact ⟨rfl, rfl, hw⟩
  | cons i rest ih =>
    obtain ⟨hHere, hRest⟩ := List.forall_mem_cons.1 h
    have hRow := agree_fetchSprite hw ppu hHere
    have hRows := ih hRow.below hRest
    rw [hRow.bus] at hRows
    have hStep (γ : Type) [PatternBus γ] (bus : γ) : ppu.fetchSprites line (i :: rest) bus =
      ((ppu.fetchSprite bus line i).1 :: (ppu.fetchSprites line rest (ppu.fetchSprite bus line i).2).1,
        (ppu.fetchSprites line rest (ppu.fetchSprite bus line i).2).2) := rfl
    rw [hStep, hStep, hRow.value, hRows.value]
    exact ⟨rfl, hRows.bus, hRows.below⟩

theorem agree_fetchBackground (ppu : Ppu) :
    Agree (ppu.fetchBackground w) (ppu.fetchBackground w.bus) := by
  obtain ⟨hTiles, -, hBus, hBelow⟩ := agree_fetchTiles hw ppu ppu.scroll.current 33
  unfold fetchBackground
  split
  · generalize ppu.fetchTiles ppu.scroll.current 33 w = watched at *
    generalize ppu.fetchTiles ppu.scroll.current 33 w.bus = plain at *
    exact ⟨congrArg some hTiles, hBus, hBelow⟩
  · exact ⟨rfl, rfl, hw⟩

theorem agree_fetchLine (ppu : Ppu) (line : Nat) :
    Agree (ppu.fetchLine w line) (ppu.fetchLine w.bus line) := by
  have hBackground := agree_fetchBackground hw ppu
  have hFound : ∀ i ∈ (ppu.spritesOnLine line).take 8, ppu.spriteOnLine line i = true :=
    fun i hi => (List.mem_filter.1 (List.mem_of_mem_take hi)).2
  have hSprites := agree_fetchSprites hBackground.below ppu line hFound
  rw [hBackground.bus] at hSprites
  simp only [fetchLine]
  split
  · rw [hBackground.value, hSprites.value]
    exact ⟨rfl, hSprites.bus, hSprites.below⟩
  · rw [hBackground.value]
    exact ⟨rfl, hBackground.bus, hBackground.below⟩

theorem agree_renderLine (ppu : Ppu) (y : Fin pictureHeight) :
    Agree (ppu.renderLine w y) (ppu.renderLine w.bus y) := by
  have hLine := agree_fetchLine hw ppu y.val
  unfold renderLine
  generalize ppu.fetchLine w y.val = watched at hLine ⊢
  generalize ppu.fetchLine w.bus y.val = plain at hLine ⊢
  obtain ⟨hValue, hBus, hBelow⟩ := hLine
  dsimp only
  rw [hValue]
  exact ⟨rfl, hBus, hBelow⟩

theorem agree_visibleDot (ppu : Ppu) (y : Fin pictureHeight) :
    Agree (ppu.visibleDot w y) (ppu.visibleDot w.bus y) := by
  have hLine := agree_renderLine hw ppu y
  by_cases hDot : ppu.raster.dot.val = renderDot
  · rw [ppu.visibleDot_render w y hDot, ppu.visibleDot_render w.bus y hDot, rendered, rendered,
      hLine.value]
    exact ⟨rfl, hLine.bus, hLine.below⟩
  · rw [ppu.visibleDot_other w y hDot, ppu.visibleDot_other w.bus y hDot]
    exact ⟨rfl, rfl, hw⟩

theorem agree_tick (ppu : Ppu) : Agree (ppu.tick w).2 (ppu.tick w.bus).2 := by
  by_cases hVisible : ppu.moved.raster.scanline.val < pictureHeight
  · rw [ppu.tick_visible w hVisible, ppu.tick_visible w.bus hVisible]
    exact agree_visibleDot hw ppu.moved _
  · rw [ppu.tick_hidden w hVisible, ppu.tick_hidden w.bus hVisible]
    split
    · exact ⟨rfl, rfl, hw⟩
    · split <;> exact ⟨rfl, rfl, hw⟩

theorem agree_vramRead (ppu : Ppu) (address : Nat) :
    Agree (ppu.vramRead w address) (ppu.vramRead w.bus address) := by
  unfold vramRead
  split
  · rename_i hPattern
    refine agree_read hw ?_
    rwa [Nat.toUInt16_eq, UInt16.toNat_ofNat_of_lt' (Nat.lt_trans hPattern (by decide))]
  · split <;> exact ⟨rfl, rfl, hw⟩

theorem agree_readData (ppu : Ppu) :
    (ppu.readData w).1 = (ppu.readData w.bus).1 ∧
      Agree (ppu.readData w).2 (ppu.readData w.bus).2 := by
  unfold readData
  by_cases hPalette : 0x3F00 ≤ ppu.vramAddress
  · have hBelow := agree_vramRead hw ppu (ppu.vramAddress - 0x1000)
    rw [if_pos hPalette, if_pos hPalette]
    generalize ppu.vramRead w (ppu.vramAddress - 0x1000) = watched at hBelow ⊢
    generalize ppu.vramRead w.bus (ppu.vramAddress - 0x1000) = plain at hBelow ⊢
    obtain ⟨below, w'⟩ := watched
    obtain ⟨below', bus'⟩ := plain
    obtain ⟨rfl, hBus, hSeen⟩ := hBelow
    exact ⟨rfl, rfl, hBus, hSeen⟩
  · have hNext := agree_vramRead hw ppu ppu.vramAddress
    rw [if_neg hPalette, if_neg hPalette]
    generalize ppu.vramRead w ppu.vramAddress = watched at hNext ⊢
    generalize ppu.vramRead w.bus ppu.vramAddress = plain at hNext ⊢
    obtain ⟨next, w'⟩ := watched
    obtain ⟨next', bus'⟩ := plain
    obtain ⟨rfl, hBus, hSeen⟩ := hNext
    exact ⟨rfl, rfl, hBus, hSeen⟩

theorem agree_readRegister (ppu : Ppu) (address : UInt16) :
    Agree (ppu.readRegister w address).2 (ppu.readRegister w.bus address).2 := by
  obtain ⟨hAnswer, hData⟩ := agree_readData hw ppu
  unfold readRegister
  generalize address.toNat % 8 = register
  split
  case h_3 =>
    generalize ppu.readData w = watched at hAnswer hData ⊢
    generalize ppu.readData w.bus = plain at hAnswer hData ⊢
    dsimp only
    rw [hAnswer, hData.value]
    exact ⟨rfl, hData.bus, hData.below⟩
  all_goals exact ⟨rfl, rfl, hw⟩

theorem agree_vramWrite (ppu : Ppu) (address : Nat) (value : UInt8) :
    Agree (ppu.vramWrite w address value) (ppu.vramWrite w.bus address value) := by
  unfold vramWrite
  split
  · rename_i hPattern
    refine ⟨rfl, rfl, List.forall_mem_cons.2 ⟨?_, hw⟩⟩
    rwa [Nat.toUInt16_eq, UInt16.toNat_ofNat_of_lt' (Nat.lt_trans hPattern (by decide))]
  · split <;> exact ⟨rfl, rfl, hw⟩

theorem agree_writeRegister (ppu : Ppu) (address : UInt16) (value : UInt8) :
    Agree (ppu.writeRegister w address value) (ppu.writeRegister w.bus address value) := by
  unfold writeRegister
  generalize address.toNat % 8 = register
  split
  case h_7 =>
    let noted := { ppu with openBus := value }
    have hWrite := agree_vramWrite hw noted noted.vramAddress value
    show Agree ((noted.vramWrite w noted.vramAddress value).1.stepAddress, _)
      ((noted.vramWrite w.bus noted.vramAddress value).1.stepAddress, _)
    rw [hWrite.value]
    exact ⟨rfl, hWrite.bus, hWrite.below⟩
  all_goals exact ⟨rfl, rfl, hw⟩

end Watched

def Operation.watched : Operation β → Operation (Watched β)
  | .tick => .tick
  | .read address => .read address
  | .write address value => .write address value
  | .writeOam value => .writeOam value
  | .takeNmi => .takeNmi
  | .reset => .reset
  | .exchange bus => .exchange ⟨bus, []⟩

def Call.watched (call : Call β) : Call (Watched β) :=
  ⟨call.ppu, ⟨call.bus, []⟩, call.operation.watched⟩

theorem Call.agree_outcome (call : Call β) : Agree call.watched.outcome call.outcome := by
  have hNone (bus : β) : (⟨bus, []⟩ : Watched β).Below := fun _ hMem => nomatch hMem
  obtain ⟨ppu, bus, operation⟩ := call
  cases operation with
  | tick => exact agree_tick (hNone bus) ppu
  | read address => exact agree_readRegister (hNone bus) ppu address
  | write address value => exact agree_writeRegister (hNone bus) ppu address value
  | exchange other => exact ⟨rfl, rfl, hNone other⟩
  | _ => exact ⟨rfl, rfl, hNone bus⟩

/-! ### Memories -/

theorem readRegister_palette (ppu : Ppu) (bus : β) (address : UInt16) :
    (ppu.readRegister bus address).2.1.palette = ppu.palette := by
  obtain ⟨status, scroll, buffer, seen, hRead⟩ := ppu.readRegister_eq bus address
  rw [hRead]

theorem writeRegister_palette (ppu : Ppu) (bus : β) (address : UInt16) (value : UInt8) :
    (ppu.writeRegister bus address value).1.palette = ppu.palette ∨
      (ppu.writeRegister bus address value).1.palette =
        ppu.palette.set (paletteIndex ppu.vramAddress) (value &&& 0x3F) := by
  unfold writeRegister
  split
  case h_7 =>
    simp only [vramWrite]
    split
    · exact .inl rfl
    · split
      · exact .inl rfl
      · exact .inr rfl
  all_goals exact .inl rfl

/-- A call leaves the palettes alone or stores six bits at a palette address. -/
theorem Call.outcome_palette (call : Call β) :
    call.outcome.1.palette = call.ppu.palette ∨ ∃ (address : Nat) (value : UInt8),
      call.outcome.1.palette = call.ppu.palette.set (paletteIndex address) (value &&& 0x3F)
        (paletteIndex address).isLt := by
  obtain ⟨ppu, bus, operation⟩ := call
  cases operation with
  | tick => exact .inl (ppu.tick_ticked bus).setup.palette
  | read address => exact .inl (ppu.readRegister_palette bus address)
  | write address value => exact (ppu.writeRegister_palette bus address value).imp_right (⟨_, _, ·⟩)
  | takeNmi =>
    refine .inl ?_
    show ppu.takeNmi.2.palette = ppu.palette
    rw [takeNmi_eq]
  | _ => exact .inl rfl

/-! ### Status -/

/-- The unused bits of the status register are clear. -/
def Status.Plain (s : Status) : Prop :=
  s.bits &&& 0x1F = 0

theorem Status.Plain.raise {s : Status} (h : s.Plain) {mask : UInt8} (hMask : mask &&& 0x1F = 0)
    (on : Bool) : (s.raise mask on).Plain := by
  cases on with
  | false => exact h
  | true =>
    show (s.bits ||| mask) &&& 0x1F = 0
    rw [or_and_distrib, h, hMask]
    rfl

theorem Status.Plain.clear {s : Status} (h : s.Plain) (mask : UInt8) : (s.clear mask).Plain := by
  show s.bits &&& ~~~mask &&& 0x1F = 0
  rw [UInt8.and_assoc, UInt8.and_comm (~~~mask), ← UInt8.and_assoc, h, UInt8.zero_and]

theorem Call.outcome_status {call : Call β} (h : call.ppu.status.Plain) :
    call.outcome.1.status.Plain := by
  obtain ⟨ppu, bus, operation⟩ := call
  cases operation with
  | tick =>
    show (ppu.tick bus).2.1.status.Plain
    obtain ⟨overflow, hit, hStatus⟩ | hStatus | ⟨-, hStatus⟩ := ppu.tick_status bus
    · rw [hStatus]
      exact (Status.Plain.raise h (by decide) _).raise (by decide) _
    · rw [hStatus]
      exact Status.Plain.raise h (by decide) _
    · rw [hStatus]
      exact Status.Plain.clear h _
  | read address =>
    show (ppu.readRegister bus address).2.1.status.Plain
    by_cases hStatus : address.toNat % 8 = 2
    · rw [(ppu.readRegister_status bus hStatus).2]
      exact Status.Plain.clear h _
    · rw [ppu.readRegister_status_of_ne bus hStatus]
      exact h
  | write address value =>
    show (ppu.writeRegister bus address value).1.status.Plain
    rw [ppu.writeRegister_status]
    exact h
  | takeNmi =>
    show ppu.takeNmi.2.status.Plain
    rw [takeNmi_eq]
    exact h
  | reset => exact (by decide : (0 : UInt8) &&& 0x1F = 0)
  | _ => exact h

/-! ### The invariant -/

theorem colourOf_mem (entry : UInt8) : colourOf entry ∈ colours := by
  show colours[entry.toNat % 64] ∈ colours
  exact Vector.getElem_mem _

theorem composeLine_mem (ppu : Ppu) (line : LineData) (x : Fin pictureWidth) :
    (ppu.composeLine line).get x ∈ colours := by
  have hGet : (ppu.composeLine line).get x = ppu.entryColour (ppu.composedEntry line x) :=
    Vector.getElem_ofFn x.isLt
  rw [hGet]
  exact colourOf_mem _

theorem Call.composed?_mem {call : Call β} {row : Fin pictureHeight}
    {line : Vector UInt32 pictureWidth} (h : call.composed? = some (row, line))
    (x : Fin pictureWidth) : line.get x ∈ colours := by
  obtain ⟨ppu, bus, operation⟩ := call
  cases operation with
  | tick =>
    simp only [composed?] at h
    split at h
    · obtain ⟨rfl, rfl⟩ := Prod.mk.inj (Option.some.inj h)
      exact composeLine_mem _ _ x
    · cases h
  | _ => cases h

structure InRange (ppu : Ppu) : Prop where
  status : ppu.status.Plain
  entry : ∀ i : Fin 32, (ppu.palette.get i).toNat < 0x40
  mirrored : ∀ i : Fin 32, 16 ≤ i.val → i.val % 4 = 0 → ppu.palette.get i = 0
  pixel : ∀ (x : Fin pictureWidth) (y : Fin pictureHeight), pointAt ppu.picture x y ∈ colours

theorem inRange_powerOn : InRange powerOn := by
  have hEntry (i : Fin 32) : powerOn.palette.get i = 0 := Memory.getElem_zeroed 32 i.val i.isLt
  refine ⟨(by decide : (0 : UInt8) &&& 0x1F = 0), ?_, fun i _ _ => hEntry i, ?_⟩
  · intro i
    rw [hEntry i]
    decide
  · intro x y
    have hBlack : pointAt powerOn.picture x y = 0xFF000000 := Vector.getElem_replicate _
    rw [hBlack]
    exact colourOf_mem 0x0D

theorem InRange.step (call : Call β) (h : call.ppu.InRange) : call.outcome.1.InRange := by
  have hStored (value : UInt8) : (value &&& 0x3F).toNat < 0x40 :=
    Nat.lt_succ_of_le (toNat_and_le value 0x3F)
  refine ⟨Call.outcome_status h.status, ?_, ?_, ?_⟩
  · intro i
    obtain hSame | ⟨address, value, hSet⟩ := call.outcome_palette
    · rw [hSame]
      exact h.entry i
    · rw [hSet, Checked.get_set]
      split
      · exact hStored value
      · exact h.entry i
  · intro i hHigh hFirst
    obtain hSame | ⟨address, value, hSet⟩ := call.outcome_palette
    · rw [hSame]
      exact h.mirrored i hHigh hFirst
    · -- An address of a mirrored entry is taken for the entry that it mirrors.
      have hPlace : ¬(paletteIndex address).val = i.val := by
        show ¬paletteEntry address = i.val
        unfold paletteEntry
        split <;> omega
      rw [hSet, Checked.get_set, if_neg hPlace]
      exact h.mirrored i hHigh hFirst
  · intro x y
    rw [call.outcome_picture]
    cases hLine : call.composed? with
    | none => exact h.pixel x y
    | some composed =>
      obtain ⟨row, line⟩ := composed
      dsimp only
      by_cases hRow : y = row
      · rw [hRow, pointAt_putLine]
        exact Call.composed?_mem hLine x
      · rw [pointAt_putLine_of_ne _ _ _ _ hRow]
        exact h.pixel x y

theorem inRange_performAll (state : Ppu × β) (h : state.1.InRange)
    (operations : List (Operation β)) : (performAll state operations).1.InRange := by
  induction operations generalizing state with
  | nil => exact h
  | cons operation rest ih => exact ih _ (InRange.step ⟨state.1, state.2, operation⟩ h)

theorem pixels_mem {ppu : Ppu} (h : ppu.InRange) {colour : UInt32}
    (hMem : colour ∈ ppu.frame.pixels) : colour ∈ colours := by
  obtain ⟨i, hi, rfl⟩ := Vector.mem_iff_getElem.1 hMem
  have hSplit : i / pictureWidth * pictureWidth + i % pictureWidth = i := Nat.div_add_mod' i _
  have hLt : i < 256 * 240 := hi
  have hPoint := h.pixel ⟨i % pictureWidth, Nat.mod_lt _ (by decide)⟩
    ⟨i / pictureWidth, by unfold pictureWidth pictureHeight; omega⟩
  unfold pointAt at hPoint
  simp only [hSplit] at hPoint
  exact hPoint

theorem alpha_of_mem {colour : UInt32} (h : colour ∈ colours) : colour >>> 24 = 0xFF := by
  have hAll : ∀ i : Fin 64, colours.get i >>> 24 = 0xFF := by decide +kernel
  obtain ⟨i, hi, rfl⟩ := Vector.mem_iff_getElem.1 h
  exact hAll ⟨i, hi⟩

theorem words_bounds (ppu : Ppu) :
    ppu.words.current.toNat < 0x8000 ∧ ppu.words.pending.toNat < 0x8000 ∧
      ppu.words.fineX.toNat < 8 ∧ ppu.words.scanline.toNat ≤ 261 ∧ ppu.words.dot.toNat ≤ 340 := by
  have hFine : ppu.words.fineX.toNat = ppu.scroll.fineX.val % 256 := UInt8.toNat_ofNat'
  have hLine := ppu.raster.scanline_lt
  have hDot := ppu.raster.dot_lt
  have hScanline : ppu.words.scanline.toNat = _ := toNat_scanline ppu.scroll ppu.raster
  have hPlace : ppu.words.dot.toNat = _ := toNat_dot ppu.scroll ppu.raster
  have hCurrent : ppu.words.current.toNat = _ := ppu.scroll.current.toNat_toWord
  have hPending : ppu.words.pending.toNat = _ := ppu.scroll.pending.toNat_toWord
  have hCurrentLt := ppu.scroll.current.toNat_lt
  have hPendingLt := ppu.scroll.pending.toNat_lt
  omega

/-- Whatever is done to picture processor and cartridge from power on: the words that the calls
leave are those of the picture processor, and their unused bits are clear; so are those of the
status register and of the palettes, whose mirrored entries stay untouched; the picture is whole,
in colours of the table and nothing else, which are opaque; and every call does the same when the
bus is watched, and asks for nothing beyond the patterns. -/
theorem registers_stay_in_range (bus : β) (operations : List (Operation β)) :
    let made := calls (powerOn, bus) operations
    let now := (performAll (powerOn, bus) operations).1
    let words := made.foldl Words.step Words.start
    now.words = words ∧
      (words.current.toNat < 0x8000 ∧ words.pending.toNat < 0x8000 ∧ words.fineX.toNat < 8 ∧
        words.scanline.toNat ≤ 261 ∧ words.dot.toNat ≤ 340) ∧
      now.status.bits &&& 0x1F = 0 ∧
      (∀ i : Fin 32, (now.palette.get i).toNat < 0x40) ∧
      (∀ i : Fin 32, i.val ∈ [0x10, 0x14, 0x18, 0x1C] → now.palette.get i = 0) ∧
      now.frame.pixels.toArray.size = 256 * 240 ∧
      (∀ colour ∈ now.frame.pixels, colour ∈ colours ∧ colour >>> 24 = 0xFF) ∧
      ∀ call ∈ made, call.watched.outcome.1 = call.outcome.1 ∧
        call.watched.outcome.2.bus = call.outcome.2 ∧
        ∀ address ∈ call.watched.outcome.2.seen, address.toNat < 0x2000 := by
  intro made now words
  have hWords : now.words = words := performAll_words (powerOn, bus) operations
  have hRange : now.InRange := inRange_performAll (powerOn, bus) inRange_powerOn operations
  refine ⟨hWords, ?_, hRange.status, hRange.entry, ?_, Vector.size_toArray _, ?_, ?_⟩
  · rw [← hWords]
    exact now.words_bounds
  · intro i hMem
    have hCases : i.val = 0x10 ∨ i.val = 0x14 ∨ i.val = 0x18 ∨ i.val = 0x1C := by
      simpa only [List.mem_cons, List.not_mem_nil, or_false] using hMem
    exact hRange.mirrored i (by omega) (by omega)
  · intro colour hMem
    have hTable := pixels_mem hRange hMem
    exact ⟨hTable, alpha_of_mem hTable⟩
  · intro call _
    obtain ⟨hValue, hBus, hBelow⟩ := call.agree_outcome
    exact ⟨hValue, hBus, hBelow⟩

end Famicom.Ppu

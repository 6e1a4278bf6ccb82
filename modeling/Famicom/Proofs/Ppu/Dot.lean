import Famicom.Ppu.Tick
import Famicom.Proofs.Bits
import Famicom.Proofs.Ppu.Raster

/-!
# What a dot changes

A tick moves the beam, may compose a line, move the scroll position or change the status flags,
and may raise the interrupt.  All else belongs to the setup, which only accesses through the
registers change.  For each kind of access the effect on beam, flags and interrupt is stated
once here.
-/

namespace Famicom.Ppu

variable {β : Type} [PatternBus β]

/-! ### The setup -/

/-- Two states agree on all that ticks leave alone. -/
structure SameSetup (a b : Ppu) : Prop where
  control : b.control = a.control
  mask : b.mask = a.mask
  oamAddress : b.oamAddress = a.oamAddress
  oam : b.oam = a.oam
  pending : b.scroll.pending = a.scroll.pending
  fineX : b.scroll.fineX = a.scroll.fineX
  second : b.scroll.second = a.scroll.second
  readBuffer : b.readBuffer = a.readBuffer
  openBus : b.openBus = a.openBus
  nametables : b.nametables = a.nametables
  palette : b.palette = a.palette

theorem SameSetup.refl (a : Ppu) : SameSetup a a :=
  ⟨rfl, rfl, rfl, rfl, rfl, rfl, rfl, rfl, rfl, rfl, rfl⟩

theorem SameSetup.trans {a b c : Ppu} (h : SameSetup a b) (h' : SameSetup b c) :
    SameSetup a c where
  control := h'.control.trans h.control
  mask := h'.mask.trans h.mask
  oamAddress := h'.oamAddress.trans h.oamAddress
  oam := h'.oam.trans h.oam
  pending := h'.pending.trans h.pending
  fineX := h'.fineX.trans h.fineX
  second := h'.second.trans h.second
  readBuffer := h'.readBuffer.trans h.readBuffer
  openBus := h'.openBus.trans h.openBus
  nametables := h'.nametables.trans h.nametables
  palette := h'.palette.trans h.palette

/-! ### Ticks -/

/-- The state with the beam moved by one dot, before anything falls due there. -/
def moved (ppu : Ppu) : Ppu :=
  { ppu with raster := ppu.raster.advance ppu.mask.rendering }

def rendered (ppu : Ppu) (bus : β) (y : Fin pictureHeight) (scroll : Scroll) : Ppu :=
  { (ppu.renderLine bus y).1 with scroll := scroll }

theorem visibleDot_render (ppu : Ppu) (bus : β) (y : Fin pictureHeight)
    (h : ppu.raster.dot.val = renderDot) :
    ppu.visibleDot bus y = (ppu.rendered bus y
        (if ppu.mask.rendering then ppu.scroll.nextRow else ppu.scroll),
      (ppu.renderLine bus y).2) := by
  have hMask : (ppu.renderLine bus y).1.mask = ppu.mask := rfl
  have hScroll : (ppu.renderLine bus y).1.scroll = ppu.scroll := rfl
  unfold rendered visibleDot
  rw [if_pos h, ← hMask, ← hScroll]
  -- From here on the composed line itself does not matter.
  generalize ppu.renderLine bus y = line
  obtain ⟨composed, bus'⟩ := line
  cases hOn : composed.mask.rendering with
  | true => simp only [hOn, ↓reduceIte]
  | false => simp only [hOn, Bool.false_eq_true, ↓reduceIte]

theorem visibleDot_other (ppu : Ppu) (bus : β) (y : Fin pictureHeight)
    (h : ppu.raster.dot.val ≠ renderDot) :
    ppu.visibleDot bus y = ({ ppu with
      scroll := if ppu.raster.dot.val = 257 && ppu.mask.rendering then ppu.scroll.copyColumn
        else ppu.scroll }, bus) := by
  simp only [visibleDot, h, ↓reduceIte]
  split <;> rfl

theorem anyBit_raise (s : Status) {mask : UInt8} (hMask : anyBit mask mask = true) (on : Bool) :
    anyBit (s.raise mask on).bits mask = (anyBit s.bits mask || on) := by
  cases on with
  | false => rw [Status.raise, if_neg Bool.false_ne_true, Bool.or_false]
  | true =>
    rw [Bool.or_true]
    exact anyBit_or_right hMask

theorem anyBit_raise_other (s : Status) {mask other : UInt8} (h : mask &&& other = 0)
    (on : Bool) : anyBit (s.raise mask on).bits other = anyBit s.bits other := by
  cases on with
  | false => rfl
  | true => exact anyBit_or_left h

theorem vblank_raise (s : Status) {mask : UInt8} (on : Bool)
    (h : mask &&& Status.vblankMask = 0) : (s.raise mask on).vblank = s.vblank :=
  anyBit_raise_other s h on

theorem renderLine_vblank (ppu : Ppu) (bus : β) (y : Fin pictureHeight) :
    (ppu.renderLine bus y).1.status.vblank = ppu.status.vblank := by
  have hSprite := vblank_raise
    (ppu.status.raise Status.overflowMask (ppu.fetchLine bus y.val).1.overflow)
    (ppu.spriteZeroHit (ppu.fetchLine bus y.val).1)
    (by decide : Status.spriteZeroMask &&& Status.vblankMask = 0)
  have hOverflow := vblank_raise ppu.status (ppu.fetchLine bus y.val).1.overflow
    (by decide : Status.overflowMask &&& Status.vblankMask = 0)
  exact hSprite.trans hOverflow

theorem visibleDot_keeps (ppu : Ppu) (bus : β) (y : Fin pictureHeight) :
    SameSetup ppu (ppu.visibleDot bus y).1 ∧
      (ppu.visibleDot bus y).1.raster = ppu.raster ∧
      (ppu.visibleDot bus y).1.nmiPending = ppu.nmiPending ∧
      (ppu.visibleDot bus y).1.status.vblank = ppu.status.vblank := by
  by_cases hDot : ppu.raster.dot.val = renderDot
  · rw [ppu.visibleDot_render bus y hDot]
    refine ⟨?_, rfl, rfl, ppu.renderLine_vblank bus y⟩
    split <;> constructor <;> rfl
  · rw [ppu.visibleDot_other bus y hDot]
    refine ⟨?_, rfl, rfl, rfl⟩
    split <;> constructor <;> rfl

theorem preRenderDot_keeps (ppu : Ppu) :
    SameSetup ppu ppu.preRenderDot ∧ ppu.preRenderDot.raster = ppu.raster ∧
      ppu.preRenderDot.nmiPending = ppu.nmiPending ∧
      ppu.preRenderDot.status.vblank = (ppu.status.vblank && !(ppu.raster.dot.val == 1)) := by
  simp only [preRenderDot]
  split
  · rename_i hDot
    refine ⟨by constructor <;> rfl, rfl, rfl, ?_⟩
    rw [hDot, beq_self_eq_true, Bool.not_true, Bool.and_false]
    exact anyBit_withBits_self _ _ _ (by decide)
  · rename_i hDot
    rw [beq_false_of_ne hDot, Bool.not_false, Bool.and_true]
    split
    · exact ⟨.refl ppu, rfl, rfl, rfl⟩
    · split
      · exact ⟨by constructor <;> rfl, rfl, rfl, rfl⟩
      · split
        · exact ⟨by constructor <;> rfl, rfl, rfl, rfl⟩
        · exact ⟨.refl ppu, rfl, rfl, rfl⟩

/-- The tick raises the interrupt: it reaches the start of vertical blank with the interrupt
enabled. -/
def raisesAtTick (ppu : Ppu) : Bool :=
  (ppu.raster.advance ppu.mask.rendering).isAt vblankLine 1 && ppu.control.nmiEnabled

def vblankAt (r : Raster) (before : Bool) : Bool :=
  r.isAt vblankLine 1 || (before && !r.isAt preRenderLine 1)

/-- All that a tick does besides composing lines and moving the scroll position. -/
structure Ticked (before : Ppu) (complete : Bool) (after : Ppu) : Prop where
  setup : SameSetup before after
  raster : after.raster = before.raster.advance before.mask.rendering
  complete : complete = after.raster.isAt vblankLine 1
  nmiPending : after.nmiPending = (before.nmiPending || before.raisesAtTick)
  vblank : after.status.vblank = vblankAt after.raster before.status.vblank

theorem tick_visible (ppu : Ppu) (bus : β) (h : ppu.moved.raster.scanline.val < pictureHeight) :
    ppu.tick bus = (false, ppu.moved.visibleDot bus ⟨ppu.moved.raster.scanline.val, h⟩) := by
  have h' : (ppu.raster.advance ppu.mask.rendering).scanline.val < pictureHeight := h
  simp only [tick, h', ↓reduceDIte]
  rfl

theorem tick_hidden (ppu : Ppu) (bus : β) (h : ¬ppu.moved.raster.scanline.val < pictureHeight) :
    ppu.tick bus =
      if ppu.moved.raster.isAt vblankLine 1 then (true, ppu.moved.beginVblank, bus)
      else if ppu.moved.raster.scanline.val = preRenderLine then
        (false, ppu.moved.preRenderDot, bus)
      else (false, ppu.moved, bus) := by
  have h' : ¬(ppu.raster.advance ppu.mask.rendering).scanline.val < pictureHeight := h
  simp only [tick, h', ↓reduceDIte]
  rfl

theorem tick_ticked (ppu : Ppu) (bus : β) :
    Ticked ppu (ppu.tick bus).1 (ppu.tick bus).2.1 := by
  have hMoved : SameSetup ppu ppu.moved := ⟨rfl, rfl, rfl, rfl, rfl, rfl, rfl, rfl, rfl, rfl, rfl⟩
  have hRaises : ppu.raisesAtTick =
      (ppu.moved.raster.isAt vblankLine 1 && ppu.control.nmiEnabled) := rfl
  have hAt (scanline dot : Nat) : ppu.moved.raster.isAt scanline dot =
      (ppu.moved.raster.scanline.val == scanline && ppu.moved.raster.dot.val == dot) := rfl
  by_cases hVisible : ppu.moved.raster.scanline.val < pictureHeight
  · have hVblank : (ppu.moved.raster.scanline.val == vblankLine) = false := by
      simp only [pictureHeight, vblankLine, beq_eq_false_iff_ne] at hVisible ⊢
      omega
    have hPre : (ppu.moved.raster.scanline.val == preRenderLine) = false := by
      simp only [pictureHeight, preRenderLine, beq_eq_false_iff_ne] at hVisible ⊢
      omega
    obtain ⟨hSetup, hRaster, hNmi, hFlag⟩ :=
      ppu.moved.visibleDot_keeps bus ⟨ppu.moved.raster.scanline.val, hVisible⟩
    rw [ppu.tick_visible bus hVisible]
    refine ⟨hMoved.trans hSetup, hRaster, ?_, ?_, ?_⟩
    · rw [hRaster, hAt, hVblank, Bool.false_and]
    · rw [hNmi, hRaises, hAt, hVblank, Bool.false_and, Bool.false_and, Bool.or_false]
      rfl
    · rw [hFlag, hRaster, vblankAt, hAt, hAt, hVblank, hPre]
      simp [moved]
  · rw [ppu.tick_hidden bus hVisible]
    by_cases hStart : ppu.moved.raster.isAt vblankLine 1 = true
    · rw [if_pos hStart]
      refine ⟨hMoved.trans (by constructor <;> rfl), rfl, hStart.symm, ?_, ?_⟩
      · rw [hRaises, hStart, Bool.true_and]
        rfl
      · have hSet : ppu.moved.beginVblank.status.vblank = true := anyBit_or_right (by decide)
        have hHere : ppu.moved.beginVblank.raster.isAt vblankLine 1 = true := hStart
        rw [hSet, vblankAt, hHere, Bool.true_or]
    · have hNot : ppu.moved.raster.isAt vblankLine 1 = false := Bool.eq_false_iff.2 hStart
      have hNoRaise : ppu.raisesAtTick = false := by rw [hRaises, hNot, Bool.false_and]
      rw [if_neg hStart]
      by_cases hLine : ppu.moved.raster.scanline.val = preRenderLine
      · rw [if_pos hLine]
        obtain ⟨hSetup, hRaster, hNmi, hFlag⟩ := ppu.moved.preRenderDot_keeps
        refine ⟨hMoved.trans hSetup, hRaster, by rw [hRaster, hNot], ?_, ?_⟩
        · rw [hNmi, hNoRaise, Bool.or_false]
          rfl
        · rw [hFlag, hRaster, vblankAt, hNot, hAt, hLine]
          simp [moved]
      · have hPre : ppu.moved.raster.isAt preRenderLine 1 = false := by
          rw [hAt, beq_false_of_ne hLine, Bool.false_and]
        rw [if_neg hLine]
        refine ⟨hMoved, rfl, hNot.symm, ?_, ?_⟩
        · rw [hNoRaise, Bool.or_false]
          rfl
        · rw [vblankAt, hNot, hPre]
          simp [moved]

/-! ### Accesses -/

theorem takeNmi_eq (ppu : Ppu) :
    ppu.takeNmi = (ppu.nmiPending, { ppu with nmiPending := false }) := by
  unfold takeNmi
  split
  · rename_i h
    rw [h]
  · rename_i h
    obtain ⟨_, _, _, _, _, _, _, _, _, _, _, pending, _⟩ := ppu
    obtain rfl : pending = false := by simpa using h
    rfl

theorem readData_eq (ppu : Ppu) (bus : β) :
    ∃ buffer, (ppu.readData bus).2.1 = { ppu with readBuffer := buffer }.stepAddress := by
  unfold readData
  by_cases hPalette : 0x3F00 ≤ ppu.vramAddress
  · rw [if_pos hPalette]
    cases ppu.vramRead bus (ppu.vramAddress - 0x1000)
    exact ⟨_, rfl⟩
  · rw [if_neg hPalette]
    cases ppu.vramRead bus ppu.vramAddress
    exact ⟨_, rfl⟩

theorem readData_keeps (ppu : Ppu) (bus : β) :
    (ppu.readData bus).2.1.raster = ppu.raster ∧
      (ppu.readData bus).2.1.nmiPending = ppu.nmiPending ∧
      (ppu.readData bus).2.1.status = ppu.status := by
  obtain ⟨buffer, hData⟩ := ppu.readData_eq bus
  rw [hData]
  exact ⟨rfl, rfl, rfl⟩

/-- A read may take flags back, move the address and fill the buffer, and no more. -/
theorem readRegister_eq (ppu : Ppu) (bus : β) (address : UInt16) :
    ∃ status scroll buffer seen, (ppu.readRegister bus address).2.1 =
      { ppu with
        status := status
        scroll := scroll
        readBuffer := buffer
        openBus := seen } := by
  unfold readRegister
  split
  · exact ⟨_, _, _, _, rfl⟩
  · exact ⟨_, _, _, _, rfl⟩
  · obtain ⟨buffer, hData⟩ := ppu.readData_eq bus
    dsimp only
    rw [hData]
    exact ⟨_, _, _, _, rfl⟩
  · exact ⟨_, _, _, _, rfl⟩

theorem readRegister_keeps (ppu : Ppu) (bus : β) (address : UInt16) :
    (ppu.readRegister bus address).2.1.raster = ppu.raster ∧
      (ppu.readRegister bus address).2.1.nmiPending = ppu.nmiPending ∧
      ((ppu.readRegister bus address).2.1.status.vblank = true → ppu.status.vblank = true) := by
  unfold readRegister
  split
  · refine ⟨rfl, rfl, ?_⟩
    have hCleared : ppu.readStatus.2.status.vblank = false :=
      anyBit_withBits_self _ _ _ (by decide)
    intro hFlag
    exact absurd hFlag (by simp [hCleared])
  · exact ⟨rfl, rfl, id⟩
  · obtain ⟨hRaster, hNmi, hStatus⟩ := ppu.readData_keeps bus
    refine ⟨hRaster, hNmi, ?_⟩
    intro hFlag
    exact (congrArg Status.vblank hStatus).symm.trans hFlag
  · exact ⟨rfl, rfl, id⟩

/-- The write raises the interrupt: it goes to the control register and enables the interrupt
while the vertical blank flag is up. -/
def raisesAtWrite (ppu : Ppu) (address : UInt16) (value : UInt8) : Bool :=
  address.toNat % 8 == 0 &&
    (!ppu.control.nmiEnabled && (Control.mk value).nmiEnabled && ppu.status.vblank)

theorem vramWrite_eq (ppu : Ppu) (bus : β) (address : Nat) (value : UInt8) :
    ∃ nametables palette, (ppu.vramWrite bus address value).1 =
      { ppu with nametables := nametables, palette := palette } := by
  unfold vramWrite
  split
  · exact ⟨_, _, rfl⟩
  · split <;> exact ⟨_, _, rfl⟩

theorem vramWrite_keeps (ppu : Ppu) (bus : β) (address : Nat) (value : UInt8) :
    (ppu.vramWrite bus address value).1.raster = ppu.raster ∧
      (ppu.vramWrite bus address value).1.nmiPending = ppu.nmiPending ∧
      (ppu.vramWrite bus address value).1.status = ppu.status := by
  obtain ⟨nametables, palette, hWrite⟩ := ppu.vramWrite_eq bus address value
  rw [hWrite]
  exact ⟨rfl, rfl, rfl⟩

/-- No write moves the beam or the vertical blank flag, and the interrupt is raised where
`raisesAtWrite` says so. -/
theorem writeRegister_keeps (ppu : Ppu) (bus : β) (address : UInt16) (value : UInt8) :
    (ppu.writeRegister bus address value).1.raster = ppu.raster ∧
      (ppu.writeRegister bus address value).1.nmiPending =
        (ppu.nmiPending || ppu.raisesAtWrite address value) ∧
      (ppu.writeRegister bus address value).1.status.vblank = ppu.status.vblank := by
  have hOther (h : address.toNat % 8 ≠ 0) :
      (ppu.nmiPending || ppu.raisesAtWrite address value) = ppu.nmiPending := by
    rw [raisesAtWrite, beq_false_of_ne h, Bool.false_and, Bool.or_false]
  unfold writeRegister
  split
  · rename_i hControl
    refine ⟨rfl, ?_, rfl⟩
    rw [raisesAtWrite, hControl, beq_self_eq_true, Bool.true_and]
    rfl
  all_goals
    rename_i hRegister
    rw [hOther (by omega)]
  · exact ⟨rfl, rfl, rfl⟩
  · exact ⟨rfl, rfl, rfl⟩
  · exact ⟨rfl, rfl, rfl⟩
  · exact ⟨rfl, rfl, rfl⟩
  · exact ⟨rfl, rfl, rfl⟩
  · obtain ⟨hRaster, hNmi, hStatus⟩ :=
      vramWrite_keeps { ppu with openBus := value } bus ppu.vramAddress value
    exact ⟨hRaster, hNmi, congrArg Status.vblank hStatus⟩
  · exact ⟨rfl, rfl, rfl⟩

end Famicom.Ppu

import Famicom.Proofs.Ppu.FreshPicture

/-!
# Status flags

Ticks, status reads and resets act on the flags of the status register, and nothing else does.
Vertical blank is flagged between two places of the beam at most, is seen once by those who poll
it, and is what the interrupt waits for.  The two sprite flags, once up, wait for the pre-render
line.
-/

namespace Famicom.Ppu

variable {β : Type} [PatternBus β]

namespace Call

def completes (call : Call β) : Bool :=
  match call.operation with
  | .tick => (call.ppu.tick call.bus).1
  | _ => false

/-- A read of the status register that gives a byte with bit 7 set. -/
def showsVblank (call : Call β) : Bool :=
  match call.operation with
  | .read address =>
    address.toNat % 8 == 2 && anyBit (call.ppu.readRegister call.bus address).1 0x80
  | _ => false

/-- A reset, or a tick that takes the beam to dot 1 of the pre-render line. -/
def clearsFlags (call : Call β) : Bool :=
  match call.operation with
  | .tick => call.outcome.1.raster.isAt preRenderLine 1
  | .reset => true
  | _ => false

end Call

/-! ### Reads -/

theorem readStatus_shows (ppu : Ppu) :
    anyBit ppu.readStatus.1 0x80 = ppu.status.vblank := by
  have hBus : ppu.openBus &&& 0x1F &&& 0x80 = 0 := by
    rw [UInt8.and_assoc]
    exact UInt8.and_zero
  have hFlags : ppu.status.bits &&& 0xE0 &&& 0x80 = ppu.status.bits &&& 0x80 := by
    rw [UInt8.and_assoc]
    rfl
  show anyBit (ppu.status.bits &&& 0xE0 ||| ppu.openBus &&& 0x1F) 0x80 = _
  rw [anyBit_or_left hBus, Status.vblank, anyBit, anyBit, hFlags]
  rfl

theorem readRegister_status (ppu : Ppu) (bus : β) {address : UInt16}
    (h : address.toNat % 8 = 2) :
    anyBit (ppu.readRegister bus address).1 0x80 = ppu.status.vblank ∧
      (ppu.readRegister bus address).2.1.status = ppu.status.clear Status.vblankMask := by
  have hShows := ppu.readStatus_shows
  unfold readRegister
  rw [h]
  exact ⟨hShows, rfl⟩

theorem readRegister_status_of_ne (ppu : Ppu) (bus : β) {address : UInt16}
    (h : address.toNat % 8 ≠ 2) : (ppu.readRegister bus address).2.1.status = ppu.status := by
  unfold readRegister
  split
  · rename_i hStatus
    exact absurd hStatus h
  · rfl
  · exact (ppu.readData_keeps bus).2.2
  · rfl

/-! ### Vertical blank -/

/-- What a call does to beam, vertical blank and interrupt unless it is a tick or a reset. -/
structure Call.Still (call : Call β) : Prop where
  raster : call.outcome.1.raster = call.ppu.raster
  vblank : call.outcome.1.status.vblank = true → call.ppu.status.vblank = true
  interrupt : call.ppu.nmiPending = false → call.outcome.1.nmiPending = true →
    call.outcome.1.status.vblank = true ∧ call.outcome.1.control.nmiEnabled = true

theorem writeRegister_interrupt (ppu : Ppu) (bus : β) (address : UInt16) (value : UInt8)
    (hBefore : ppu.nmiPending = false)
    (hAfter : (ppu.writeRegister bus address value).1.nmiPending = true) :
    (ppu.writeRegister bus address value).1.status.vblank = true ∧
      (ppu.writeRegister bus address value).1.control.nmiEnabled = true := by
  obtain ⟨-, hNmi, hVblank⟩ := ppu.writeRegister_keeps bus address value
  rw [hNmi, hBefore, Bool.false_or] at hAfter
  simp only [raisesAtWrite, Bool.and_eq_true, beq_iff_eq] at hAfter
  obtain ⟨hControl, ⟨-, hEnables⟩, hFlag⟩ := hAfter
  refine ⟨hVblank.trans hFlag, ?_⟩
  unfold writeRegister
  rw [hControl]
  exact hEnables

namespace Call

theorem still (call : Call β) (hTick : call.operation ≠ .tick) (hReset : call.operation ≠ .reset) :
    call.Still := by
  obtain ⟨ppu, bus, operation⟩ := call
  cases operation with
  | tick => exact absurd rfl hTick
  | reset => exact absurd rfl hReset
  | read address =>
    obtain ⟨hRaster, hNmi, hVblank⟩ := ppu.readRegister_keeps bus address
    refine ⟨hRaster, hVblank, ?_⟩
    intro hBefore hAfter
    rw [← hNmi] at hBefore
    exact absurd (hBefore.symm.trans hAfter) Bool.false_ne_true
  | write address value =>
    obtain ⟨hRaster, -, hVblank⟩ := ppu.writeRegister_keeps bus address value
    exact ⟨hRaster, fun h => hVblank.symm.trans h, ppu.writeRegister_interrupt bus address value⟩
  | writeOam value =>
    exact ⟨rfl, id, fun hBefore hAfter => absurd (hBefore.symm.trans hAfter) Bool.false_ne_true⟩
  | takeNmi =>
    refine ⟨?_, ?_, ?_⟩
    · show ppu.takeNmi.2.raster = ppu.raster
      rw [takeNmi_eq]
    · show ppu.takeNmi.2.status.vblank = true → _
      rw [takeNmi_eq]
      exact id
    · show _ → ppu.takeNmi.2.nmiPending = true → _
      rw [takeNmi_eq]
      intro _ hAfter
      cases hAfter
  | exchange bus =>
    exact ⟨rfl, id, fun hBefore hAfter => absurd (hBefore.symm.trans hAfter) Bool.false_ne_true⟩

theorem interrupt (call : Call β) (hBefore : call.ppu.nmiPending = false)
    (hAfter : call.outcome.1.nmiPending = true) :
    call.outcome.1.status.vblank = true ∧ call.outcome.1.control.nmiEnabled = true := by
  have hStill := call.still
  obtain ⟨ppu, bus, operation⟩ := call
  cases operation with
  | tick =>
    have hTicked := ppu.tick_ticked bus
    have hRaises : ppu.raisesAtTick = true := by
      have hNmi := hTicked.nmiPending.symm.trans hAfter
      rwa [hBefore, Bool.false_or] at hNmi
    rw [raisesAtTick, Bool.and_eq_true, ← hTicked.raster] at hRaises
    refine ⟨?_, ?_⟩
    · show (ppu.tick bus).2.1.status.vblank = true
      rw [hTicked.vblank, vblankAt, hRaises.1, Bool.true_or]
    · show (ppu.tick bus).2.1.control.nmiEnabled = true
      rw [hTicked.setup.control]
      exact hRaises.2
  | reset => exact absurd hAfter Bool.false_ne_true
  | _ => exact (hStill (by simp) (by simp)).interrupt hBefore hAfter

/-- What is seen of vertical blank was flagged before and is taken back: a poll that shows it and
the flag left behind share one flag found or one picture completed. -/
theorem vblank_balance (call : Call β) :
    call.showsVblank.toNat + call.outcome.1.status.vblank.toNat ≤
      call.ppu.status.vblank.toNat + call.completes.toNat := by
  have hLe {a b : Bool} (h : a = true → b = true) : a.toNat ≤ b.toNat := by
    cases a with
    | false => exact Nat.zero_le _
    | true => rw [h rfl]
  have hStill := call.still
  obtain ⟨ppu, bus, operation⟩ := call
  cases operation with
  | tick =>
    have hTicked := ppu.tick_ticked bus
    have hFlag : (ppu.tick bus).2.1.status.vblank = true →
        ppu.status.vblank = true ∨ (ppu.tick bus).1 = true := by
      rw [hTicked.vblank, vblankAt, ← hTicked.complete, Bool.or_eq_true, Bool.and_eq_true]
      rintro (hNow | ⟨hBefore, -⟩)
      · exact .inr hNow
      · exact .inl hBefore
    show 0 + (ppu.tick bus).2.1.status.vblank.toNat ≤ _ + (ppu.tick bus).1.toNat
    cases hNow : (ppu.tick bus).2.1.status.vblank with
    | false => simp
    | true =>
      rcases hFlag hNow with hBefore | hComplete
      · simp [hBefore]
      · simp [hComplete]
  | read address =>
    show (address.toNat % 8 == 2 && _).toNat + _ ≤ ppu.status.vblank.toNat + 0
    by_cases hStatus : address.toNat % 8 = 2
    · obtain ⟨hShows, hCleared⟩ := ppu.readRegister_status bus hStatus
      have hDown : (ppu.readRegister bus address).2.1.status.vblank = false := by
        rw [hCleared]
        exact anyBit_withBits_self _ _ _ (by decide)
      show _ + (ppu.readRegister bus address).2.1.status.vblank.toNat ≤ _
      rw [hDown, hShows, hStatus]
      simp
    · rw [beq_false_of_ne hStatus, Bool.false_and, Bool.toNat_false, Nat.zero_add]
      exact hLe (ppu.readRegister_keeps bus address).2.2
  | reset =>
    have hDown : ppu.reset.status.vblank = false :=
      (by decide : (Status.mk 0).vblank = false)
    show 0 + ppu.reset.status.vblank.toNat ≤ _
    rw [hDown]
    exact Nat.zero_le _
  | _ =>
    show 0 + _ ≤ _ + 0
    rw [Nat.zero_add]
    exact hLe (hStill (by simp) (by simp)).vblank

theorem completes_vblank (call : Call β) (h : call.completes = true) :
    call.outcome.1.status.vblank = true := by
  obtain ⟨ppu, bus, operation⟩ := call
  cases operation with
  | tick =>
    have hTicked := ppu.tick_ticked bus
    have hHere := hTicked.complete.symm.trans h
    show (ppu.tick bus).2.1.status.vblank = true
    rw [hTicked.vblank, vblankAt, hHere, Bool.true_or]
  | _ => exact absurd h Bool.false_ne_true

end Call

/-- The place of the beam while vertical blank is flagged: from dot 1 of line 241 to dot 0 of the
pre-render line. -/
def FlaggedInBlank (ppu : Ppu) : Prop :=
  ppu.status.vblank = true → 82182 ≤ ppu.raster.place ∧ ppu.raster.place ≤ 89001

theorem FlaggedInBlank.step (call : Call β) (h : call.ppu.FlaggedInBlank) :
    call.outcome.1.FlaggedInBlank := by
  have hStill := call.still
  obtain ⟨ppu, bus, operation⟩ := call
  cases operation with
  | tick =>
    have hTicked := ppu.tick_ticked bus
    have hRaster : (ppu.tick bus).2.1.raster = ppu.moved.raster := hTicked.raster
    have hStart : ppu.moved.raster.isAt vblankLine 1 = true ↔ _ :=
      ppu.moved.raster.isAt_iff (by decide)
    have hEnd : ppu.moved.raster.isAt preRenderLine 1 = true ↔ _ :=
      ppu.moved.raster.isAt_iff (by decide)
    have hMove := ppu.moved_place
    intro hFlag
    have hFlag' : vblankAt ppu.moved.raster ppu.status.vblank = true := by
      rw [← hRaster, ← hTicked.vblank]
      exact hFlag
    show 82182 ≤ (ppu.tick bus).2.1.raster.place ∧ (ppu.tick bus).2.1.raster.place ≤ 89001
    rw [hRaster]
    simp only [vblankAt, Bool.or_eq_true, Bool.and_eq_true, hStart, Bool.not_eq_true',
      Bool.eq_false_iff, ne_eq, hEnd] at hFlag'
    unfold vblankLine preRenderLine at hFlag'
    -- A flag that was up before moves with the beam, and dot 1 of the pre-render line ends it.
    rcases hFlag' with hHere | ⟨hBefore, hPast⟩
    · omega
    · have hPlace : 82182 ≤ ppu.raster.place ∧ ppu.raster.place ≤ 89001 := h hBefore
      omega
  | reset =>
    intro hFlag
    exact absurd hFlag (by decide : ¬(Status.mk 0).vblank = true)
  | _ =>
    intro hFlag
    have hCall := hStill (by simp) (by simp)
    have hPlace := h (hCall.vblank hFlag)
    rw [hCall.raster]
    exact hPlace

theorem flaggedInBlank_performAll (state : Ppu × β) (h : state.1.FlaggedInBlank)
    (operations : List (Operation β)) : (performAll state operations).1.FlaggedInBlank := by
  induction operations generalizing state with
  | nil => exact h
  | cons operation rest ih => exact ih _ (FlaggedInBlank.step ⟨state.1, state.2, operation⟩ h)

theorem vblank_balance_calls (state : Ppu × β) (operations : List (Operation β)) :
    (calls state operations).countP Call.showsVblank +
        (performAll state operations).1.status.vblank.toNat ≤
      state.1.status.vblank.toNat + (calls state operations).countP Call.completes := by
  induction operations generalizing state with
  | nil => simp [calls, performAll]
  | cons operation rest ih =>
    have hFirst := (Call.mk state.1 state.2 operation).vblank_balance
    have hRest := ih (Call.mk state.1 state.2 operation).outcome
    have hCount (b : Bool) : (if b = true then 1 else 0) = b.toNat := by cases b <;> rfl
    rw [performAll_cons, calls, List.countP_cons, List.countP_cons, hCount, hCount]
    dsimp only at hFirst
    omega

/-! ### Sprite flags -/

/-- A tick may note an overflow and a hit, or vertical blank, and takes the flags back on dot 1 of
the pre-render line. -/
theorem tick_status (ppu : Ppu) (bus : β) :
    (∃ overflow hit, (ppu.tick bus).2.1.status =
        (ppu.status.raise Status.overflowMask overflow).raise Status.spriteZeroMask hit) ∨
      (ppu.tick bus).2.1.status = ppu.status.raise Status.vblankMask true ∨
      (ppu.tick bus).2.1.raster.isAt preRenderLine 1 = true ∧
        (ppu.tick bus).2.1.status = ppu.status.clear
          (Status.vblankMask ||| Status.spriteZeroMask ||| Status.overflowMask) := by
  -- A tick that leaves the flags alone notes nothing: both raises are by `false`.
  have hSame {after : Status} (h : after = ppu.status) : ∃ overflow hit, after =
      (ppu.status.raise Status.overflowMask overflow).raise Status.spriteZeroMask hit :=
    ⟨false, false, h⟩
  by_cases hVisible : ppu.moved.raster.scanline.val < pictureHeight
  · rw [ppu.tick_visible bus hVisible]
    by_cases hDot : ppu.moved.raster.dot.val = renderDot
    · rw [ppu.moved.visibleDot_render bus _ hDot]
      exact .inl ⟨_, _, rfl⟩
    · rw [ppu.moved.visibleDot_other bus _ hDot]
      exact .inl (hSame rfl)
  · rw [ppu.tick_hidden bus hVisible]
    split
    · exact .inr (.inl rfl)
    · split
      · rename_i hLine
        by_cases hDot : ppu.moved.raster.dot.val = 1
        · simp only [preRenderDot, hDot, ↓reduceIte]
          refine .inr (.inr ⟨?_, rfl⟩)
          show (ppu.moved.raster.scanline.val == preRenderLine && ppu.moved.raster.dot.val == 1) = _
          rw [hLine, hDot]
          rfl
        · simp only [preRenderDot, hDot, ↓reduceIte]
          refine .inl (hSame ?_)
          split
          · rfl
          · split
            · rfl
            · split <;> rfl
      · exact .inl (hSame rfl)

theorem tick_flag (ppu : Ppu) (bus : β) {flag : UInt8} (h : anyBit ppu.status.bits flag = true)
    (hNot : (ppu.tick bus).2.1.raster.isAt preRenderLine 1 = false) :
    anyBit (ppu.tick bus).2.1.status.bits flag = true := by
  have hRaise (s : Status) (mask : UInt8) (on : Bool) (hs : anyBit s.bits flag = true) :
      anyBit (s.raise mask on).bits flag = true := by
    cases on with
    | false => exact hs
    | true =>
      show anyBit (s.bits ||| mask) flag = true
      rw [UInt8.or_comm]
      exact anyBit_or_right hs
  obtain ⟨overflow, hit, hStatus⟩ | hStatus | ⟨hHere, -⟩ := ppu.tick_status bus
  · rw [hStatus]
    exact hRaise _ _ _ (hRaise _ _ _ h)
  · rw [hStatus]
    exact hRaise _ _ _ h
  · rw [hHere] at hNot
    cases hNot

theorem writeRegister_status (ppu : Ppu) (bus : β) (address : UInt16) (value : UInt8) :
    (ppu.writeRegister bus address value).1.status = ppu.status := by
  unfold writeRegister
  split
  case h_7 => exact (vramWrite_keeps { ppu with openBus := value } bus _ value).2.2
  all_goals rfl

theorem Call.flag_stays (call : Call β) {flag : UInt8} (hFlag : ~~~Status.vblankMask &&& flag = flag)
    (h : anyBit call.ppu.status.bits flag = true) (hNot : call.clearsFlags = false) :
    anyBit call.outcome.1.status.bits flag = true := by
  obtain ⟨ppu, bus, operation⟩ := call
  cases operation with
  | tick => exact ppu.tick_flag bus h hNot
  | reset => exact absurd hNot.symm Bool.false_ne_true
  | read address =>
    show anyBit (ppu.readRegister bus address).2.1.status.bits flag = true
    by_cases hStatus : address.toNat % 8 = 2
    · have hKept : ppu.status.bits &&& ~~~Status.vblankMask &&& flag = ppu.status.bits &&& flag := by
        rw [UInt8.and_assoc, hFlag]
      rw [(ppu.readRegister_status bus hStatus).2]
      show (ppu.status.bits &&& ~~~Status.vblankMask &&& flag != 0) = true
      rw [hKept]
      exact h
    · rw [ppu.readRegister_status_of_ne bus hStatus]
      exact h
  | write address value =>
    show anyBit (ppu.writeRegister bus address value).1.status.bits flag = true
    rw [ppu.writeRegister_status]
    exact h
  | writeOam value => exact h
  | takeNmi =>
    show anyBit ppu.takeNmi.2.status.bits flag = true
    rw [takeNmi_eq]
    exact h
  | exchange bus => exact h

theorem flag_stays_performAll {flag : UInt8} (hFlag : ~~~Status.vblankMask &&& flag = flag)
    {state : Ppu × β} {operations : List (Operation β)}
    (h : anyBit state.1.status.bits flag = true)
    (hNot : ∀ call ∈ calls state operations, call.clearsFlags = false) :
    anyBit (performAll state operations).1.status.bits flag = true := by
  induction operations generalizing state with
  | nil => exact h
  | cons operation rest ih =>
    have hFirst := (Call.mk state.1 state.2 operation).flag_stays hFlag h
      (hNot _ List.mem_cons_self)
    exact ih hFirst fun call hCall => hNot call (List.mem_cons_of_mem _ hCall)

/-- Whatever is done to picture processor and cartridge from power on: vertical blank is flagged
only from dot 1 of line 241 to dot 0 of the pre-render line, and each tick that completes a picture
flags it; where no tick completes a picture, one status read at most shows it; a call that raises
the interrupt leaves vertical blank flagged and the interrupt enabled; and a sprite flag stays up
until a tick reaches dot 1 of the pre-render line or a reset is made. -/
theorem status_flags_follow_raster (bus : β) (operations : List (Operation β)) :
    let made := calls (powerOn, bus) operations
    let now := (performAll (powerOn, bus) operations).1
    (now.status.vblank = true →
      (241 < now.raster.scanline.val ∨ now.raster.scanline.val = 241 ∧ 1 ≤ now.raster.dot.val) ∧
      (now.raster.scanline.val < 261 ∨ now.raster.scanline.val = 261 ∧ now.raster.dot.val = 0)) ∧
    (∀ call ∈ made, call.completes = true → call.outcome.1.status.vblank = true) ∧
    (∀ before during later : List (Operation β), operations = before ++ during ++ later →
      (∀ call ∈ calls (performAll (powerOn, bus) before) during, call.completes = false) →
      (calls (performAll (powerOn, bus) before) during).countP Call.showsVblank ≤ 1) ∧
    (∀ call ∈ made, call.ppu.nmiPending = false → call.outcome.1.nmiPending = true →
      call.outcome.1.status.vblank = true ∧ call.outcome.1.control.nmiEnabled = true) ∧
    (∀ flag ∈ [Status.spriteZeroMask, Status.overflowMask],
      ∀ before during later : List (Operation β), operations = before ++ during ++ later →
      anyBit (performAll (powerOn, bus) before).1.status.bits flag = true →
      (∀ call ∈ calls (performAll (powerOn, bus) before) during, call.clearsFlags = false) →
      anyBit (performAll (powerOn, bus) (before ++ during)).1.status.bits flag = true) := by
  intro made now
  have hStart : FlaggedInBlank powerOn := fun hFlag => absurd hFlag Bool.false_ne_true
  refine ⟨?_, fun call _ => call.completes_vblank, ?_, fun call _ => call.interrupt, ?_⟩
  · intro hFlag
    have hPlace := flaggedInBlank_performAll (powerOn, bus) hStart operations hFlag
    have hSplit := now.raster.place_eq
    have hDot := now.raster.dot_lt
    have hNow : (performAll (powerOn, bus) operations).1 = now := rfl
    rw [hNow] at hPlace
    omega
  · intro before during later _ hNone
    have hBalance := vblank_balance_calls (performAll (powerOn, bus) before) during
    have hZero : (calls (performAll (powerOn, bus) before) during).countP Call.completes = 0 :=
      List.countP_eq_zero.2 fun call hCall => by simp [hNone call hCall]
    have hOne := Bool.toNat_le (performAll (powerOn, bus) before).1.status.vblank
    omega
  · intro flag hMem before during later _ hFlag hNone
    have hSprite : ~~~Status.vblankMask &&& flag = flag := by
      simp only [List.mem_cons, List.not_mem_nil, or_false] at hMem
      rcases hMem with rfl | rfl <;> decide
    rw [performAll, List.foldl_append]
    exact flag_stays_performAll hSprite hFlag hNone

end Famicom.Ppu

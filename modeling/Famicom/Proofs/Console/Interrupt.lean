import Famicom.Proofs.Console.Transfer

/-!
# Non-maskable interrupts

The picture processor flags the interrupt and the processor latches it, one bit each, so an
interrupt asserted while another waits would vanish.  Over every run from a reset none does: the
flag is collected at every dot, and the latch is emptied before the next interrupt can be
asserted.  For this the vertical blank flag has to be up in one stretch of the frame only, a step
has to be short against the rest of the frame, and a step that requests a transfer must not also
assert the interrupt.
-/

namespace Famicom.Console

/-- The picture processor as each event of a step finds it that asserts the interrupt: first the
writes of the processor, then the ticks. -/
def assertions (probes : Probes) (console : Console) : List Ppu :=
  (SystemBus.raisings console.writes).map (fun w => w.bus.ppu) ++
    (console.ticks probes).filter Ppu.raisesAtTick

/-- The step is one of the processor and its accesses enter through the vector of the
non-maskable interrupt. -/
def entersNmi (console : Console) : Bool :=
  !console.isTransfer &&
    Cpu.vectorOf? (console.cpu.step.accesses console.bus) == some Cpu.nmiVector

theorem entersNmi_eq (console : Console) :
    console.entersNmi = (!console.isTransfer && console.cpu.nmiLatched) := by
  have hEntry := Cpu.vectorOf?_step console.cpu console.bus
  rw [entersNmi, Bool.eq_iff_iff]
  simp [hEntry]

/-- The vertical blank flag is only up between the start of vertical blank and the pre-render
line. -/
def InBlank (ppu : Ppu) : Prop :=
  ppu.status.vblank = true → 82182 ≤ ppu.raster.place ∧ ppu.raster.place < 89002

/-- What lets no interrupt get lost, between any two steps: none is flagged, and one that waits
for a transfer was asserted in the same frame. -/
structure Attentive (console : Console) : Prop where
  nmiPending : console.bus.ppu.nmiPending = false
  inBlank : InBlank console.bus.ppu
  waiting : console.cpu.nmiLatched = true → console.isTransfer = true →
    82182 ≤ console.bus.ppu.raster.place

theorem attentive_fresh {console : Console} (h : console.Fresh) : console.Attentive where
  nmiPending := h.nmiPending
  inBlank hFlag := absurd hFlag (by simp [h.vblank])
  waiting hLatched := absurd hLatched (by simp [h.nmiLatched])

/-! ### The dots of a turn -/

namespace Turn

/-- The picture processor as each of the first ticks finds it that asserts the interrupt. -/
def raised (t : Turn) (probes : Probes) (n : Nat) : List Ppu :=
  ((List.range n).map fun i => (t.videoAfter probes i).ppu).filter Ppu.raisesAtTick

theorem raised_succ (t : Turn) (probes : Probes) (n : Nat) :
    t.raised probes (n + 1) = t.raised probes n ++
      if (t.videoAfter probes n).ppu.raisesAtTick then [(t.videoAfter probes n).ppu] else [] := by
  simp only [raised, List.range_succ, List.map_append, List.filter_append, List.map_cons,
    List.map_nil, List.filter_cons, List.filter_nil]

theorem clock_le (t : Turn) (probes : Probes) (n : Nat) :
    (t.videoAfter probes n).ppu.raster.clock ≤ t.bus.ppu.raster.clock + 2 * n := by
  induction n with
  | zero => exact Nat.le_refl _
  | succ n ih =>
    have hOne := Bool.toNat_le ((t.videoAfter probes n).ppu.raster.skipsDot
      (t.videoAfter probes n).ppu.mask.rendering)
    rw [(t.videoAfter_dotted probes n).raster, Ppu.Raster.clock_advance]
    omega

theorem raised_length (t : Turn) (probes : Probes) (n : Nat) :
    (t.raised probes n).length + t.bus.ppu.raster.vblanks ≤
      (t.videoAfter probes n).ppu.raster.vblanks := by
  induction n with
  | zero => exact Nat.le_of_eq (Nat.zero_add _)
  | succ n ih =>
    rw [(t.videoAfter_dotted probes n).raster, Ppu.Raster.vblanks_advance, raised_succ,
      List.length_append]
    cases hRaise : (t.videoAfter probes n).ppu.raisesAtTick with
    | false => simp only [Bool.false_eq_true, ↓reduceIte, List.length_nil]; omega
    | true =>
      have hHere := (Bool.and_eq_true_iff.1 hRaise).1
      rw [hHere, if_pos rfl, List.length_singleton, Bool.toNat_true]
      omega

/-- The dots of a turn begin vertical blank once at most, and leave the beam past its start if
they do. -/
theorem raised_length_le (t : Turn) (probes : Probes) {n : Nat} (hShort : n ≤ 1542) :
    (t.raised probes n).length ≤ 1 ∧
      ((t.raised probes n).length = 1 → 82182 ≤ (t.videoAfter probes n).ppu.raster.place) := by
  -- The clock tells how often vertical blank has begun, and moves on by much less than a frame.
  have hLength := t.raised_length probes n
  have hClock := t.clock_le probes n
  have hBegin := t.bus.ppu.raster.vblanks_bounds
  have hEnd := (t.videoAfter probes n).ppu.raster.vblanks_bounds
  have hPlace := (t.videoAfter probes n).ppu.raster.place_lt_frameDots
  have hSplit : (t.videoAfter probes n).ppu.raster.clock =
    Ppu.Raster.frameDots * (t.videoAfter probes n).ppu.raster.frames +
      (t.videoAfter probes n).ppu.raster.place := rfl
  unfold Ppu.Raster.frameDots at hBegin hEnd hPlace hSplit
  omega

theorem raised_late (t : Turn) (probes : Probes) {n : Nat} (hShort : n ≤ 1542)
    (hLate : 82182 ≤ t.bus.ppu.raster.place) : (t.raised probes n).length = 0 := by
  have hLength := t.raised_length probes n
  have hClock := t.clock_le probes n
  have hEnd := (t.videoAfter probes n).ppu.raster.vblanks_bounds
  have hPlace := t.bus.ppu.raster.place_lt_frameDots
  have hBegun : t.bus.ppu.raster.vblanks = t.bus.ppu.raster.frames + 1 := by
    unfold Ppu.Raster.vblanks Ppu.Raster.vblankPlace
    rw [if_pos hLate]
  have hSplit : t.bus.ppu.raster.clock =
    Ppu.Raster.frameDots * t.bus.ppu.raster.frames + t.bus.ppu.raster.place := rfl
  unfold Ppu.Raster.frameDots at hEnd hPlace hSplit
  omega

theorem latched_or_pending (t : Turn) (probes : Probes) (n : Nat) :
    ((t.videoAfter probes n).nmiLatched || (t.videoAfter probes n).ppu.nmiPending) =
      (t.cpu.nmiLatched || t.bus.ppu.nmiPending || !(t.raised probes n).isEmpty) := by
  induction n with
  | zero => exact (Bool.or_false _).symm
  | succ n ih =>
    have hDot := t.videoAfter_dotted probes n
    rw [hDot.nmiPending, hDot.nmiLatched, raised_succ, Bool.or_false, ← Bool.or_assoc, ih]
    cases (t.videoAfter probes n).ppu.raisesAtTick <;> simp [Bool.or_assoc]

theorem nmiPending_of_pos (t : Turn) (probes : Probes) {n : Nat} (h : 0 < n) :
    (t.videoAfter probes n).ppu.nmiPending = false := by
  obtain ⟨m, rfl⟩ := Nat.exists_eq_add_of_lt h
  rw [Nat.zero_add]
  exact (t.videoAfter_dotted probes m).nmiPending

theorem inBlank (t : Turn) (probes : Probes) (h : InBlank t.bus.ppu) (n : Nat) :
    InBlank (t.videoAfter probes n).ppu := by
  induction n with
  | zero => exact h
  | succ n ih =>
    have hDot := t.videoAfter_dotted probes n
    have hStart : (t.videoAfter probes (n + 1)).ppu.raster.isAt Ppu.vblankLine 1 = true ↔
        (t.videoAfter probes (n + 1)).ppu.raster.place = 82182 :=
      Ppu.Raster.isAt_iff _ (by decide)
    have hStop : (t.videoAfter probes (n + 1)).ppu.raster.isAt Ppu.preRenderLine 1 = true ↔
        (t.videoAfter probes (n + 1)).ppu.raster.place = 89002 :=
      Ppu.Raster.isAt_iff _ (by decide)
    intro hFlag
    rw [hDot.vblank, Ppu.vblankAt, Bool.or_eq_true, Bool.and_eq_true, Bool.not_eq_true'] at hFlag
    rcases hFlag with hHere | ⟨hBefore, hNot⟩
    · have hPlace := hStart.1 hHere
      omega
    · have hWindow := ih hBefore
      have hElsewhere : (t.videoAfter probes (n + 1)).ppu.raster.place ≠ 89002 := by
        intro hPlace
        rw [hStop.2 hPlace] at hNot
        cases hNot
      rw [hDot.raster] at hElsewhere ⊢
      rcases Ppu.Raster.advance_cases (t.videoAfter probes n).ppu.raster
        (t.videoAfter probes n).ppu.mask.rendering with ⟨-, -, -, hNext⟩ | ⟨hWrap, -, -, -⟩
      · omega
      · -- The frame does not end while the flag is up.
        have hOne := Bool.toNat_le ((t.videoAfter probes n).ppu.raster.skipsDot
          (t.videoAfter probes n).ppu.mask.rendering)
        unfold Ppu.Raster.frameDots at hWrap
        omega

end Turn

/-! ### The steps of a run -/

/-- A turn from an attentive console leaves the latch to a transfer and empties it otherwise; at
most one interrupt waits, is flagged or is asserted by the dots that follow. -/
structure Answered (probes : Probes) (console : Console) (t : Turn) : Prop where
  nmiLatched : t.cpu.nmiLatched = (console.isTransfer && console.cpu.nmiLatched)
  nmiPending : t.bus.ppu.nmiPending = !(SystemBus.raisings console.writes).isEmpty
  inBlank : InBlank t.bus.ppu
  found : ∀ w ∈ SystemBus.raisings console.writes, w.bus.ppu.nmiPending = false
  single : t.cpu.nmiLatched.toNat + (SystemBus.raisings console.writes).length +
    (t.raised probes t.dots).length ≤ 1

theorem turn_dots_le {console : Console} {t : Turn} (h : console.turn = .ok t) :
    0 < t.dots ∧ t.dots ≤ 1542 := by
  have hCycles := turn_cycles h
  unfold Turn.dots dotsPerCycle
  omega

theorem InBlank.of_calm {before after : SystemBus} (hCalm : SystemBus.Calm before after)
    (h : InBlank before.ppu) : InBlank after.ppu := by
  intro hFlag
  rw [hCalm.raster]
  exact h (hCalm.vblank hFlag)

theorem Attentive.answered_transfer {console : Console} {t : Turn} (h : console.Attentive)
    (hTransfer : console.isTransfer = true) (hCpu : t.cpu = console.cpu)
    (hCalm : SystemBus.Calm console.bus.takeDma.2 t.bus)
    (hTurn : console.turn = .ok t) (probes : Probes) : console.Answered probes t := by
  have hNone : SystemBus.raisings console.writes = [] := by
    rw [writes, if_pos hTransfer]
    rfl
  have hDots := (turn_dots_le hTurn).2
  refine ⟨?_, ?_, InBlank.of_calm hCalm h.inBlank, ?_, ?_⟩
  · rw [hCpu, hTransfer, Bool.true_and]
  · rw [hNone]
    exact hCalm.nmiPending.trans h.nmiPending
  · intro w hw
    rw [hNone] at hw
    exact absurd hw List.not_mem_nil
  · rw [hNone, hCpu, List.length_nil]
    cases hWaits : console.cpu.nmiLatched with
    | true =>
      have hLate := h.waiting hWaits hTransfer
      rw [← turn_raster hTurn] at hLate
      have hNever := t.raised_late probes hDots hLate
      rw [Bool.toNat_true]
      omega
    | false =>
      have hOnce := (t.raised_length_le probes hDots).1
      rw [Bool.toNat_false]
      omega

theorem Attentive.answered_processor {console : Console} {t : Turn} (h : console.Attentive)
    (hPage : console.bus.dmaPage = none)
    (hRun : console.cpu.step.run console.bus = (.ok (t.cycles, t.cpu), t.bus))
    (hTurn : console.turn = .ok t) (probes : Probes) : console.Answered probes t := by
  have hSparing := sparing_writes hPage
  have hLatch := Cpu.nmiLatched_of_step (congrArg Prod.fst hRun)
  have hWrites := writes_of_none hPage
  have hDots := (turn_dots_le hTurn).2
  have hFew := SystemBus.raisings_length_le hSparing
  have hFound : ∀ w ∈ SystemBus.raisings console.writes,
      w.bus.ppu.nmiPending = console.bus.ppu.nmiPending ∧
        console.bus.ppu.status.vblank = true := by
    rw [hWrites] at hSparing ⊢
    exact fun w hw => SystemBus.found_of_mem_raisings _ _ hSparing hw
  refine ⟨?_, ?_, ?_, fun w hw => (hFound w hw).1.trans h.nmiPending, ?_⟩
  · rw [hLatch, isTransfer_of_none hPage, Bool.false_and]
  · have hPending := SystemBus.run_nmiPending console.cpu.step console.bus
    rw [hRun, h.nmiPending, Bool.false_or, ← hWrites] at hPending
    exact hPending
  · intro hFlag
    have hBefore := (SystemBus.vblank_of_run console.cpu.step console.bus).1
    rw [hRun] at hBefore
    rw [turn_raster hTurn]
    exact h.inBlank (hBefore hFlag)
  · rw [hLatch, Bool.toNat_false, Nat.zero_add]
    cases hRaisings : SystemBus.raisings console.writes with
    | nil =>
      have hOnce := (t.raised_length_le probes hDots).1
      rw [List.length_nil]
      omega
    | cons w rest =>
      -- A write asserts the interrupt in vertical blank only, and the next one is far off.
      have hFlag := (hFound w (by rw [hRaisings]; exact List.mem_cons_self)).2
      have hLate := (h.inBlank hFlag).1
      rw [← turn_raster hTurn] at hLate
      rw [t.raised_late probes hDots hLate, ← hRaisings]
      exact hFew

theorem Attentive.answered {console : Console} {t : Turn} (h : console.Attentive)
    (hTurn : console.turn = .ok t) (probes : Probes) : console.Answered probes t := by
  rcases turn_cases hTurn with ⟨page, hPage, hEq⟩ | ⟨hPage, -, hRun⟩
  · have hTransfer := isTransfer_of_some hPage
    have hCpu : t.cpu = console.cpu := by rw [hEq]; rfl
    have hCalm := console.calm_transferTurn page
    rw [← hEq] at hCalm
    exact h.answered_transfer hTransfer hCpu hCalm hTurn probes
  · exact h.answered_processor hPage hRun hTurn probes

theorem assertions_of_turn {console : Console} {t : Turn} (h : console.turn = .ok t)
    (probes : Probes) : console.assertions probes =
      (SystemBus.raisings console.writes).map (fun w => w.bus.ppu) ++ t.raised probes t.dots := by
  rw [assertions, ticks_of_turn h]
  rfl

theorem assertions_of_fault {probes : Probes} {console : Console} (h : console.Faulted probes) :
    console.assertions probes = [] := by
  rw [assertions, h.ticks, h.writes]
  rfl

theorem Attentive.nmiPending_of_mem_assertions {console : Console} (h : console.Attentive)
    {probes : Probes} {ppu : Ppu} (hMem : ppu ∈ console.assertions probes) :
    ppu.nmiPending = false := by
  cases hTurn : console.turn with
  | error fault =>
    rw [assertions_of_fault (faulted_of_turn hTurn probes)] at hMem
    cases hMem
  | ok t =>
    have hAnswered := h.answered hTurn probes
    rw [assertions_of_turn hTurn, List.mem_append] at hMem
    rcases hMem with hWrite | hTick
    · obtain ⟨w, hw, rfl⟩ := List.mem_map.1 hWrite
      exact hAnswered.found w hw
    · obtain ⟨i, -, rfl⟩ := List.mem_map.1 (List.mem_filter.1 hTick).1
      -- After the first dot the flag has just been collected; before it only a write can have
      -- raised it, and then no tick of this step does.
      cases i with
      | succ i => exact t.nmiPending_of_pos probes (Nat.succ_pos i)
      | zero =>
        have hSome := List.length_pos_of_mem hTick
        have hSingle := hAnswered.single
        have hNone : SystemBus.raisings console.writes = [] :=
          List.eq_nil_of_length_eq_zero (by omega)
        show t.bus.ppu.nmiPending = false
        rw [hAnswered.nmiPending, hNone]
        rfl

theorem toNat_or_isEmpty {α γ : Type} {waits : Bool} {first : List α} {second : List γ}
    (h : waits.toNat + first.length + second.length ≤ 1) :
    (waits || !first.isEmpty || !second.isEmpty).toNat =
      waits.toNat + first.length + second.length := by
  cases waits <;> cases first <;> cases second <;> simp at h ⊢ <;> omega

/-- What a step asserts and what waited before it is entered by it or waits after it. -/
theorem Attentive.balance {console : Console} (h : console.Attentive) (probes : Probes) :
    (console.assertions probes).length + console.cpu.nmiLatched.toNat =
      console.entersNmi.toNat + (console.step probes).2.cpu.nmiLatched.toNat := by
  rw [entersNmi_eq]
  cases hTurn : console.turn with
  | error fault =>
    have hFault := faulted_of_turn hTurn probes
    have hRun := (step_of_fault hTurn probes).2.1
    have hClear := (Cpu.pending?_eq_none_iff.1 (Cpu.pending?_of_error hRun)).1
    rw [assertions_of_fault hFault, hFault.cpu, hClear, Bool.and_false]
    rfl
  | ok t =>
    have hAnswered := h.answered hTurn probes
    have hDots := (turn_dots_le hTurn).1
    have hLatch := t.latched_or_pending probes t.dots
    rw [t.nmiPending_of_pos probes hDots, Bool.or_false, hAnswered.nmiPending] at hLatch
    have hEnd : (console.step probes).2.cpu.nmiLatched =
        (t.videoAfter probes t.dots).nmiLatched := by
      rw [step_of_turn hTurn]
      rfl
    have hSum := toNat_or_isEmpty hAnswered.single
    rw [hEnd, hLatch, hSum, assertions_of_turn hTurn, List.length_append, List.length_map,
      hAnswered.nmiLatched]
    cases console.isTransfer <;> cases console.cpu.nmiLatched <;> simp <;> omega

theorem Attentive.latched_of_assertions {probes : Probes} {console : Console}
    (h : console.Attentive) (hSome : console.assertions probes ≠ []) :
    (console.step probes).2.cpu.nmiLatched = true := by
  have hBalance := h.balance probes
  have hPositive := List.length_pos_iff.2 hSome
  have hEnters : console.entersNmi.toNat ≤ console.cpu.nmiLatched.toNat := by
    rw [entersNmi_eq]
    cases console.isTransfer <;> cases console.cpu.nmiLatched <;> decide
  cases hLatched : (console.step probes).2.cpu.nmiLatched with
  | true => rfl
  | false =>
    rw [hLatched, Bool.toNat_false] at hBalance
    omega

theorem Attentive.step {console : Console} (h : console.Attentive) (probes : Probes) :
    (console.step probes).2.Attentive := by
  cases hTurn : console.turn with
  | error fault =>
    have hFault := faulted_of_turn hTurn probes
    refine ⟨hFault.bus.nmiPending.trans h.nmiPending, .of_calm hFault.bus h.inBlank, ?_⟩
    intro _ hTransfer
    rw [isTransfer_of_none (hFault.bus.dmaPage.trans hFault.request)] at hTransfer
    cases hTransfer
  | ok t =>
    have hAnswered := h.answered hTurn probes
    have hDots := turn_dots_le hTurn
    have hRequested := dmaPage_step probes console
    rw [step_of_turn hTurn] at hRequested ⊢
    refine ⟨t.nmiPending_of_pos probes hDots.1, t.inBlank probes hAnswered.inBlank t.dots, ?_⟩
    intro hLatched hTransfer
    have hSome : console.requested ≠ [] := by
      rw [← hRequested]
      intro hNil
      rw [isTransfer, Option.toList_eq_nil_iff.1 hNil] at hTransfer
      cases hTransfer
    rcases turn_cases hTurn with ⟨page, hPage, -⟩ | ⟨hPage, -, hRun⟩
    · have hNone : console.requested = [] := (serves_of_request hPage probes).requested
      exact absurd hNone hSome
    · -- The one write of the step made the request, so a tick asserted the interrupt.
      have hQuiet := SystemBus.raisings_of_requests (sparing_writes hPage) hSome
      have hLatch := t.latched_or_pending probes t.dots
      rw [t.nmiPending_of_pos probes hDots.1, Bool.or_false, hAnswered.nmiPending, hQuiet,
        hAnswered.nmiLatched, isTransfer_of_none hPage] at hLatch
      have hRaised : (!(t.raised probes t.dots).isEmpty) = true := hLatch.symm.trans hLatched
      have hLength : (t.raised probes t.dots).length ≠ 0 := by
        rw [Bool.not_eq_true', List.isEmpty_eq_false_iff] at hRaised
        exact fun hZero => hRaised (List.eq_nil_of_length_eq_zero hZero)
      obtain ⟨hOnce, hPlace⟩ := t.raised_length_le probes hDots.2
      exact hPlace (by omega)

theorem attentive_run (probes : Probes) (start : Console) (h : start.Fresh) (n : Nat) :
    (after probes start n).Attentive := by
  induction n with
  | zero => exact attentive_fresh h
  | succ n ih => exact ih.step probes

theorem balance_run (probes : Probes) (start : Console) (h : start.Fresh) (n : Nat) :
    ((history probes start n).flatMap (assertions probes)).length =
      (history probes start n).countP entersNmi +
        (after probes start n).cpu.nmiLatched.toNat := by
  induction n with
  | zero =>
    show 0 = 0 + start.cpu.nmiLatched.toNat
    rw [h.nmiLatched]
    rfl
  | succ n ih =>
    have hBalance := (attentive_run probes start h n).balance probes
    have hCount : List.countP entersNmi [after probes start n] =
        (after probes start n).entersNmi.toNat := by
      cases hEnters : (after probes start n).entersNmi <;> simp [hEnters]
    rw [history_succ, List.flatMap_append, List.length_append, List.flatMap_singleton,
      List.countP_append, ih, hCount]
    show _ = _ + ((after probes start n).step probes).2.cpu.nmiLatched.toNat
    omega

/-- An interrupt that waits is entered by the next step, or by the one after it when the next step
is a transfer. -/
theorem entersNmi_of_latched {probes : Probes} {console : Console}
    (h : console.cpu.nmiLatched = true) :
    console.entersNmi = true ∨
      console.isTransfer = true ∧ (console.step probes).2.entersNmi = true := by
  cases hPage : console.bus.dmaPage with
  | none =>
    have hNot := isTransfer_of_none hPage
    exact .inl (by simp [entersNmi_eq, hNot, h])
  | some page =>
    have hServes := serves_of_request hPage probes
    have hNext := isTransfer_of_none hServes.taken
    refine .inr ⟨isTransfer_of_some hPage, ?_⟩
    rw [entersNmi_eq, hNext, hServes.nmiLatched h]
    rfl

/-- Over every run from a reset no interrupt is lost, merged or entered twice: no event that
asserts one finds another flagged, and the interrupts asserted are as many as those entered and
the one that waits in the latch.  None is flagged between steps, and an interrupt asserted in a
step is entered by the next step that is not a transfer. -/
theorem interrupts_entered_once (probes : Probes) (console : Console) (n : Nat) :
    let start := console.reset
    let run := after probes start
    let calls := history probes start n
    let asserted := calls.flatMap (assertions probes)
    asserted.countP (fun ppu => ppu.nmiPending) = 0 ∧
      asserted.length = calls.countP entersNmi + (if (run n).cpu.nmiLatched then 1 else 0) ∧
      (∀ i, (run i).bus.ppu.nmiPending = false) ∧
      ∀ i, (run i).assertions probes = [] ∨ (run (i + 1)).entersNmi = true ∨
        (run (i + 1)).isTransfer = true ∧ (run (i + 2)).entersNmi = true := by
  intro start run calls asserted
  have hFresh := fresh_reset console
  refine ⟨?_, ?_, fun i => (attentive_run probes start hFresh i).nmiPending, ?_⟩
  · refine List.countP_eq_zero.2 ?_
    intro ppu hPpu
    obtain ⟨call, hCall, hMem⟩ := List.mem_flatMap.1 hPpu
    obtain ⟨i, -, rfl⟩ := List.mem_map.1 hCall
    have hFound := (attentive_run probes start hFresh i).nmiPending_of_mem_assertions hMem
    simp [hFound]
  · have hBalance := balance_run probes start hFresh n
    refine hBalance.trans ?_
    show _ + (run n).cpu.nmiLatched.toNat = _
    cases (run n).cpu.nmiLatched <;> rfl
  · intro i
    by_cases hNone : (run i).assertions probes = []
    · exact .inl hNone
    · have hAttentive := attentive_run probes start hFresh i
      exact .inr (entersNmi_of_latched (hAttentive.latched_of_assertions hNone))

end Famicom.Console

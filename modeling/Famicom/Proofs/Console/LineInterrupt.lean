import Famicom.Proofs.Console.Snapshots
import Famicom.Proofs.Console.Transfer
import Famicom.Proofs.Mapper.LineCounter
import Famicom.Proofs.Ppu.Sweep

/-!
# Interrupts of the line counter

In the console the line counter is driven by the beam: a frame that is rendered counts 241 lines.
Programmed with `n` between two pictures, the counter raises the interrupt line on dot 280 of
visible line `n - 1` of the next picture.
-/

namespace Famicom

open Mapper (Mmc3 RegisterWrite)
open Ppu (Raster)

/-! ### Writes to the mapper -/

namespace Mapper

def writeAll (mapper : Mapper) (writes : List RegisterWrite) : Mapper :=
  writes.foldl (fun m w => m.write w.address w.value) mapper

theorem writeAll_mmc3 (chip : Mmc3) (writes : List RegisterWrite) :
    (Mapper.mmc3 chip).writeAll writes = .mmc3 (chip.storeAll writes) := by
  induction writes generalizing chip with
  | nil => rfl
  | cons w rest ih =>
    show (Mapper.mmc3 (chip.write w.address w.value)).writeAll rest = _
    rw [ih, Mmc3.write_eq]
    rfl

theorem writeAll_append (mapper : Mapper) (before later : List RegisterWrite) :
    mapper.writeAll (before ++ later) = (mapper.writeAll before).writeAll later := by
  simp only [writeAll, List.foldl_append]

end Mapper

namespace SystemBus

theorem write_mapper (bus : SystemBus) (address : UInt16) (value : UInt8) :
    (bus.write address value).board.mapper =
      if 0x8000 ≤ address then bus.board.mapper.write address value else bus.board.mapper := by
  have hLow {bound : UInt16} (hBound : bound ≤ 0x8000) (h : address < bound) :
      ¬0x8000 ≤ address := UInt16.not_le.2 (UInt16.lt_of_lt_of_le h hBound)
  obtain ⟨ram, ppu, board, dmaPage, openBus⟩ := bus
  simp only [write]
  split
  · rename_i h
    rw [if_neg (hLow (by decide) h)]
  · split
    · rename_i h
      rw [if_neg (hLow (by decide) h)]
      rcases ppu.writeRegister_bus board address value with hSame | ⟨place, hWrite⟩
      · exact congrArg Board.mapper hSame
      · exact (congrArg Board.mapper hWrite).trans (board.chrWrite_mapper place value)
    · split
      · rename_i h
        rw [if_neg (by rw [h]; decide)]
      · split
        · rename_i h
          rw [if_neg (hLow (by decide) h)]
        · exact board.write_mapper address value

theorem runDma_mapper (bus : SystemBus) (page : UInt8) :
    (bus.runDma page).board.mapper = bus.board.mapper :=
  runDma_preserves (P := fun b => b.board.mapper = bus.board.mapper)
    (fun b address h => (congrArg Board.mapper (b.read_board address)).trans h) rfl page

end SystemBus

namespace Console

/-- The writes of the processor in a step that reach the registers of the mapper, in order. -/
def mapperWrites (console : Console) : List RegisterWrite :=
  console.writes.filterMap fun w => if 0x8000 ≤ w.address then some ⟨w.address, w.value⟩ else none

theorem run_mapper {α : Type} (m : Cpu.BusM α) (bus : SystemBus) :
    (m.run bus).2.board.mapper = bus.board.mapper.writeAll ((m.writes bus).filterMap fun w =>
      if 0x8000 ≤ w.address then some ⟨w.address, w.value⟩ else none) := by
  have hFold := Cpu.BusM.run_foldl (fun b : SystemBus => b.board.mapper)
    (fun mapper w => if 0x8000 ≤ w.address then mapper.write w.address w.value else mapper)
    (fun b address => congrArg Board.mapper (b.read_board address))
    (fun w => w.bus.write_mapper w.address w.value) m bus
  rw [hFold, Mapper.writeAll, List.foldl_filterMap]
  congr 1
  funext mapper w
  split <;> rfl

theorem turn_mapper {console : Console} {t : Turn} (h : console.turn = .ok t) :
    t.bus.board.mapper = console.bus.board.mapper.writeAll console.mapperWrites := by
  rcases turn_cases h with ⟨page, hPage, rfl⟩ | ⟨hPage, -, hRun⟩
  · rw [mapperWrites, writes_of_some hPage]
    dsimp only [transferTurn]
    rw [SystemBus.runDma_mapper]
    rfl
  · have hMapper := run_mapper console.cpu.step console.bus
    rw [hRun] at hMapper
    rw [mapperWrites, writes_of_none hPage]
    exact hMapper

theorem fault_mapper {console : Console} {fault : Cpu.Fault} (h : console.turn = .error fault)
    (probes : Probes) :
    (console.step probes).2.bus.board.mapper =
      console.bus.board.mapper.writeAll console.mapperWrites := by
  obtain ⟨hPage, -, hStep⟩ := step_of_fault h probes
  rw [hStep, mapperWrites, writes_of_none hPage]
  exact run_mapper console.cpu.step console.bus

/-! ### Dots -/

def dotStates (console : Console) : List Video :=
  match console.turn with
  | .ok t => t.dotStates
  | .error _ => []

theorem dotStates_of_turn {console : Console} {t : Turn} (h : console.turn = .ok t) :
    console.dotStates = t.dotStates := by
  simp only [dotStates, h]

theorem dotStates_of_fault {console : Console} {fault : Cpu.Fault}
    (h : console.turn = .error fault) : console.dotStates = [] := by
  simp only [dotStates, h]

theorem length_dotStates_of_turn {console : Console} {t : Turn} (h : console.turn = .ok t) :
    console.dotStates.length = 3 * t.cycles := by
  rw [dotStates_of_turn h, Turn.dotStates, List.length_map, List.length_range]
  rfl

theorem step_video {console : Console} {t : Turn} (h : console.turn = .ok t) (probes : Probes) :
    (console.step probes).2.bus.ppu = (t.videoAfter Probes.none t.dots).ppu ∧
      (console.step probes).2.bus.board = (t.videoAfter Probes.none t.dots).board := by
  rw [step_console, step_of_turn h]
  exact ⟨rfl, rfl⟩

theorem dot_board (probes : Probes) (video : Video) :
    (video.dot probes).board = video.board.observe (video.dot probes).ppu.position := by
  obtain ⟨ppu, board, nmiLatched, events⟩ := video
  simp only [Video.dot, Ppu.takeNmi_eq, ppu.tick_board board]
  rfl

theorem mem_dotStates {t : Turn} {d : Video} :
    d ∈ t.dotStates ↔ ∃ j < t.dots, t.videoAfter Probes.none (j + 1) = d := by
  simp [Turn.dotStates]

theorem Turn.sweeps (t : Turn) (n : Nat) :
    Raster.Sweeps t.bus.ppu.raster
      ((List.range n).map fun k => (t.videoAfter Probes.none (k + 1)).ppu.raster)
      (t.videoAfter Probes.none n).ppu.raster := by
  induction n with
  | zero => rfl
  | succ n ih =>
    rw [List.range_succ, List.map_append]
    exact ih.append ⟨⟨_, (t.videoAfter_dotted Probes.none n).raster⟩, rfl⟩

theorem sweeps_step (probes : Probes) (console : Console) :
    Raster.Sweeps console.bus.ppu.raster (console.dotStates.map (·.ppu.raster))
      (console.step probes).2.bus.ppu.raster := by
  cases hTurn : console.turn with
  | ok t =>
    have hSweeps := t.sweeps t.dots
    rw [turn_raster hTurn] at hSweeps
    rw [(step_video hTurn probes).1, dotStates_of_turn hTurn, Turn.dotStates, List.map_map]
    exact hSweeps
  | error fault =>
    rw [dotStates_of_fault hTurn]
    exact (faulted_of_turn hTurn probes).bus.raster

theorem sweeps_run (probes : Probes) (start : Console) (n : Nat) :
    Raster.Sweeps start.bus.ppu.raster
      (((history probes start n).flatMap dotStates).map (·.ppu.raster))
      (after probes start n).bus.ppu.raster := by
  induction n with
  | zero => rfl
  | succ n ih =>
    rw [history_succ, List.flatMap_append, List.flatMap_singleton, List.map_append]
    exact ih.append (sweeps_step probes _)

theorem clock_turn {console : Console} {t : Turn} (h : console.turn = .ok t) (probes : Probes) :
    console.bus.ppu.raster.clock + 3 * t.cycles ≤
      (console.step probes).2.bus.ppu.raster.clock := by
  have hSweeps := (sweeps_step probes console).length_le
  rwa [List.length_map, length_dotStates_of_turn h] at hSweeps

theorem clock_step {probes : Probes} {console : Console} {quantum : Quantum}
    (h : (console.step probes).1 = .ok quantum) :
    console.bus.ppu.raster.clock + 3 ≤ (console.step probes).2.bus.ppu.raster.clock := by
  cases hTurn : console.turn with
  | error fault =>
    rw [(step_of_fault hTurn probes).2.2] at h
    cases h
  | ok t =>
    have hClock := clock_turn hTurn probes
    have hCycles := (turn_cycles hTurn).1
    omega

theorem clock_run {probes : Probes} {start : Console} {n : Nat}
    (h : ∀ i < n, ∃ quantum, ((after probes start i).step probes).1 = .ok quantum) :
    start.bus.ppu.raster.clock + 3 * n ≤ (after probes start n).bus.ppu.raster.clock := by
  induction n with
  | zero => exact Nat.le_refl _
  | succ n ih =>
    have hBefore := ih fun i hi => h i (Nat.lt_succ_of_lt hi)
    obtain ⟨quantum, hOk⟩ := h n (Nat.lt_succ_self n)
    have hStep := clock_step hOk
    show _ ≤ ((after probes start n).step probes).2.bus.ppu.raster.clock
    omega

theorem counts_position_iff (ppu : Ppu) :
    Mmc3.Counts ppu.position ↔ ppu.mask.rendering = true ∧ ppu.raster.onLineDot = true := by
  rw [Raster.onLineDot_iff]
  exact and_left_comm

/-- What each dot of a step preserves, given that the dot is as it should be, holds at all its dots
and after it, once it holds after the writes of the processor. -/
theorem step_preserves {P : Raster → Mapper → Prop} {good : Video → Prop}
    (hDot : ∀ video : Video, P video.ppu.raster video.board.mapper → good (video.dot Probes.none) →
      P (video.dot Probes.none).ppu.raster (video.dot Probes.none).board.mapper)
    (probes : Probes) {console : Console}
    (h : P console.bus.ppu.raster (console.bus.board.mapper.writeAll console.mapperWrites))
    (hGood : ∀ d ∈ console.dotStates, good d) :
    (∀ d ∈ console.dotStates, P d.ppu.raster d.board.mapper) ∧
      P (console.step probes).2.bus.ppu.raster (console.step probes).2.bus.board.mapper := by
  cases hTurn : console.turn with
  | ok t =>
    rw [dotStates_of_turn hTurn] at hGood ⊢
    rw [← turn_mapper hTurn, ← turn_raster hTurn] at h
    have hDots (j : Nat) (hj : j ≤ t.dots) : P (t.videoAfter Probes.none j).ppu.raster
        (t.videoAfter Probes.none j).board.mapper := by
      induction j with
      | zero => exact h
      | succ j ih =>
        have hNext := hGood _ (mem_dotStates.2 ⟨j, hj, rfl⟩)
        rw [Turn.videoAfter_succ] at hNext ⊢
        exact hDot _ (ih (Nat.le_of_succ_le hj)) hNext
    obtain ⟨hPpu, hBoard⟩ := step_video hTurn probes
    rw [hPpu, hBoard]
    refine ⟨fun d hd => ?_, hDots t.dots (Nat.le_refl _)⟩
    obtain ⟨j, hj, rfl⟩ := mem_dotStates.1 hd
    exact hDots (j + 1) hj
  | error fault =>
    rw [dotStates_of_fault hTurn, (faulted_of_turn hTurn probes).bus.raster,
      fault_mapper hTurn probes]
    exact ⟨List.forall_mem_nil _, h⟩

/-! ### Counted lines -/

theorem observe_off (chip : Mmc3) {ppu : Ppu} (h : ppu.raster.onLineDot = false) :
    chip.observe ppu.position = chip := by
  refine if_neg fun hClocks => ?_
  have hCounts := (counts_position_iff ppu).1 ((Mmc3.clocksAt_iff _).1 hClocks)
  rw [h] at hCounts
  exact Bool.false_ne_true hCounts.2

theorem dot_mmc3 (probes : Probes) {video : Video} {chip : Mmc3}
    (h : video.board.mapper = .mmc3 chip) :
    (video.dot probes).board.mapper = .mmc3 (chip.observe (video.dot probes).ppu.position) := by
  rw [dot_board, Board.observe, h, Mapper.observe]

/-- The counter was programmed with `n` after the visible lines of a frame, and has since seen all
the lines that the beam passed. -/
structure Counting (frame : Nat) (n : UInt8) (raster : Raster) (mapper : Mapper) : Prop where
  since : 241 * frame + 240 ≤ raster.lines
  chip : ∃ chip, mapper = .mmc3 chip ∧ chip.Free n.toNat (raster.lines - (241 * frame + 240))

theorem Counting.dot {frame : Nat} {n : UInt8} {video : Video} {probes : Probes}
    (h : Counting frame n video.ppu.raster video.board.mapper)
    (hOn : (video.dot probes).ppu.mask.rendering = true) :
    Counting frame n (video.dot probes).ppu.raster (video.dot probes).board.mapper := by
  obtain ⟨hSince, chip, hMapper, hFree⟩ := h
  have hLines := video.ppu.raster.lines_advance video.ppu.mask.rendering
  rw [← (dot_dotted probes video).raster] at hLines
  have hObserve := dot_mmc3 probes hMapper
  cases hHere : (video.dot probes).ppu.raster.onLineDot with
  | true =>
    have hCounts := (counts_position_iff (video.dot probes).ppu).2 ⟨hOn, hHere⟩
    have hClock : chip.observe (video.dot probes).ppu.position = chip.clock :=
      if_pos ((Mmc3.clocksAt_iff _).2 hCounts)
    rw [hHere, Bool.toNat_true] at hLines
    refine ⟨by omega, chip.clock, hClock ▸ hObserve, ?_⟩
    rw [hLines, Nat.sub_add_comm hSince]
    exact hFree.clock
  | false =>
    rw [hHere, Bool.toNat_false, Nat.add_zero] at hLines
    refine ⟨by omega, chip, observe_off chip hHere ▸ hObserve, ?_⟩
    rwa [hLines]

theorem Counting.irq_iff {frame : Nat} {n : UInt8} {raster : Raster} {mapper : Mapper}
    (h : Counting frame n raster mapper) (hPos : 1 ≤ n.toNat) (hLast : n.toNat ≤ 240) :
    mapper.irq = true ↔ 89342 * (frame + 1) + (341 * (n.toNat - 1) + 280) ≤ raster.clock := by
  obtain ⟨hSince, chip, rfl, hFree⟩ := h
  rw [← raster.le_lines_iff (frame + 1) hPos hLast]
  refine hFree.irqPending.trans ?_
  omega

/-! ### Programming between two pictures -/

/-- In the first steps of a run, up to the last given one, the processor programs the counter with
`n` while the beam is between the visible lines and the pre-render line of a frame; in the steps
after them it leaves the mapper alone, and rendering stays on. -/
structure ProgramsInBlank (probes : Probes) (start : Console) (frame : Nat) (n : UInt8)
    (last total : Nat) : Prop where
  chip : ∃ chip, start.bus.board.mapper = .mmc3 chip
  irq : start.bus.board.irq = false
  blank : ∀ i ≤ last, (after probes start i).bus.ppu.raster.frames = frame ∧
    240 ≤ (after probes start i).bus.ppu.raster.scanline.val ∧
    (after probes start i).bus.ppu.raster.scanline.val ≤ 260
  programs : Mmc3.Programs n ((history probes start (last + 1)).flatMap mapperWrites)
  undisturbed : ∀ i, last < i → i < total → (after probes start i).mapperWrites = []
  rendered : ∀ i, last ≤ i → i < total →
    ∀ d ∈ (after probes start i).dotStates, d.ppu.mask.rendering = true

theorem writeAll_history {probes : Probes} {start : Console} {i : Nat}
    (h : (after probes start i).bus.board.mapper =
      start.bus.board.mapper.writeAll ((history probes start i).flatMap mapperWrites)) :
    (after probes start i).bus.board.mapper.writeAll (after probes start i).mapperWrites =
      start.bus.board.mapper.writeAll ((history probes start (i + 1)).flatMap mapperWrites) := by
  rw [h, history_succ, List.flatMap_append, List.flatMap_singleton, Mapper.writeAll_append]

section Programmed

variable {probes : Probes} {start : Console} {frame last total : Nat} {n : UInt8}
  (h : ProgramsInBlank probes start frame n last total)

include h

theorem ProgramsInBlank.pending :
    ∃ chip, start.bus.board.mapper = .mmc3 chip ∧ chip.irqPending = false := by
  obtain ⟨chip, hChip⟩ := h.chip
  have hIrq := h.irq
  rw [Board.irq, hChip] at hIrq
  exact ⟨chip, hChip, hIrq⟩

theorem ProgramsInBlank.lines {i : Nat} (hi : i ≤ last) :
    (after probes start i).bus.ppu.raster.lines = 241 * frame + 240 := by
  obtain ⟨hFrame, hFirst, hEnd⟩ := h.blank i hi
  rw [Raster.lines_of_blank hFirst hEnd, hFrame]

theorem ProgramsInBlank.clock {i : Nat} (hi : i ≤ last) :
    89342 * (frame + 1) ≤ (after probes start i).bus.ppu.raster.clock + 7502 ∧
      (after probes start i).bus.ppu.raster.clock < 89342 * (frame + 1) := by
  have hPlace := (after probes start i).bus.ppu.raster.place_lt_frameDots
  obtain ⟨hFrame, hFirst, -⟩ := h.blank i hi
  unfold Raster.clock
  unfold Raster.frameDots at hPlace ⊢
  unfold Raster.place at hPlace ⊢
  rw [hFrame]
  omega

theorem ProgramsInBlank.off {i : Nat} (hi : i < last) :
    ∀ d ∈ (after probes start i).dotStates, d.ppu.raster.onLineDot = false := by
  have hSweeps := sweeps_step probes (after probes start i)
  have hCount := hSweeps.countP Raster.lines Raster.onLineDot Raster.lines_advance
  have hNext := h.lines hi
  -- the step starts and ends in the blank of one frame, so the count of lines has not moved
  rw [h.lines (Nat.le_of_lt hi)] at hCount
  have hNone := List.countP_eq_zero.1 (Nat.add_left_cancel (hCount.trans hNext))
  intro d hd
  exact Bool.eq_false_iff.2 (hNone _ (List.mem_map_of_mem hd))

theorem ProgramsInBlank.kept {i : Nat} (hi : i < last) {chip : Mmc3}
    (hMapper : (after probes start i).bus.board.mapper.writeAll
      (after probes start i).mapperWrites = .mmc3 chip) :
    (∀ d ∈ (after probes start i).dotStates, d.board.mapper = .mmc3 chip) ∧
      (after probes start (i + 1)).bus.board.mapper = .mmc3 chip := by
  refine step_preserves (P := fun _ m => m = .mmc3 chip) ?_ probes hMapper (h.off hi)
  intro video hVideo hOff
  rw [dot_mmc3 Probes.none hVideo, observe_off chip hOff]

theorem ProgramsInBlank.mapper {i : Nat} (hi : i ≤ last) :
    (after probes start i).bus.board.mapper =
      start.bus.board.mapper.writeAll ((history probes start i).flatMap mapperWrites) := by
  obtain ⟨chip, hChip⟩ := h.chip
  induction i with
  | zero => rfl
  | succ i ih =>
    have hWritten := writeAll_history (ih (Nat.le_of_succ_le hi))
    rw [hChip, Mapper.writeAll_mmc3] at hWritten ⊢
    exact (h.kept hi hWritten).2

theorem ProgramsInBlank.irq_down {i : Nat} (hi : i < last) :
    ∀ d ∈ (after probes start i).dotStates, d.board.irq = false := by
  obtain ⟨chip, hChip, hPending⟩ := h.pending
  have hWritten := writeAll_history (h.mapper (Nat.le_of_lt hi))
  rw [hChip, Mapper.writeAll_mmc3] at hWritten
  intro d hd
  rw [Board.irq, (h.kept hi hWritten).1 d hd]
  exact Mmc3.irqPending_storeAll hPending _

theorem ProgramsInBlank.counting {i : Nat} (hLast : last ≤ i) (hTotal : i < total) :
    Counting frame n (after probes start i).bus.ppu.raster
      ((after probes start i).bus.board.mapper.writeAll (after probes start i).mapperWrites) := by
  induction i, hLast using Nat.le_induction with
  | base =>
    obtain ⟨chip, hChip, hPending⟩ := h.pending
    have hArmed := Mmc3.armed_of_programs hPending h.programs
    have hLines := h.lines (Nat.le_refl last)
    have hWritten := writeAll_history (h.mapper (Nat.le_refl last))
    rw [hChip, Mapper.writeAll_mmc3] at hWritten
    refine ⟨Nat.le_of_eq hLines.symm, _, hWritten, ?_⟩
    rw [hLines, Nat.sub_self]
    exact hArmed.free
  | succ i hi ih =>
    have hBefore := ih (Nat.lt_of_succ_lt hTotal)
    have hOn := h.rendered i hi (Nat.lt_of_succ_lt hTotal)
    rw [h.undisturbed (i + 1) (Nat.lt_succ_of_le hi) hTotal]
    exact (step_preserves (fun _ hVideo hLit => hVideo.dot hLit) probes hBefore hOn).2

theorem ProgramsInBlank.irq_iff (hPos : 1 ≤ n.toNat) (hMost : n.toNat ≤ 240) :
    ∀ d ∈ (history probes start total).flatMap dotStates, d.board.irq = true ↔
      89342 * (frame + 1) + (341 * (n.toNat - 1) + 280) ≤ d.ppu.raster.clock := by
  intro d hd
  obtain ⟨console, hConsole, hDot⟩ := List.mem_flatMap.1 hd
  obtain ⟨i, hi, rfl⟩ := List.mem_map.1 hConsole
  rw [List.mem_range] at hi
  by_cases hLast : last ≤ i
  · have hOn := h.rendered i hLast hi
    have hCounting := (step_preserves (fun _ hVideo hLit => hVideo.dot hLit) probes
      (h.counting hLast hi) hOn).1 d hDot
    exact hCounting.irq_iff hPos hMost
  · -- before the last write the beam has not left the frame, and no line has counted
    have hEarly : i < last := Nat.not_le.1 hLast
    have hSweeps := sweeps_step probes (after probes start i)
    have hClock := (hSweeps.clock_le.2 _ (List.mem_map_of_mem hDot)).2
    have hBefore : d.ppu.raster.clock ≤ (after probes start (i + 1)).bus.ppu.raster.clock := hClock
    have hBelow := (h.clock (i := i + 1) hEarly).2
    rw [h.irq_down hEarly d hDot]
    refine ⟨fun hUp => absurd hUp Bool.false_ne_true, fun hLate => ?_⟩
    omega

theorem ProgramsInBlank.first_rise (hPos : 1 ≤ n.toNat) (hMost : n.toNat ≤ 240)
    (hReached : 89342 * (frame + 1) + (341 * (n.toNat - 1) + 280) ≤
      (after probes start total).bus.ppu.raster.clock) :
    ∃ before d later, (history probes start total).flatMap dotStates = before ++ d :: later ∧
      (∀ e ∈ before, e.board.irq = false) ∧ d.board.irq = true ∧
      d.ppu.raster.frames = frame + 1 ∧ d.ppu.raster.scanline.val = n.toNat - 1 ∧
      d.ppu.raster.dot.val = 280 := by
  have hIrq := h.irq_iff hPos hMost
  have hStart := (h.clock (Nat.zero_le last)).2
  -- the beam cannot jump over the rise: a dropped dot is the last one of its frame
  obtain ⟨before, r, later, hSplit, hFrame, hPlace, hBefore⟩ :=
    (sweeps_run probes start total).exists_at (by omega) (by omega)
      (Nat.lt_of_lt_of_le hStart (Nat.le_add_right _ _)) hReached
  obtain ⟨dots, rest, hDots, rfl, hRest⟩ := List.map_eq_append_iff.1 hSplit
  obtain ⟨d, tail, rfl, rfl, -⟩ := List.map_eq_cons_iff.1 hRest
  rw [hDots] at hIrq
  refine ⟨dots, d, tail, hDots, fun e he => ?_, ?_, hFrame, ?_⟩
  · have hEarly := hBefore _ (List.mem_map_of_mem he)
    refine Bool.eq_false_iff.2 fun hUp => ?_
    exact Nat.not_le.2 hEarly ((hIrq e (List.mem_append_left _ he)).1 hUp)
  · refine (hIrq d (List.mem_append_right _ List.mem_cons_self)).2 ?_
    unfold Raster.clock Raster.frameDots
    rw [hFrame, hPlace]
  · have hDot := d.ppu.raster.dot_lt
    unfold Raster.place at hPlace
    omega

theorem ProgramsInBlank.reached (hMost : n.toNat ≤ 240)
    (hOk : ∀ i < total, ∃ quantum, ((after probes start i).step probes).1 = .ok quantum)
    (hLong : 89342 ≤ 3 * total) :
    89342 * (frame + 1) + (341 * (n.toNat - 1) + 280) ≤
      (after probes start total).bus.ppu.raster.clock := by
  have hStart : 89342 * (frame + 1) ≤ start.bus.ppu.raster.clock + 7502 :=
    (h.clock (Nat.zero_le last)).1
  have hPlace : 341 * (n.toNat - 1) + 280 ≤ 81840 := by omega
  calc 89342 * (frame + 1) + (341 * (n.toNat - 1) + 280)
      ≤ start.bus.ppu.raster.clock + 7502 + 81840 := Nat.add_le_add hStart hPlace
    _ = start.bus.ppu.raster.clock + 89342 := Nat.add_assoc _ 7502 81840
    _ ≤ start.bus.ppu.raster.clock + 3 * total := Nat.add_le_add_left hLong _
    _ ≤ (after probes start total).bus.ppu.raster.clock := clock_run hOk

end Programmed

theorem irqLine_step {probes : Probes} {console : Console} {quantum : Quantum}
    (h : (console.step probes).1 = .ok quantum) :
    (console.step probes).2.cpu.irqLine = (console.step probes).2.bus.board.irq := by
  cases hTurn : console.turn with
  | ok t =>
    rw [step_of_turn hTurn]
    rfl
  | error fault =>
    rw [(step_of_fault hTurn probes).2.2] at h
    cases h

/-- On a board: programmed with `n`, in any order of the writes and with no interrupt pending, the
line is up exactly when `n + 1` lines have counted, as long as no register is written; and where
each rise is answered before the next line counts, the rises are at the lines whose number is a
multiple of `n + 1`.  A line that is up stays up until it is acknowledged.

In the console: a frame rendered throughout counts 241 lines.  Programmed with `n` from 1 to 240
while the beam is below the picture, and left alone with rendering on from then on, the line is
first up on dot 280 of visible line `n - 1` of the next frame, which every run reaches whose steps
succeed.  After each step that succeeds the processor sees the line of the board. -/
theorem line_counter_interrupts :
    (∀ (board : Board) (chip : Mmc3) (n : UInt8) (writes : List RegisterWrite),
      board.mapper = .mmc3 chip → board.irq = false → Mmc3.Programs n writes →
      let programmed := board.performAll (writes.map RegisterWrite.operation)
      (∀ positions : List Ppu.Position,
        (programmed.performAll (positions.map .observe)).irq = true ↔
          n.toNat + 1 ≤ positions.countP fun p => Mmc3.Counts p) ∧
      ∀ operations : List Board.Operation,
        (∀ o ∈ operations, o.port? ≠ some .latch ∧ o.port? ≠ some .reload) →
        programmed.Answers operations →
        ∀ before o later, operations = before ++ o :: later →
          ((programmed.performAll before).Rises o ↔
            o.counts = true ∧ n.toNat + 1 ∣ before.countP Board.Operation.counts + 1)) ∧
    (∀ (board : Board) (chip : Mmc3), board.mapper = .mmc3 chip → board.irq = true →
      (∀ operations : List Board.Operation, (∀ o ∈ operations, o.port? ≠ some .acknowledge) →
        (board.performAll operations).irq = true) ∧
      ∀ o : Board.Operation, o.port? = some .acknowledge → (board.perform o).irq = false) ∧
    (∀ (probes : Probes) (start : Console) (total frame : Nat),
      let dots := (history probes start total).flatMap dotStates
      start.bus.ppu.raster.clock ≤ 89342 * frame →
      89342 * (frame + 1) ≤ (after probes start total).bus.ppu.raster.clock →
      (∀ d ∈ dots, d.ppu.raster.frames = frame → d.ppu.mask.rendering = true) →
      (dots.filter fun d => d.ppu.raster.frames = frame).countP
        (fun d => Mmc3.Counts d.ppu.position) = 241) ∧
    (∀ (probes : Probes) (start : Console) (frame last total : Nat) (n : UInt8),
      let dots := (history probes start total).flatMap dotStates
      let final := (after probes start total).bus.ppu.raster.clock
      let rise := 89342 * (frame + 1) + (341 * (n.toNat - 1) + 280)
      ProgramsInBlank probes start frame n last total → 1 ≤ n.toNat → n.toNat ≤ 240 →
      (∀ d ∈ dots, d.board.irq = true ↔ rise ≤ d.ppu.raster.clock) ∧
      (rise ≤ final → ∃ before d later, dots = before ++ d :: later ∧
        (∀ e ∈ before, e.board.irq = false) ∧ d.board.irq = true ∧
        d.ppu.raster.frames = frame + 1 ∧ d.ppu.raster.scanline.val = n.toNat - 1 ∧
        d.ppu.raster.dot.val = 280) ∧
      ((∀ i < total, ∃ quantum, ((after probes start i).step probes).1 = .ok quantum) →
        89342 ≤ 3 * total → rise ≤ final)) ∧
    ∀ (probes : Probes) (console : Console) (quantum : Quantum),
      (console.step probes).1 = .ok quantum →
        (console.step probes).2.cpu.irqLine = (console.step probes).2.bus.board.irq := by
  refine ⟨?_, fun board chip => Board.irq_until_acknowledged, ?_, ?_,
    fun probes console quantum => irqLine_step⟩
  · intro board chip n writes hMapper hIrq hWrites programmed
    refine ⟨Board.irq_iff_of_programs hMapper hIrq hWrites, ?_⟩
    intro operations hKept hAnswers before o later hSplit
    obtain ⟨armed, hArmed, hProgrammed⟩ := Board.armed_of_programs hMapper hIrq hWrites
    exact Board.rises_iff_dvd hProgrammed hArmed hAnswers hKept hSplit
  · intro probes start total frame dots hFirst hLast hOn
    have hCount := (sweeps_run probes start total).countP_frame hFirst hLast
    rw [List.countP_map] at hCount
    rw [List.countP_filter, ← hCount]
    refine List.countP_congr fun d hd => ?_
    simp only [Bool.and_eq_true, decide_eq_true_eq, counts_position_iff, Function.comp_apply,
      beq_iff_eq]
    exact ⟨fun h => ⟨h.1.2, h.2⟩, fun h => ⟨⟨hOn d hd h.2, h.1⟩, h.2⟩⟩
  · intro probes start frame last total n dots final rise hPrograms hPos hMost
    exact ⟨hPrograms.irq_iff hPos hMost, hPrograms.first_rise hPos hMost, hPrograms.reached hMost⟩

/-- A console below the picture, about to program the counter with one line and then to transfer
sprites. -/
def belowPicture : Console :=
  let power := powerOn ⟨#[0x8D, 0x00, 0xC0, 0x8D, 0x01, 0xC0, 0x8D, 0x01, 0xE0, 0x8D, 0x14, 0x40],
    #[], .mmc3, .vertical, false, none, by decide⟩
  { power with
    cpu := { power.cpu with registers := { power.cpu.registers with a := 1, pc := 0xE00C } }
    bus := { power.bus with
      ppu := { power.bus.ppu with
        mask := ⟨0x08⟩
        raster := ⟨⟨260, by decide⟩, ⟨100, by decide⟩, 7, true⟩ } } }

theorem rendering_of_turn {console : Console}
    (h : (console.turn.toOption.map fun t => t.bus.ppu.mask.rendering) = some true) :
    ∀ d ∈ console.dotStates, d.ppu.mask.rendering = true := by
  cases hTurn : console.turn with
  | error fault =>
    rw [hTurn] at h
    cases h
  | ok t =>
    rw [hTurn] at h
    intro d hd
    rw [dotStates_of_turn hTurn] at hd
    obtain ⟨j, -, rfl⟩ := mem_dotStates.1 hd
    rw [(t.sameSetup Probes.none (j + 1)).mask]
    exact Option.some.inj h

theorem programsInBlank_belowPicture : ProgramsInBlank Probes.none belowPicture 7 1 2 5 where
  chip := ⟨.powerOn, rfl⟩
  irq := rfl
  blank i hi := by
    obtain rfl | rfl | rfl : i = 0 ∨ i = 1 ∨ i = 2 := by omega
    all_goals decide +kernel
  programs := by
    have hWrites : (history Probes.none belowPicture (2 + 1)).flatMap mapperWrites =
        [⟨0xC000, 1⟩, ⟨0xC001, 1⟩, ⟨0xE001, 1⟩] := by decide +kernel
    rw [hWrites]
    exact ⟨_, _, _, by decide, rfl, by decide, by decide, .refl _⟩
  undisturbed i hLast hTotal := by
    obtain rfl | rfl : i = 3 ∨ i = 4 := by omega
    all_goals decide +kernel
  rendered i hLast hTotal := by
    obtain rfl | rfl | rfl : i = 2 ∨ i = 3 ∨ i = 4 := by omega
    all_goals exact rendering_of_turn (by decide +kernel)

theorem answers_at_once {board : Board} {chip : Mmc3} (hMapper : board.mapper = .mmc3 chip)
    (p q : Ppu.Position) :
    board.Answers [.observe p, .write 0xE000 0, .write 0xE001 0, .observe q] := by
  refine Board.AllAnswered.answers hMapper ⟨?_, nofun, nofun, ?_, nofun, ?_, ?_, nofun, trivial⟩
  · exact fun _ => ⟨rfl, .inl rfl⟩
  · exact fun _ => ⟨rfl, .inl rfl⟩
  · exact fun hPort => absurd hPort (by decide)
  · exact fun _ => trivial

/-- With a latch of zero every line raises the interrupt; with a latch of one the first line of the
next picture does, in the midst of a transfer. -/
theorem line_counter_interrupts_each_line_and_first_line :
    let first : Board.Operation := .observe ⟨5, 280, true⟩
    let second : Board.Operation := .observe ⟨261, 280, true⟩
    let programmed := belowPicture.bus.board.performAll
      [.write 0xE001 0, .write 0xC001 0, .write 0xC000 0]
    (programmed.performAll []).Rises first ∧
      (programmed.performAll [first, .write 0xE000 0, .write 0xE001 0]).Rises second ∧
      ∃ before d later,
        (history Probes.none belowPicture 5).flatMap dotStates = before ++ d :: later ∧
          (∀ e ∈ before, e.board.irq = false) ∧ d.board.irq = true ∧
          d.ppu.raster.frames = 8 ∧ d.ppu.raster.scanline.val = 0 ∧ d.ppu.raster.dot.val = 280 := by
  intro first second programmed
  obtain ⟨hBoard, -, -, hConsole, -⟩ := line_counter_interrupts
  obtain ⟨-, hRises⟩ := hBoard belowPicture.bus.board .powerOn 0
    [⟨0xE001, 0⟩, ⟨0xC001, 0⟩, ⟨0xC000, 0⟩] rfl rfl
    ⟨⟨0xC000, 0⟩, ⟨0xC001, 0⟩, ⟨0xE001, 0⟩, by decide, rfl, by decide, by decide, by decide⟩
  have hEach := hRises [first, .write 0xE000 0, .write 0xE001 0, second] (by decide)
    (answers_at_once rfl ⟨5, 280, true⟩ ⟨261, 280, true⟩)
  obtain ⟨-, hFirst, -⟩ := hConsole Probes.none belowPicture 7 2 5 1 programsInBlank_belowPicture
    (by decide) (by decide)
  refine ⟨(hEach [] first _ rfl).2 (by decide), (hEach [first, _, _] second [] rfl).2 (by decide),
    hFirst ?_⟩
  have hPage : (after Probes.none belowPicture 4).bus.dmaPage = some 1 := by decide +kernel
  have hCycles : dmaCost (after Probes.none belowPicture 4).totalCycles = 513 := by decide +kernel
  have hClock : (after Probes.none belowPicture 4).bus.ppu.raster.clock = 714202 := by
    decide +kernel
  have hTurn : (after Probes.none belowPicture 4).turn =
      .ok ((after Probes.none belowPicture 4).transferTurn 1) := by simp only [turn, hPage]
  have hNext : after Probes.none belowPicture 5 =
      ((after Probes.none belowPicture 4).step Probes.none).2 := rfl
  have hEnd := clock_turn hTurn Probes.none
  rw [transferTurn, hCycles, hClock, ← hNext] at hEnd
  have hRise : 89342 * (7 + 1) + (341 * ((1 : UInt8).toNat - 1) + 280) ≤ 714202 + 3 * 513 := by
    decide
  exact Nat.le_trans hRise hEnd

end Console

end Famicom

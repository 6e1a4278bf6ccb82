import Famicom.Proofs.Console.Run
import Famicom.Proofs.Ppu.Pace
import Mathlib.Algebra.GroupWithZero.Nat

/-!
# Lockstep

Four counters of the console are tied together over every run from a reset: the cycles of the
console, those of the processor, the place of the beam and the frames shown.  A step keeps the
tie, whether it is a transfer, an interrupt entry or an instruction; a step that faults counts
nowhere.
-/

namespace Famicom.Console

/-! ### The dots of a turn -/

theorem Turn.paced {origin : Nat} {before : List Ppu} (t : Turn) (probes : Probes)
    (h : Ppu.Paced origin before t.bus.ppu.raster) (n : Nat) :
    Ppu.Paced origin (before ++ (List.range n).map fun i => (t.videoAfter probes i).ppu)
      (t.videoAfter probes n).ppu.raster := by
  induction n with
  | zero =>
    rw [List.range_zero, List.map_nil, List.append_nil]
    exact h
  | succ n ih =>
    rw [List.range_succ, List.map_append, ← List.append_assoc,
      (t.videoAfter_dotted probes n).raster]
    exact ih.tick

theorem Turn.frames_shown (t : Turn) (probes : Probes) (n : Nat) :
    (t.videoAfter probes n).events.toList.countP Event.isFrame + t.bus.ppu.raster.vblanks =
      t.events.toList.countP Event.isFrame + (t.videoAfter probes n).ppu.raster.vblanks := by
  induction n with
  | zero =>
    have hNote := countP_note t.events probes.cpu fun _ => .cpu t.cpu
    simp only [Event.isFrame, Bool.and_false, Bool.toNat_false, Nat.add_zero] at hNote
    rw [← hNote]
    rfl
  | succ n ih =>
    have hDot := t.videoAfter_dotted probes n
    have hVblanks := (t.videoAfter probes n).ppu.raster.vblanks_advance
      (t.videoAfter probes n).ppu.mask.rendering
    rw [← hDot.raster] at hVblanks
    rw [hDot.frames, hVblanks]
    omega

/-! ### The steps of a run -/

/-- The counters of a console agree with the steps that led to it. -/
structure InStep (probes : Probes) (origin : Nat) (calls : List Console) (console : Console) :
    Prop where
  total : console.totalCycles = (calls.map (returned probes)).sum
  ticked : (calls.flatMap (ticks probes)).length = dotsPerCycle * console.totalCycles
  paced : Ppu.Paced origin (calls.flatMap (ticks probes)) console.bus.ppu.raster
  frames : origin + (calls.flatMap (shown probes)).countP Event.isFrame =
    console.bus.ppu.raster.vblanks
  cycles : console.cpu.cycles + ((calls.filter isTransfer).map (returned probes)).sum =
    Cpu.interruptCycles + console.totalCycles

theorem inStep_fresh {console : Console} (h : console.Fresh) (probes : Probes) :
    InStep probes console.bus.ppu.raster.frames [] console where
  total := h.totalCycles
  ticked := by simp [h.totalCycles]
  paced := Ppu.paced_start h.place h.odd
  frames := by simp [Ppu.Raster.vblanks, Ppu.Raster.vblankPlace, h.place]
  cycles := by simp [h.cycles, h.totalCycles]

theorem turn_counted {console : Console} {t : Turn} (h : console.turn = .ok t) :
    t.cpu.cycles + (if console.isTransfer then t.cycles else 0) =
      console.cpu.cycles + t.cycles := by
  rcases turn_cases h with ⟨page, hPage, rfl⟩ | ⟨hPage, -, hRun⟩
  · have hTransfer := isTransfer_of_some hPage
    rw [if_pos hTransfer]
    rfl
  · have hTransfer := isTransfer_of_none hPage
    have hCounted := (Cpu.costs_of_step (congrArg Prod.fst hRun)).counted
    rw [hTransfer, hCounted]
    simp

theorem turn_shows_no_frame {console : Console} {t : Turn} (h : console.turn = .ok t) :
    t.events.toList.countP Event.isFrame = 0 := by
  rcases turn_cases h with ⟨page, -, rfl⟩ | ⟨-, hEvents, -⟩
  · rfl
  · rw [hEvents]
    rfl

theorem InStep.step {probes : Probes} {origin : Nat} {calls : List Console} {console : Console}
    (h : InStep probes origin calls console) :
    InStep probes origin (calls ++ [console]) (console.step probes).2 := by
  have hTotal := h.total
  have hTicked := h.ticked
  have hFrames := h.frames
  have hCycles := h.cycles
  cases hTurn : console.turn with
  | error fault =>
    have hFault := faulted_of_turn hTurn probes
    refine ⟨?_, ?_, ?_, ?_, ?_⟩
    · simpa [hFault.returned, hFault.totalCycles] using hTotal
    · simpa [hFault.ticks, hFault.totalCycles] using hTicked
    · rw [hFault.bus.raster]
      simpa [hFault.ticks] using h.paced
    · rw [hFault.bus.raster]
      simpa [hFault.shown] using hFrames
    · have hNot := isTransfer_of_none hFault.request
      simpa [hFault.cpu, hFault.totalCycles, hNot] using hCycles
  | ok t =>
    have hStep := step_of_turn hTurn probes
    have hReturned := returned_of_turn hTurn probes
    have hShown := shown_of_turn hTurn probes
    have hTicks := ticks_of_turn hTurn probes
    have hRaster := turn_raster hTurn
    rw [hStep]
    refine ⟨?_, ?_, ?_, ?_, ?_⟩
    · show console.totalCycles + t.cycles = _
      simp [hReturned, hTotal]
    · show _ = dotsPerCycle * (console.totalCycles + t.cycles)
      simp [hTicks, hTicked, Turn.dots, Nat.mul_add]
    · have hPaced := h.paced
      rw [← hRaster] at hPaced
      have hEnd := t.paced probes hPaced t.dots
      rw [← hTicks] at hEnd
      rw [List.flatMap_append, List.flatMap_singleton]
      exact hEnd
    · show _ = (t.videoEnd probes).ppu.raster.vblanks
      have hDots := t.frames_shown probes t.dots
      rw [turn_shows_no_frame hTurn, hRaster] at hDots
      rw [List.flatMap_append, List.countP_append, List.flatMap_singleton, hShown]
      unfold Turn.videoEnd
      omega
    · show t.cpu.cycles + _ = Cpu.interruptCycles + (console.totalCycles + t.cycles)
      have hCounted := turn_counted hTurn
      rw [List.filter_append, List.map_append, List.sum_append]
      cases hTransfer : console.isTransfer with
      | true =>
        simp only [hTransfer, ↓reduceIte] at hCounted
        simp only [List.filter_cons, hTransfer, ↓reduceIte, List.filter_nil, List.map_cons,
          List.map_nil, List.sum_cons, List.sum_nil, hReturned]
        omega
      | false =>
        simp only [hTransfer, Bool.false_eq_true, ↓reduceIte] at hCounted
        simp only [List.filter_cons, hTransfer, Bool.false_eq_true, ↓reduceIte, List.filter_nil,
          List.map_nil, List.sum_nil]
        omega

theorem inStep_run (probes : Probes) (start : Console) (h : start.Fresh) (n : Nat) :
    InStep probes start.bus.ppu.raster.frames (history probes start n) (after probes start n) := by
  induction n with
  | zero => exact inStep_fresh h probes
  | succ n ih =>
    rw [history_succ]
    exact ih.step

/-- Over every run from a reset, with `T` cycles, `F` frames completed since the reset, the beam
at line `s` and dot `d`, and `K` dots dropped: the cycles are those that the steps returned, three
ticks were made for each of them, and ticks and dropped dots together are the dots up to the
beam.  The dots dropped are those of the odd frames that were rendered when the beam left dot 339
of their pre-render line.  A frame was shown for each vertical blank begun, and the processor has
counted all cycles but those of transfers, from seven on. -/
theorem lockstep_timing (probes : Probes) (console : Console) (n : Nat) :
    let start := console.reset
    let final := after probes start n
    let calls := history probes start n
    let made := calls.flatMap (ticks probes)
    let origin := start.bus.ppu.raster.frames
    let T := final.totalCycles
    let F := final.bus.ppu.raster.frames - origin
    let s := final.bus.ppu.raster.scanline.val
    let d := final.bus.ppu.raster.dot.val
    let K := made.countP Ppu.skips
    T = (calls.map (returned probes)).sum ∧ made.length = 3 * T ∧
      origin ≤ final.bus.ppu.raster.frames ∧
      3 * T + K = 89342 * F + 341 * s + d ∧ s ≤ 261 ∧ d ≤ 340 ∧
      K ≤ F / 2 ∧ K = (Ppu.shortFrames origin made F).card ∧
      (calls.flatMap (shown probes)).countP Event.isFrame =
        F + (if 241 < s ∨ s = 241 ∧ 1 ≤ d then 1 else 0) ∧
      final.cpu.cycles + ((calls.filter isTransfer).map (returned probes)).sum = 7 + T := by
  intro start final calls made origin T F s d K
  have hRun : InStep probes origin calls final := inStep_run probes start (fresh_reset console) n
  have hTicked : made.length = 3 * T := hRun.ticked
  have hFirst : origin ≤ final.bus.ppu.raster.frames := hRun.paced.first
  have hLine := final.bus.ppu.raster.scanline_lt
  have hDot := final.bus.ppu.raster.dot_lt
  have hShort : K = (Ppu.shortFrames origin made F).card := hRun.paced.countP_skips
  refine ⟨hRun.total, hTicked, hFirst, ?_, by omega, by omega, ?_, hShort, ?_, hRun.cycles⟩
  · have hElapsed : 89342 * origin + made.length + K =
        89342 * final.bus.ppu.raster.frames + (341 * s + d) := hRun.paced.elapsed
    have hFrames : F = final.bus.ppu.raster.frames - origin := rfl
    omega
  · rw [hShort]
    exact Ppu.card_shortFrames_le origin made F
  · have hShown : origin + (calls.flatMap (shown probes)).countP Event.isFrame =
        final.bus.ppu.raster.frames + if 82182 ≤ 341 * s + d then 1 else 0 := hRun.frames
    have hFrames : F = final.bus.ppu.raster.frames - origin := rfl
    have hPast : (241 < s ∨ s = 241 ∧ 1 ≤ d) ↔ 82182 ≤ 341 * s + d := by omega
    rw [if_congr hPast rfl rfl]
    omega

end Famicom.Console

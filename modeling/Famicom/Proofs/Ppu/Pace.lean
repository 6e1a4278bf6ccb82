import Famicom.Proofs.Ppu.Dot
import Mathlib.Data.Finset.Card
import Mathlib.Data.Finset.Range

/-!
# The pace of the beam

A list of ticks, each given by the state it found, is tied to the beam behind them: every tick
takes one dot, and those that drop a dot take two.  The dropped dots are those of the odd frames
that were rendered where their last dots are decided.
-/

namespace Famicom.Ppu

def skips (ppu : Ppu) : Bool :=
  ppu.raster.skipsDot ppu.mask.rendering

/-- The tick leaves dot 339 of the pre-render line of a frame while rendering is on. -/
def leavesRendering (ppu : Ppu) (frame : Nat) : Bool :=
  ppu.raster.frames == frame && ppu.raster.isAt preRenderLine 339 && ppu.mask.rendering

/-- Of some frames, counted from `origin` on, the odd ones that rendering shortens. -/
def shortFrames (origin : Nat) (ticks : List Ppu) (frames : Nat) : Finset Nat :=
  (Finset.range frames).filter fun i =>
    i % 2 = 1 ∧ ∃ ppu ∈ ticks, ppu.leavesRendering (origin + i) = true

/-- The ticks since frame `origin` began have brought the beam where it is. -/
structure Paced (origin : Nat) (ticks : List Ppu) (r : Raster) : Prop where
  elapsed : Raster.frameDots * origin + ticks.length + ticks.countP skips = r.clock
  first : origin ≤ r.frames
  parity : r.odd = true ↔ (r.frames - origin) % 2 = 1
  past : ∀ ppu ∈ ticks, origin ≤ ppu.raster.frames ∧
    (ppu.raster.odd = true ↔ (ppu.raster.frames - origin) % 2 = 1)
  behind : ∀ ppu ∈ ticks, ppu.skips = true → ppu.raster.frames < r.frames
  distinct : ((ticks.filter skips).map fun ppu => ppu.raster.frames - origin).Nodup

theorem paced_start {r : Raster} (hPlace : r.place = 0) (hOdd : r.odd = false) :
    Paced r.frames [] r where
  elapsed := by simp [Raster.clock, hPlace]
  first := Nat.le_refl _
  parity := by simp [hOdd]
  past := by simp
  behind := by simp
  distinct := by simp

theorem Paced.tick {origin : Nat} {ticks : List Ppu} {ppu : Ppu}
    (h : Paced origin ticks ppu.raster) :
    Paced origin (ticks ++ [ppu]) (ppu.raster.advance ppu.mask.rendering) := by
  have hClock := ppu.raster.clock_advance ppu.mask.rendering
  have hElapsed := h.elapsed
  have hFirst := h.first
  have hParity := h.parity
  have hFrames : (ppu.raster.advance ppu.mask.rendering).frames = ppu.raster.frames ∨
      (ppu.raster.advance ppu.mask.rendering).frames = ppu.raster.frames + 1 := by
    rcases ppu.raster.advance_cases ppu.mask.rendering with ⟨-, hSame, -⟩ | ⟨-, hNext, -⟩
    · exact .inl hSame
    · exact .inr hNext
  refine ⟨?_, by omega, ?_, ?_, ?_, ?_⟩
  · rw [List.length_append, List.countP_append, hClock, ← hElapsed]
    cases hSkip : ppu.skips with
    | true =>
      have hSkip' : ppu.raster.skipsDot ppu.mask.rendering = true := hSkip
      simp [hSkip, hSkip']
      omega
    | false =>
      have hSkip' : ppu.raster.skipsDot ppu.mask.rendering = false := hSkip
      simp [hSkip, hSkip']
      omega
  · rcases ppu.raster.advance_cases ppu.mask.rendering with
      ⟨-, hSame, hOdd, -⟩ | ⟨-, hNext, hOdd, -⟩
    · rw [hSame, hOdd]
      exact hParity
    · rw [hNext, hOdd]
      cases hWas : ppu.raster.odd <;> simp only [hWas] at hParity <;> simp at hParity ⊢ <;> omega
  · intro t ht
    rcases List.mem_append.1 ht with hOld | hNew
    · exact h.past t hOld
    · rw [List.mem_singleton.1 hNew]
      exact ⟨hFirst, hParity⟩
  · intro t ht hSkip
    rcases List.mem_append.1 ht with hOld | hNew
    · have hBehind := h.behind t hOld hSkip
      omega
    · rw [List.mem_singleton.1 hNew] at hSkip ⊢
      rcases ppu.raster.advance_cases ppu.mask.rendering with ⟨hNo, -⟩ | ⟨-, hNext, -⟩
      · exact absurd (hNo.symm.trans hSkip) Bool.false_ne_true
      · omega
  · cases hSkip : ppu.skips with
    | false => simpa [hSkip] using h.distinct
    | true =>
      have hFresh : ppu.raster.frames - origin ∉
          (ticks.filter skips).map fun t => t.raster.frames - origin := by
        intro hMem
        obtain ⟨t, ht, hEq⟩ := List.mem_map.1 hMem
        obtain ⟨hOld, hOldSkip⟩ := List.mem_filter.1 ht
        have hBehind := h.behind t hOld hOldSkip
        have hPast := (h.past t hOld).1
        omega
      simp only [List.filter_append, List.map_append, List.filter_cons, hSkip, ↓reduceIte,
        List.filter_nil, List.map_cons, List.map_nil]
      exact List.nodup_append.2 ⟨h.distinct, by simp, by
        intro a ha b hb hab
        rw [List.mem_singleton.1 hb] at hab
        exact hFresh (hab ▸ ha)⟩

theorem skips_iff (ppu : Ppu) :
    ppu.skips = true ↔ ppu.raster.odd = true ∧ ppu.leavesRendering ppu.raster.frames = true := by
  simp only [skips, Raster.skipsDot, leavesRendering, beq_self_eq_true, Bool.true_and,
    Bool.and_eq_true]
  constructor
  · rintro ⟨⟨hOdd, hOn⟩, hAt⟩
    exact ⟨hOdd, hAt, hOn⟩
  · rintro ⟨hOdd, hAt, hOn⟩
    exact ⟨⟨hOdd, hOn⟩, hAt⟩

theorem frames_of_leavesRendering {ppu : Ppu} {frame : Nat}
    (h : ppu.leavesRendering frame = true) : ppu.raster.frames = frame := by
  simp only [leavesRendering, Bool.and_eq_true, beq_iff_eq] at h
  exact h.1.1

theorem Paced.countP_skips {origin : Nat} {ticks : List Ppu} {r : Raster}
    (h : Paced origin ticks r) :
    ticks.countP skips = (shortFrames origin ticks (r.frames - origin)).card := by
  let dropped := (ticks.filter skips).map fun ppu => ppu.raster.frames - origin
  have hLength : ticks.countP skips = dropped.length := by
    rw [List.countP_eq_length_filter, List.length_map]
  have hSame : dropped.toFinset = shortFrames origin ticks (r.frames - origin) := by
    ext i
    rw [List.mem_toFinset, shortFrames, Finset.mem_filter, Finset.mem_range, List.mem_map]
    constructor
    · rintro ⟨ppu, hMem, rfl⟩
      obtain ⟨hTick, hSkip⟩ := List.mem_filter.1 hMem
      obtain ⟨hPast, hParity⟩ := h.past ppu hTick
      obtain ⟨hOdd, hLeaves⟩ := ppu.skips_iff.1 hSkip
      have hBehind := h.behind ppu hTick hSkip
      refine ⟨by omega, hParity.1 hOdd, ppu, hTick, ?_⟩
      rw [show origin + (ppu.raster.frames - origin) = ppu.raster.frames by omega]
      exact hLeaves
    · rintro ⟨-, hOdd, ppu, hTick, hLeaves⟩
      have hFrame := frames_of_leavesRendering hLeaves
      have hIndex : ppu.raster.frames - origin = i := by omega
      refine ⟨ppu, List.mem_filter.2 ⟨hTick, ppu.skips_iff.2 ⟨?_, ?_⟩⟩, hIndex⟩
      · exact (h.past ppu hTick).2.2 (by rw [hIndex]; exact hOdd)
      · rw [hFrame]
        exact hLeaves
  rw [hLength, ← List.toFinset_card_of_nodup h.distinct, hSame]

theorem card_shortFrames_le (origin : Nat) (ticks : List Ppu) (frames : Nat) :
    (shortFrames origin ticks frames).card ≤ frames / 2 := by
  have hSub : shortFrames origin ticks frames ⊆
      (Finset.range (frames / 2)).image fun k => 2 * k + 1 := by
    intro i hi
    obtain ⟨hRange, hOdd, -⟩ := Finset.mem_filter.1 hi
    rw [Finset.mem_range] at hRange
    exact Finset.mem_image.2 ⟨i / 2, Finset.mem_range.2 (by omega), by omega⟩
  calc (shortFrames origin ticks frames).card
      ≤ ((Finset.range (frames / 2)).image fun k => 2 * k + 1).card := Finset.card_le_card hSub
    _ ≤ (Finset.range (frames / 2)).card := Finset.card_image_le
    _ = frames / 2 := Finset.card_range _

end Famicom.Ppu

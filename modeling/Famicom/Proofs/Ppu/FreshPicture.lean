import Famicom.Proofs.Ppu.ScrolledPicture
import Mathlib.Data.List.DropRight
import Mathlib.Data.List.TakeDrop

/-!
# Fresh pictures

A picture is complete when vertical blank begins.  By then every line of it has been composed
since the picture before, once and from the top down, whatever was read, written or switched on
or off meanwhile.  The beam carries the invariant: `Raster.linesBehind` counts the lines composed
so far, and these stand in the picture as they were composed.
-/

namespace Famicom.Ppu

/-! ### Calls -/

/-- Something done to the picture processor, or to the cartridge behind its back. -/
inductive Operation (β : Type) where
  | tick
  | read (address : UInt16)
  | write (address : UInt16) (value : UInt8)
  | writeOam (value : UInt8)
  | takeNmi
  | reset
  | exchange (bus : β)

structure Call (β : Type) where
  ppu : Ppu
  bus : β
  operation : Operation β

variable {β : Type} [PatternBus β]

namespace Call

def outcome (call : Call β) : Ppu × β :=
  match call.operation with
  | .tick => (call.ppu.tick call.bus).2
  | .read address => (call.ppu.readRegister call.bus address).2
  | .write address value => call.ppu.writeRegister call.bus address value
  | .writeOam value => (call.ppu.writeOam value, call.bus)
  | .takeNmi => (call.ppu.takeNmi.2, call.bus)
  | .reset => (call.ppu.reset, call.bus)
  | .exchange bus => (call.ppu, bus)

/-- A new picture begins after the call: it completed one, or was a reset. -/
def endsPicture (call : Call β) : Bool :=
  match call.operation with
  | .tick => (call.ppu.tick call.bus).1
  | .reset => true
  | _ => false

/-- The line that a call composes, with its number: that of a tick which takes the beam to the
render dot of a visible line. -/
def composed? (call : Call β) : Option (Fin pictureHeight × Vector UInt32 pictureWidth) :=
  match call.operation with
  | .tick =>
    let ppu := call.ppu.moved
    if h : ppu.raster.scanline.val < pictureHeight ∧ ppu.raster.dot.val = renderDot then
      some (⟨ppu.raster.scanline.val, h.1⟩,
        ppu.composeLine (ppu.fetchLine call.bus ppu.raster.scanline.val).1)
    else none
  | _ => none

end Call

def performAll (state : Ppu × β) (operations : List (Operation β)) : Ppu × β :=
  operations.foldl (fun state operation => (Call.mk state.1 state.2 operation).outcome) state

def calls (state : Ppu × β) : List (Operation β) → List (Call β)
  | [] => []
  | operation :: rest =>
    let call := Call.mk state.1 state.2 operation
    call :: calls call.outcome rest

/-- The calls since the last one after which a new picture began. -/
def sincePicture (made : List (Call β)) : List (Call β) :=
  made.rtakeWhile fun call => !call.endsPicture

theorem performAll_cons (state : Ppu × β) (operation : Operation β)
    (operations : List (Operation β)) :
    performAll state (operation :: operations) =
      performAll (Call.mk state.1 state.2 operation).outcome operations :=
  rfl

theorem performAll_concat (state : Ppu × β) (operations : List (Operation β))
    (operation : Operation β) :
    performAll state (operations ++ [operation]) =
      (Call.mk (performAll state operations).1 (performAll state operations).2
        operation).outcome := by
  rw [performAll, List.foldl_append]
  rfl

theorem calls_concat (state : Ppu × β) (operations : List (Operation β))
    (operation : Operation β) :
    calls state (operations ++ [operation]) = calls state operations ++
      [⟨(performAll state operations).1, (performAll state operations).2, operation⟩] := by
  induction operations generalizing state with
  | nil => rfl
  | cons first rest ih => exact congrArg (_ :: ·) (ih _)

/-! ### Rows -/

def rowOf (picture : Picture) (y : Fin pictureHeight) : Vector UInt32 pictureWidth :=
  Vector.ofFn fun x => pointAt picture x y

theorem rowOf_putLine (picture : Picture) (y row : Fin pictureHeight)
    (line : Vector UInt32 pictureWidth) :
    rowOf (putLine picture y line) row = if row = y then line else rowOf picture row := by
  by_cases hRow : row = y
  · subst hRow
    rw [if_pos rfl]
    apply Vector.ext
    intro i hi
    rw [rowOf, Vector.getElem_ofFn]
    exact pointAt_putLine picture row line ⟨i, hi⟩
  · rw [if_neg hRow]
    have hPoints : (fun x => pointAt (putLine picture y line) x row) =
        fun x => pointAt picture x row := by
      funext x
      exact pointAt_putLine_of_ne picture y line x hRow
    rw [rowOf, hPoints, ← rowOf]

theorem readRegister_picture (ppu : Ppu) (bus : β) (address : UInt16) :
    (ppu.readRegister bus address).2.1.picture = ppu.picture := by
  obtain ⟨status, scroll, buffer, seen, hRead⟩ := ppu.readRegister_eq bus address
  rw [hRead]

theorem writeRegister_picture (ppu : Ppu) (bus : β) (address : UInt16) (value : UInt8) :
    (ppu.writeRegister bus address value).1.picture = ppu.picture := by
  have hVram (ppu : Ppu) (place : Nat) :
      (ppu.vramWrite bus place value).1.picture = ppu.picture := by
    obtain ⟨nametables, palette, hWrite⟩ := ppu.vramWrite_eq bus place value
    rw [hWrite]
  unfold writeRegister
  split
  case h_7 => exact hVram { ppu with openBus := value } ppu.vramAddress
  all_goals rfl

theorem preRenderDot_picture (ppu : Ppu) : ppu.preRenderDot.picture = ppu.picture := by
  simp only [preRenderDot]
  split
  · rfl
  · split
    · rfl
    · split
      · rfl
      · split <;> rfl

theorem tick_picture_of_ne (ppu : Ppu) (bus : β)
    (h : ¬(ppu.moved.raster.scanline.val < pictureHeight ∧
      ppu.moved.raster.dot.val = renderDot)) :
    (ppu.tick bus).2.1.picture = ppu.picture := by
  by_cases hLine : ppu.moved.raster.scanline.val < pictureHeight
  · have hDot : ppu.moved.raster.dot.val ≠ renderDot := fun hDot => h ⟨hLine, hDot⟩
    rw [ppu.tick_visible bus hLine, ppu.moved.visibleDot_other bus _ hDot]
    rfl
  · rw [ppu.tick_hidden bus hLine]
    split
    · rfl
    · split
      · exact ppu.moved.preRenderDot_picture
      · rfl

namespace Call

theorem composed?_tick {ppu : Ppu} {bus : β} (h : ppu.moved.raster.scanline.val < pictureHeight)
    (hDot : ppu.moved.raster.dot.val = renderDot) :
    composed? ⟨ppu, bus, .tick⟩ = some (⟨ppu.moved.raster.scanline.val, h⟩,
      ppu.moved.composeLine (ppu.moved.fetchLine bus ppu.moved.raster.scanline.val).1) :=
  dif_pos ⟨h, hDot⟩

theorem composed?_tick_of_ne {ppu : Ppu} {bus : β}
    (h : ¬(ppu.moved.raster.scanline.val < pictureHeight ∧
      ppu.moved.raster.dot.val = renderDot)) : composed? ⟨ppu, bus, .tick⟩ = none :=
  dif_neg h

theorem composed?_eq_some_iff (call : Call β) (y : Fin pictureHeight)
    (line : Vector UInt32 pictureWidth) :
    call.composed? = some (y, line) ↔
      call.operation = .tick ∧ call.outcome.1.raster.isAt y.val renderDot = true ∧
        line = rowOf (call.ppu.moved.renderLine call.bus y).1.picture y := by
  obtain ⟨ppu, bus, operation⟩ := call
  have hRendered : rowOf (ppu.moved.renderLine bus y).1.picture y =
      ppu.moved.composeLine (ppu.moved.fetchLine bus y.val).1 := by
    rw [(ppu.moved.renderLine_picture bus y).1, rowOf_putLine, if_pos rfl]
  cases operation with
  | tick =>
    have hRaster : (outcome ⟨ppu, bus, .tick⟩).1.raster = ppu.moved.raster :=
      (ppu.tick_ticked bus).raster
    rw [hRaster, hRendered]
    simp only [composed?, Raster.isAt, Bool.and_eq_true, beq_iff_eq, true_and]
    constructor
    · intro h
      split at h
      · rename_i hRender
        obtain ⟨rfl, rfl⟩ := Prod.mk.inj (Option.some.inj h)
        exact ⟨⟨rfl, hRender.2⟩, rfl⟩
      · cases h
    · rintro ⟨⟨hLine, hDot⟩, rfl⟩
      have hHere : (⟨ppu.moved.raster.scanline.val, hLine ▸ y.isLt⟩ : Fin pictureHeight) = y :=
        Fin.ext hLine
      rw [dif_pos ⟨hLine ▸ y.isLt, hDot⟩, hHere, hLine]
  | _ =>
    constructor
    · intro h
      cases h
    · rintro ⟨h, -⟩
      cases h

theorem outcome_picture (call : Call β) :
    call.outcome.1.picture =
      match call.composed? with
      | some (y, line) => putLine call.ppu.picture y line
      | none => call.ppu.picture := by
  obtain ⟨ppu, bus, operation⟩ := call
  cases operation with
  | tick =>
    by_cases hRender : ppu.moved.raster.scanline.val < pictureHeight ∧
        ppu.moved.raster.dot.val = renderDot
    · obtain ⟨hLine, hDot⟩ := hRender
      rw [composed?_tick hLine hDot]
      show (ppu.tick bus).2.1.picture = _
      rw [ppu.tick_visible bus hLine, ppu.moved.visibleDot_render bus _ hDot]
      dsimp only [rendered]
      exact (ppu.moved.renderLine_picture bus _).1
    · rw [composed?_tick_of_ne hRender]
      exact ppu.tick_picture_of_ne bus hRender
  | read address => exact ppu.readRegister_picture bus address
  | write address value => exact ppu.writeRegister_picture bus address value
  | writeOam value => rfl
  | takeNmi =>
    show ppu.takeNmi.2.picture = ppu.picture
    rw [takeNmi_eq]
  | reset => rfl
  | exchange bus => rfl

theorem outcome_row (call : Call β) (row : Fin pictureHeight) :
    rowOf call.outcome.1.picture row =
      match call.composed? with
      | some (y, line) => if row = y then line else rowOf call.ppu.picture row
      | none => rowOf call.ppu.picture row := by
  rw [call.outcome_picture]
  cases call.composed? with
  | none => rfl
  | some composed =>
    obtain ⟨y, line⟩ := composed
    exact rowOf_putLine call.ppu.picture y row line

end Call

/-! ### Lines behind the beam -/

/-- The visible lines composed since the last picture was complete. -/
def Raster.linesBehind (r : Raster) : Nat :=
  if vblankPlace ≤ r.place then 0 else min 240 ((r.place + 85) / 341)

theorem Raster.linesBehind_top {r : Raster} (h : r.place = 0) : r.linesBehind = 0 := by
  unfold linesBehind
  rw [h]
  rfl

theorem tick_complete_iff (ppu : Ppu) (bus : β) :
    (ppu.tick bus).1 = true ↔ ppu.moved.raster.place = Raster.vblankPlace := by
  have hTicked := ppu.tick_ticked bus
  rw [hTicked.complete, hTicked.raster]
  exact ppu.moved.raster.isAt_iff (by decide)

/-- All that a call can do to lines and beam: begin a picture, compose the line next to those
composed, or compose none. -/
def Call.Draws (call : Call β) : Prop :=
  (call.endsPicture = true ∧ call.outcome.1.raster.linesBehind = 0) ∨
  (call.endsPicture = false ∧ ∃ (y : Fin pictureHeight) (line : Vector UInt32 pictureWidth),
    call.composed? = some (y, line) ∧ call.ppu.raster.linesBehind = y.val ∧
      call.outcome.1.raster.linesBehind = y.val + 1) ∨
  (call.endsPicture = false ∧ call.composed? = none ∧
    call.outcome.1.raster.linesBehind = call.ppu.raster.linesBehind)

theorem draws_tick (ppu : Ppu) (bus : β) : Call.Draws ⟨ppu, bus, .tick⟩ := by
  have hRaster : (ppu.tick bus).2.1.raster = ppu.moved.raster := (ppu.tick_ticked bus).raster
  have hEnds : (ppu.tick bus).1 = true ↔ ppu.moved.raster.place = 82182 :=
    ppu.tick_complete_iff bus
  have hMove := ppu.moved_place
  have hPlace := ppu.moved.raster.place_eq
  have hDotLt := ppu.moved.raster.dot_lt
  by_cases hEnd : ppu.moved.raster.place = 82182
  · refine .inl ⟨hEnds.2 hEnd, ?_⟩
    show (ppu.tick bus).2.1.raster.linesBehind = 0
    rw [hRaster, Raster.linesBehind, hEnd]
    rfl
  · have hNot : (ppu.tick bus).1 = false := Bool.eq_false_iff.2 fun h => hEnd (hEnds.1 h)
    by_cases hRender : ppu.moved.raster.scanline.val < pictureHeight ∧
        ppu.moved.raster.dot.val = renderDot
    · obtain ⟨hLine, hDot⟩ := hRender
      -- Line y is composed at place 341 * y + 256, where the quotient goes from y to y + 1.
      refine .inr (.inl ⟨hNot, _, _, Call.composed?_tick hLine hDot, ?_, ?_⟩)
      · show ppu.raster.linesBehind = ppu.moved.raster.scanline.val
        unfold pictureHeight renderDot at *
        unfold Raster.linesBehind Raster.vblankPlace
        rw [if_neg (by omega)]
        omega
      · show (ppu.tick bus).2.1.raster.linesBehind = ppu.moved.raster.scanline.val + 1
        rw [hRaster]
        unfold pictureHeight renderDot at *
        unfold Raster.linesBehind Raster.vblankPlace
        rw [if_neg (by omega)]
        omega
    · -- Elsewhere the quotient stays, or the beam is past the last visible line.
      refine .inr (.inr ⟨hNot, Call.composed?_tick_of_ne hRender, ?_⟩)
      show (ppu.tick bus).2.1.raster.linesBehind = ppu.raster.linesBehind
      rw [hRaster]
      unfold pictureHeight renderDot at *
      unfold Raster.linesBehind Raster.vblankPlace
      split <;> split <;> omega

theorem Call.draws (call : Call β) : call.Draws := by
  obtain ⟨ppu, bus, operation⟩ := call
  cases operation with
  | tick => exact ppu.draws_tick bus
  | read address =>
    refine .inr (.inr ⟨rfl, rfl, ?_⟩)
    exact congrArg Raster.linesBehind (ppu.readRegister_keeps bus address).1
  | write address value =>
    refine .inr (.inr ⟨rfl, rfl, ?_⟩)
    exact congrArg Raster.linesBehind (ppu.writeRegister_keeps bus address value).1
  | writeOam value => exact .inr (.inr ⟨rfl, rfl, rfl⟩)
  | takeNmi =>
    refine .inr (.inr ⟨rfl, rfl, ?_⟩)
    show ppu.takeNmi.2.raster.linesBehind = ppu.raster.linesBehind
    rw [takeNmi_eq]
  | reset => exact .inl ⟨rfl, Raster.linesBehind_top rfl⟩
  | exchange bus => exact .inr (.inr ⟨rfl, rfl, rfl⟩)

/-! ### Pictures -/

def topRows (picture : Picture) (n : Nat) :
    List (Fin pictureHeight × Vector UInt32 pictureWidth) :=
  ((List.finRange pictureHeight).take n).map fun y => (y, rowOf picture y)

theorem topRows_succ (picture : Picture) (y : Fin pictureHeight) :
    topRows picture (y.val + 1) = topRows picture y.val ++ [(y, rowOf picture y)] := by
  have hTake : (List.finRange pictureHeight).take (y.val + 1) =
      (List.finRange pictureHeight).take y.val ++ [y] := by
    have hGet := List.take_concat_get' (List.finRange pictureHeight) y.val (by simp)
    simpa using hGet.symm
  rw [topRows, hTake, List.map_append]
  rfl

theorem topRows_congr {before after : Picture} {n : Nat}
    (h : ∀ y : Fin pictureHeight, y.val < n → rowOf after y = rowOf before y) :
    topRows after n = topRows before n := by
  apply List.map_congr_left
  intro y hy
  obtain ⟨i, hi, rfl⟩ := List.mem_take_iff_getElem.1 hy
  rw [h _ (by simp; omega)]

/-- The lines composed since the last picture are those behind the beam, as the picture shows
them. -/
def Fresh (made : List (Call β)) (ppu : Ppu) : Prop :=
  (sincePicture made).filterMap Call.composed? = topRows ppu.picture ppu.raster.linesBehind

theorem fresh_nil {ppu : Ppu} (h : ppu.raster.place = 0) :
    Fresh ([] : List (Call β)) ppu := by
  rw [Fresh, Raster.linesBehind_top h]
  rfl

theorem Fresh.step {made : List (Call β)} {call : Call β} (h : Fresh made call.ppu) :
    Fresh (made ++ [call]) call.outcome.1 := by
  have hRow := call.outcome_row
  unfold Fresh sincePicture at *
  rcases call.draws with ⟨hEnds, hBehind⟩ | ⟨hEnds, y, line, hLine, hBefore, hAfter⟩ |
    ⟨hEnds, hNone, hBehind⟩
  · rw [List.rtakeWhile_concat_neg _ _ _ (by simp [hEnds]), hBehind]
    rfl
  · rw [hLine] at hRow
    dsimp only at hRow
    have hAbove : topRows call.outcome.1.picture y.val = topRows call.ppu.picture y.val := by
      apply topRows_congr
      intro row hLess
      rw [hRow row, if_neg (Fin.ne_of_lt hLess)]
    rw [List.rtakeWhile_concat_pos _ _ _ (by simp [hEnds]), List.filterMap_append, h,
      List.filterMap_cons_some hLine, List.filterMap_nil, hAfter, topRows_succ, hRow y,
      if_pos rfl, hBefore, hAbove]
  · rw [hNone] at hRow
    rw [List.rtakeWhile_concat_pos _ _ _ (by simp [hEnds]), List.filterMap_append, h, hBehind,
      List.filterMap_cons_none hNone, List.filterMap_nil, List.append_nil]
    exact (topRows_congr fun row _ => hRow row).symm

theorem fresh_calls {start : Ppu} (h : start.raster.place = 0) (bus : β)
    (operations : List (Operation β)) :
    Fresh (calls (start, bus) operations) (performAll (start, bus) operations).1 := by
  induction operations using List.reverseRecOn with
  | nil => exact fresh_nil h
  | append_singleton operations operation ih =>
    rw [calls_concat, performAll_concat]
    exact Fresh.step ih

/-- Let picture processor and cartridge go through any operations from power on or a reset.  A
tick that then completes a picture finds that since the last one, or since the last reset, the
lines were composed from the first to the last, each of them once, and every row that it presents
is the line composed.  Lines are composed by the ticks that reach their render dot, and nothing
else changes a row. -/
theorem presented_picture_is_fresh (start : Ppu) (bus : β) (operations : List (Operation β))
    (h : start = powerOn ∨ ∃ before : Ppu, start = before.reset) :
    let made := calls (start, bus) operations
    let now := performAll (start, bus) operations
    let next := now.1.tick now.2
    (next.1 = true → (sincePicture made).filterMap Call.composed? =
      (List.finRange pictureHeight).map fun y => (y, rowOf next.2.1.picture y)) ∧
    (∀ (call : Call β) (y : Fin pictureHeight) (line : Vector UInt32 pictureWidth),
      call.composed? = some (y, line) ↔
        call.operation = .tick ∧ call.outcome.1.raster.isAt y.val 256 = true ∧
          line = rowOf (call.ppu.moved.renderLine call.bus y).1.picture y) ∧
    ∀ (call : Call β) (row : Fin pictureHeight),
      rowOf call.outcome.1.picture row =
        match call.composed? with
        | some (y, line) => if row = y then line else rowOf call.ppu.picture row
        | none => rowOf call.ppu.picture row := by
  intro made now next
  refine ⟨?_, Call.composed?_eq_some_iff, Call.outcome_row⟩
  intro hNext
  have hStart : start.raster.place = 0 := by
    rcases h with rfl | ⟨before, rfl⟩
    · rfl
    · rfl
  have hFresh : Fresh made now.1 := fresh_calls hStart bus operations
  have hArrive : now.1.moved.raster.place = 82182 := (now.1.tick_complete_iff now.2).1 hNext
  have hPlace := now.1.moved_place
  have hAll : now.1.raster.linesBehind = 240 := by
    unfold Raster.linesBehind Raster.vblankPlace
    rw [if_neg (by omega)]
    omega
  have hPicture : next.2.1.picture = now.1.picture := by
    apply now.1.tick_picture_of_ne now.2
    have hSplit := now.1.moved.raster.place_eq
    have hDotLt := now.1.moved.raster.dot_lt
    unfold pictureHeight
    omega
  have hRows : topRows now.1.picture 240 =
      (List.finRange pictureHeight).map fun y => (y, rowOf now.1.picture y) := by
    rw [topRows, List.take_of_length_le (by simp [pictureHeight])]
  rw [hPicture, ← hRows, ← hAll]
  exact hFresh

theorem performAll_ticks_place (state : Ppu × β) (n : Nat)
    (h : state.1.raster.place + n ≤ 89340) :
    (performAll state (List.replicate n .tick)).1.raster.place = state.1.raster.place + n := by
  induction n with
  | zero => rfl
  | succ n ih =>
    have hBefore := ih (by omega)
    rw [List.replicate_succ', performAll_concat]
    generalize performAll state (List.replicate n .tick) = now at hBefore ⊢
    have hRaster : (Call.outcome ⟨now.1, now.2, .tick⟩).1.raster = now.1.moved.raster :=
      (now.1.tick_ticked now.2).raster
    have hMove := now.1.moved_place
    rw [hRaster]
    omega

theorem tick_completes {ppu : Ppu} {bus : β} (h : ppu.raster.place = 82181) :
    (ppu.tick bus).1 = true := by
  have hMove := ppu.moved_place
  apply (ppu.tick_complete_iff bus).2
  unfold Raster.vblankPlace
  omega

/-- Rendering is switched on, and the beam goes to where the first picture is all but complete. -/
def firstPicture : List (Operation β) :=
  .write 0x2001 0x1E :: List.replicate 82181 .tick

theorem firstPicture_place (bus : β) :
    (performAll (powerOn, bus) firstPicture).1.raster.place = 82181 := by
  have hStart : (Call.outcome ⟨powerOn, bus, .write 0x2001 0x1E⟩).1.raster.place = 0 :=
    congrArg Raster.place (powerOn.writeRegister_keeps bus 0x2001 0x1E).1
  rw [firstPicture, performAll_cons, performAll_ticks_place _ _ (by rw [hStart]; decide), hStart]

theorem presented_picture_is_fresh_first :
    let board := Board.powerOn ⟨#[0], #[0xF0, 0x0F], .nrom, .vertical, false, none, by decide⟩
    let now := performAll (powerOn, board) firstPicture
    let next := now.1.tick now.2
    next.1 = true ∧
      (sincePicture (calls (powerOn, board) firstPicture)).filterMap Call.composed? =
        (List.finRange pictureHeight).map fun y => (y, rowOf next.2.1.picture y) := by
  -- The run stays a variable while the theorem is applied: nothing is to evaluate it.
  have hAny (board : Board) (operations : List (Operation Board))
      (hPlace : (performAll (powerOn, board) operations).1.raster.place = 82181) :
      let now := performAll (powerOn, board) operations
      let next := now.1.tick now.2
      next.1 = true ∧ (sincePicture (calls (powerOn, board) operations)).filterMap
        Call.composed? =
          (List.finRange pictureHeight).map fun y => (y, rowOf next.2.1.picture y) := by
    have hNext : ((performAll (powerOn, board) operations).1.tick
        (performAll (powerOn, board) operations).2).1 = true := tick_completes hPlace
    exact ⟨hNext, (presented_picture_is_fresh powerOn board operations (.inl rfl)).1 hNext⟩
  intro board
  exact hAny board firstPicture (firstPicture_place board)

end Famicom.Ppu

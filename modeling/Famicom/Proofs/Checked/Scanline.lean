import Famicom.Ppu.Tick
import Famicom.Proofs.Checked.Sprites

/-!
# Checked dots

A visible line is composed from the painted rows of background and sprites, column by column, and
copied over a row of the picture; the beam and the scroll position move with every dot.  With every
place and sum checked, no dot is refused, and it does what the plain one does.
-/

namespace Famicom.Ppu

open Checked

/-! ### Columns -/

def background? (ppu : Ppu) (board : Board) : Option (Vector UInt8 256) :=
  if ppu.mask.background then ppu.paintBackground? board else some (Vector.replicate 256 0)

/-- The sprites of a line and whether there are too many, none where they are switched off. -/
def sprites? (ppu : Ppu) (board : Board) (line : Nat) : Option (Bool × SpriteLine) :=
  let empty := Vector.replicate 256 none
  if ppu.mask.sprites then ppu.searchSprites? board line (List.finRange 64) 0 empty
  else some (false, empty)

def entryColour? (ppu : Ppu) (entry : UInt8) : Option UInt32 := do
  let shade ← ppu.palette[← paletteIndex? entry.toNat]?
  let shade := if ppu.mask.greyscale then shade &&& 0x30 else shade
  colours[shade.toNat % 64]?

def columnOf? {α : Type} (hidden : Bool) (blank : α) (row : Vector α 256) (x : Nat) : Option α :=
  if hidden then some blank else row[x]?

/-- The colour of a column, and whether the first sprite meets the background there. -/
def column? (ppu : Ppu) (background : Vector UInt8 256) (sprites : SpriteLine) (x : Nat) :
    Option (Bool × UInt32) := do
  let entry ← columnOf? (x < 8 && !ppu.mask.backgroundLeft) 0 background x
  let sprite ← columnOf? (x < 8 && !ppu.mask.spritesLeft) none sprites x
  let last ← sub 256 1
  match sprite with
  | some sprite =>
    let shown := if opaqueEntry entry && sprite.behind then entry else sprite.entry
    return (sprite.first && opaqueEntry entry && x != last, ← ppu.entryColour? shown)
  | none => return (false, ← ppu.entryColour? (if opaqueEntry entry then entry else 0))

def composeColumn? (ppu : Ppu) (background : Vector UInt8 256) (sprites : SpriteLine)
    (state : Bool × Vector UInt32 256) (x : Nat) : Option (Bool × Vector UInt32 256) := do
  let column ← ppu.column? background sprites x
  return (state.1 || column.1, ← put state.2 x column.2)

def tileRow (ppu : Ppu) (line : LineData) : Vector UInt8 256 :=
  Vector.ofFn fun x => match line.tiles with
    | some tiles => tiles.entry ppu.scroll.fineX x
    | none => 0

theorem entryColour?_eq (ppu : Ppu) (entry : UInt8) :
    ppu.entryColour? entry = some (ppu.entryColour entry) := by
  rw [entryColour?, bind_eq (paletteIndex?_eq _), bind_eq (get_eq _ (Fin.isLt _))]
  exact get_eq colours (Nat.mod_lt _ (by decide))

theorem fetchLine_board (ppu : Ppu) (board : Board) (line : Nat) :
    ppu.fetchLine board line =
      (⟨if ppu.mask.background then some (ppu.fetchTiles ppu.scroll.current 33 board).1 else none,
        if ppu.mask.sprites then
          (ppu.fetchSprites line ((ppu.spritesOnLine line).take 8) board).1 else [],
        ppu.mask.sprites && decide (8 < (ppu.spritesOnLine line).length)⟩, board) := by
  unfold fetchLine fetchBackground
  rw [fetchTiles_board]
  by_cases hBackground : ppu.mask.background = true <;>
    by_cases hSprites : ppu.mask.sprites = true <;>
    simp [hBackground, hSprites, fetchSprites_board]

theorem background?_eq {board : Board} (h : board.Sound) (ppu : Ppu) (line : Nat) :
    ppu.background? board = some (ppu.tileRow (ppu.fetchLine board line).1) := by
  rw [background?, tileRow, fetchLine_board]
  split
  · exact paintBackground?_eq h ppu
  · exact congrArg some (eq_ofFn fun x => by simp [Vector.get])

theorem sprites?_eq {board : Board} (h : board.Sound) (ppu : Ppu) (line : Nat) :
    ppu.sprites? board line = some ((ppu.fetchLine board line).1.overflow,
      paintedLine (ppu.fetchLine board line).1.sprites) := by
  rw [sprites?, fetchLine_board]
  split
  · rename_i hSprites
    rw [paintSprites?_eq h, hSprites, Bool.true_and]
  · rename_i hSprites
    rw [Bool.not_eq_true] at hSprites
    rw [hSprites, Bool.false_and, paintedLine_nil]

theorem columnOf?_ofFn {α : Type} (hidden : Bool) (blank : α) (f : Fin 256 → α) (x : Fin 256) :
    columnOf? hidden blank (Vector.ofFn f) x.val = some (if hidden then blank else f x) := by
  unfold columnOf?
  split
  · rfl
  · exact (get_eq _ x.isLt).trans (congrArg some (Vector.getElem_ofFn x.isLt))

theorem column?_eq (ppu : Ppu) (line : LineData) (x : Fin 256) :
    ppu.column? (ppu.tileRow line) (paintedLine line.sprites) x.val =
      some (x.val != 255 && ppu.spriteZeroAt line x,
        ppu.entryColour (ppu.composedEntry line x)) := by
  have hEntry : columnOf? (x.val < 8 && !ppu.mask.backgroundLeft) 0 (ppu.tileRow line) x.val =
      some (ppu.backgroundEntry line x) := by
    rw [tileRow, columnOf?_ofFn, backgroundEntry]
    cases line.tiles with
    | none => rw [ite_self]
    | some tiles => rfl
  have hSprite : columnOf? (x.val < 8 && !ppu.mask.spritesLeft) none (paintedLine line.sprites)
      x.val = some ((ppu.visibleSprite line x).map (·.shown x.val)) := by
    rw [paintedLine, columnOf?_ofFn, visibleSprite]
    split
    · rfl
    · rfl
  rw [column?, bind_eq hEntry, bind_eq hSprite, bind_eq (sub_eq (by decide))]
  unfold spriteZeroAt composedEntry
  cases hShown : ppu.visibleSprite line x with
  | none =>
    refine (bind_eq (ppu.entryColour?_eq _) _).trans ?_
    rw [Bool.and_false]
    rfl
  | some sprite =>
    refine (bind_eq (ppu.entryColour?_eq _) _).trans ?_
    rw [Bool.and_comm (x.val != 255)]
    rfl

/-! ### Lines -/

/-- What holds before a column is composed: the columns before it show what the line shows, and the
first sprite met the background if it did in one of them. -/
def ComposedTo (ppu : Ppu) (line : LineData) (bound : Nat) (state : Bool × Vector UInt32 256) :
    Prop :=
  (state.1 = true ↔ ∃ x : Fin 256, x.val < bound ∧ x.val ≠ 255 ∧ ppu.spriteZeroAt line x) ∧
    ∀ x : Fin 256, x.val < bound → state.2.get x = ppu.entryColour (ppu.composedEntry line x)

theorem composeColumn?_composed {ppu : Ppu} {line : LineData} {x : Nat}
    {state : Bool × Vector UInt32 256} (hx : x < 256) (hState : ppu.ComposedTo line x state) :
    ∃ state', ppu.composeColumn? (ppu.tileRow line) (paintedLine line.sprites) state x =
        some state' ∧ ppu.ComposedTo line (x + 1) state' := by
  obtain ⟨hHit, hColours⟩ := hState
  rw [composeColumn?, bind_eq (ppu.column?_eq line ⟨x, hx⟩), bind_eq (put_eq state.2 _ hx)]
  refine ⟨_, rfl, ?_, ?_⟩
  · simp only [Bool.or_eq_true, hHit, Bool.and_eq_true, bne_iff_ne]
    constructor
    · rintro (⟨y, hBefore, hMet⟩ | hMet)
      · exact ⟨y, by omega, hMet⟩
      · exact ⟨⟨x, hx⟩, Nat.lt_succ_self x, hMet⟩
    · rintro ⟨y, hBefore, hMet⟩
      by_cases hSame : y.val = x
      · obtain rfl : y = ⟨x, hx⟩ := Fin.ext hSame
        exact .inr hMet
      · exact .inl ⟨y, by omega, hMet⟩
  · intro y hy
    dsimp only
    rw [get_set]
    split
    · rename_i hSame
      exact congrArg (fun x => ppu.entryColour (ppu.composedEntry line x)) (Fin.ext hSame)
    · exact hColours y (by omega)

theorem any_of_spriteZeroAt {ppu : Ppu} {line : LineData} {x : Fin 256}
    (h : ppu.spriteZeroAt line x) : line.sprites.any (·.index.val == 0) := by
  unfold spriteZeroAt visibleSprite at h
  split at h
  · rename_i sprite hFound
    split at hFound
    · cases hFound
    · rw [Bool.and_eq_true] at h
      exact List.any_eq_true.2 ⟨sprite, List.mem_of_find?_eq_some hFound, h.1⟩
  · cases h

theorem spriteZeroHit_iff (ppu : Ppu) (line : LineData) :
    ppu.spriteZeroHit line = true ↔ ∃ x : Fin 256, x.val ≠ 255 ∧ ppu.spriteZeroAt line x := by
  simp only [spriteZeroHit, Bool.and_eq_true, List.any_eq_true, bne_iff_ne]
  constructor
  · rintro ⟨-, x, -, hMet⟩
    exact ⟨x, hMet⟩
  · rintro ⟨x, hMet⟩
    exact ⟨List.any_eq_true.1 (any_of_spriteZeroAt hMet.2), x, List.mem_finRange x, hMet⟩

theorem composeLine?_eq (ppu : Ppu) (line : LineData) :
    (List.range 256).foldlM (ppu.composeColumn? (ppu.tileRow line) (paintedLine line.sprites))
        (false, Vector.replicate 256 0) =
      some (ppu.spriteZeroHit line, ppu.composeLine line) := by
  obtain ⟨⟨hit, row⟩, hRun, hHit, hRow⟩ := foldlM_range (ppu.ComposedTo line) (n := 256)
    (s := (false, Vector.replicate 256 0))
    ⟨by simp, fun x hx => absurd hx (Nat.not_lt_zero _)⟩
    fun x state hx hState => composeColumn?_composed hx hState
  rw [hRun]
  have hZero : hit = ppu.spriteZeroHit line := by
    rw [Bool.eq_iff_iff, spriteZeroHit_iff, hHit]
    exact exists_congr fun x => and_iff_right x.isLt
  rw [hZero, show row = ppu.composeLine line from eq_ofFn fun x => hRow x x.isLt]
  rfl

def putRow? (picture : Picture) (y : Nat) (line : Vector UInt32 pictureWidth) : Option Picture := do
  let start ← mul .size y pictureWidth
  let stop ← add .size start pictureWidth
  if stop ≤ pictureWidth * pictureHeight then
    (List.finRange pictureWidth).foldlM (fun picture x => do
      put picture (← add .size start x.val) (line.get x)) picture
  else none

theorem putRow?_eq (picture : Picture) (y : Fin pictureHeight)
    (line : Vector UInt32 pictureWidth) :
    putRow? picture y.val line = some (putLine picture y line) := by
  have hy : y.val < 240 := y.isLt
  have hStart : mul .size y.val pictureWidth = some (y.val * pictureWidth) :=
    mul_size (by unfold pictureWidth; omega)
  have hStop : add .size (y.val * pictureWidth) pictureWidth =
      some (y.val * pictureWidth + pictureWidth) :=
    add_size (by unfold pictureWidth; omega)
  rw [putRow?, bind_eq hStart, bind_eq hStop, if_pos (by unfold pictureWidth pictureHeight; omega),
    putLine, Fin.foldl_eq_finRange_foldl]
  refine (foldlM_keeps (fun _ => True) trivial fun picture _ x _ => ⟨?_, trivial⟩).1
  have hx : x.val < 256 := x.isLt
  rw [bind_eq (add_size (by unfold pictureWidth; omega)),
    put_eq picture _ (Frame.index_lt x.isLt y.isLt)]

def renderLine? (ppu : Ppu) (board : Board) (y : Nat) : Option Ppu := do
  let background ← ppu.background? board
  let (overflow, sprites) ← ppu.sprites? board y
  let (hit, pixels) ← (List.range 256).foldlM (ppu.composeColumn? background sprites)
    (false, Vector.replicate 256 0)
  return { ppu with
    status := (ppu.status.raise Status.overflowMask overflow).raise Status.spriteZeroMask hit
    picture := ← putRow? ppu.picture y pixels }

theorem renderLine?_eq {board : Board} (h : board.Sound) (ppu : Ppu) (y : Fin pictureHeight) :
    ppu.renderLine? board y.val = some (ppu.renderLine board y).1 ∧
      (ppu.renderLine board y).2 = board := by
  constructor
  · rw [renderLine?, bind_eq (background?_eq h ppu y.val), bind_eq (sprites?_eq h ppu y.val)]
    dsimp only
    rw [bind_eq (ppu.composeLine?_eq _)]
    dsimp only
    rw [bind_eq (putRow?_eq ppu.picture y _)]
    rfl
  · unfold renderLine
    dsimp only
    rw [fetchLine_board]

/-! ### Dots -/

def visibleDot? (ppu : Ppu) (board : Board) (y : Nat) : Option Ppu := do
  if ppu.raster.dot.val = renderDot then
    let ppu ← ppu.renderLine? board y
    if ppu.mask.rendering then
      return { ppu with scroll := { ppu.scroll with current := ← ppu.scroll.current.nextRow? } }
    else return ppu
  else if ppu.raster.dot.val = 257 && ppu.mask.rendering then
    return { ppu with scroll := ppu.scroll.copyColumn }
  else return ppu

def tick? (ppu : Ppu) (board : Board) : Option (Bool × Ppu) := do
  let ppu := { ppu with raster := ← ppu.raster.advance? ppu.mask.rendering }
  let line := ppu.raster.scanline.val
  if line < pictureHeight then
    return (false, ← ppu.visibleDot? board line)
  else if ppu.raster.isAt vblankLine 1 then
    return (true, ppu.beginVblank)
  else if line = preRenderLine then
    return (false, ppu.preRenderDot)
  else
    return (false, ppu)

theorem visibleDot?_eq {board : Board} (h : board.Sound) (ppu : Ppu) (y : Fin pictureHeight) :
    ppu.visibleDot? board y.val = some (ppu.visibleDot board y).1 ∧
      (ppu.visibleDot board y).2 = board := by
  obtain ⟨hRender, hBoard⟩ := renderLine?_eq h ppu y
  unfold visibleDot? visibleDot
  split
  · rw [bind_eq hRender]
    dsimp only
    rw [hBoard]
    split
    · refine ⟨(bind_eq (VramAddress.nextRow?_eq _) _).trans rfl, rfl⟩
    · exact ⟨rfl, rfl⟩
  · split
    · exact ⟨rfl, rfl⟩
    · exact ⟨rfl, rfl⟩

/-- No dot is refused, and the board stays as it is. -/
theorem tick?_eq {board : Board} (h : board.Sound) (ppu : Ppu) :
    ppu.tick? board = some ((ppu.tick board).1, (ppu.tick board).2.1) ∧
      (ppu.tick board).2.2 = board := by
  rw [tick?, bind_eq (Raster.advance?_eq _ _)]
  unfold tick
  generalize { ppu with raster := ppu.raster.advance ppu.mask.rendering } = moved
  dsimp only
  split
  · rename_i hVisible
    obtain ⟨hDot, hBoard⟩ := visibleDot?_eq h moved ⟨_, hVisible⟩
    exact ⟨(bind_eq hDot _).trans rfl, hBoard⟩
  · split
    · exact ⟨rfl, rfl⟩
    · split
      · exact ⟨rfl, rfl⟩
      · exact ⟨rfl, rfl⟩

end Famicom.Ppu

import Famicom.Proofs.Checked.Background

/-!
# Checked sprites

Sprites are looked up one after another and painted into a row of 256 places, where a place that
is taken stays as it is; the ninth sprite of a line ends the search.  With every address, shift and
place checked, nothing is refused, and each place holds the first opaque pixel of the first eight
sprites on the line.
-/

namespace Famicom.Ppu

open Checked

/-! ### Addresses -/

def spriteRow? (height line top : Nat) (attributes : UInt8) : Option Nat := do
  let row ← sub line top
  if anyBit attributes 0x80 then sub (← sub height 1) row else return row

def spritePatternAddress? (control : Control) (tile : UInt8) (row : Nat) : Option Nat := do
  if control.spriteHeight = 16 then
    let table ← mul .word (tile &&& 0x01).toNat 0x1000
    let number := (tile &&& 0xFE).toNat
    if 8 ≤ row then tileAddress? table (← add .word number 1) (← sub row 8)
    else tileAddress? table number row
  else tileAddress? control.spriteTable.toNat tile.toNat row

theorem spriteHeight_cases (control : Control) :
    control.spriteHeight = 8 ∨ control.spriteHeight = 16 := by
  unfold Control.spriteHeight
  split
  · exact .inr rfl
  · exact .inl rfl

theorem spriteTable_le (control : Control) : control.spriteTable.toNat ≤ 0x1000 := by
  unfold Control.spriteTable
  split <;> decide

theorem toNat_and_le (a b : UInt8) : (a &&& b).toNat ≤ b.toNat := by
  rw [UInt8.toNat_and]
  exact Nat.and_le_right

/-- A row in the sprite has its address among the patterns, with room for the second plane. -/
theorem spritePatternAddress?_eq (control : Control) (tile : UInt8) {row : Nat}
    (hRow : row < control.spriteHeight) :
    ∃ address, spritePatternAddress? control tile row = some address ∧ address < 0xFFF8 ∧
      address.toUInt16 = spritePatternAddress control tile row := by
  have hTile := tile.toNat_lt
  have hTable := spriteTable_le control
  have hOdd : (tile &&& 0x01).toNat ≤ 0x01 := toNat_and_le _ _
  have hEven : (tile &&& 0xFE).toNat ≤ 0xFE := toNat_and_le _ _
  unfold spritePatternAddress? spritePatternAddress
  split
  · rename_i hTall
    rw [hTall] at hRow
    rw [bind_eq (mul_word (by omega))]
    have hAddress : ((tile &&& 0x01).toNat * 0x1000 + ((tile &&& 0xFE).toNat + row / 8) * 16 +
        row % 8).toUInt16 = (tile &&& 0x01).toUInt16 * 0x1000 + (tile &&& 0xFE).toUInt16 * 16 +
          (row / 8 * 16 + row % 8).toUInt16 := by
      apply UInt16.toNat_inj.1
      simp only [Nat.toUInt16_eq, UInt16.toNat_ofNat', UInt16.toNat_add, UInt16.toNat_mul,
        UInt8.toNat_toUInt16, UInt16.reduceToNat]
      omega
    by_cases hLower : 8 ≤ row
    · have hDiv : row / 8 = 1 := by omega
      have hMod : row % 8 = row - 8 := by omega
      rw [if_pos hLower, bind_eq (add_word (by omega)), bind_eq (sub_eq hLower),
        tileAddress?_eq (by omega) (by omega) (by omega), ← hAddress, hDiv, hMod]
      exact ⟨_, rfl, by omega, rfl⟩
    · have hDiv : row / 8 = 0 := by omega
      have hMod : row % 8 = row := by omega
      rw [if_neg hLower, tileAddress?_eq (by omega) (by omega) (by omega), ← hAddress, hDiv, hMod]
      exact ⟨_, rfl, by omega, rfl⟩
  · rename_i hSmall
    have hHeight := (spriteHeight_cases control).resolve_right hSmall
    rw [hHeight] at hRow
    rw [tileAddress?_eq hTable (by omega) hRow, ← toUInt16_parts]
    exact ⟨_, rfl, by omega, rfl⟩

/-! ### Fetching -/

def fetchSprite? (ppu : Ppu) (board : Board) (line : Nat) (index : Fin 64) (base top : Nat) :
    Option SpriteRow := do
  let tile ← ppu.oam[← add .size base 1]?
  let attributes ← ppu.oam[← add .size base 2]?
  let left ← ppu.oam[← add .size base 3]?
  let row ← spriteRow? ppu.control.spriteHeight line top attributes
  let address ← spritePatternAddress? ppu.control tile row
  let planes ← planes? board address
  return ⟨index, left.toNat, planes.1, planes.2, attributes⟩

theorem oam_get (ppu : Ppu) (i : Fin 64) {k : Nat} (hk : k < 4) :
    ppu.oam[i.val * 4 + k]? = some (ppu.oam.get ⟨4 * i.val + k, by omega⟩) := by
  rw [Nat.mul_comm]
  exact get_eq _ _

theorem spriteOnLine_iff (ppu : Ppu) (line : Nat) (i : Fin 64) :
    ppu.spriteOnLine line i = true ↔
      ppu.spriteTop i ≤ line ∧ line < ppu.spriteTop i + ppu.control.spriteHeight := by
  simp only [spriteOnLine, Bool.and_eq_true, decide_eq_true_eq]

theorem spriteRow?_eq {ppu : Ppu} {line : Nat} {i : Fin 64} (h : ppu.spriteOnLine line i) :
    spriteRow? ppu.control.spriteHeight line (ppu.spriteTop i) (ppu.spriteAttributes i) =
        some (ppu.spriteRow line i) ∧
      ppu.spriteRow line i < ppu.control.spriteHeight := by
  obtain ⟨hTop, hBottom⟩ := (ppu.spriteOnLine_iff line i).1 h
  unfold spriteRow? spriteRow
  rw [bind_eq (sub_eq hTop)]
  dsimp only
  split
  · rw [bind_eq (sub_eq (by omega)), sub_eq (by omega)]
    exact ⟨rfl, by omega⟩
  · exact ⟨rfl, by omega⟩

theorem fetchSprite?_eq {board : Board} (h : board.Sound) {ppu : Ppu} {line : Nat} {i : Fin 64}
    (hLine : ppu.spriteOnLine line i) :
    ppu.fetchSprite? board line i (i.val * 4) (ppu.spriteTop i) =
      some (ppu.fetchSprite board line i).1 := by
  obtain ⟨hRow, hRowLt⟩ := spriteRow?_eq hLine
  obtain ⟨address, hAddress, hFits, hPlace⟩ :=
    spritePatternAddress?_eq ppu.control (ppu.spriteTile i) hRowLt
  have hTile : ppu.oam[i.val * 4 + 1]? = some (ppu.spriteTile i) := ppu.oam_get i (by decide)
  have hAttributes : ppu.oam[i.val * 4 + 2]? = some (ppu.spriteAttributes i) :=
    ppu.oam_get i (by decide)
  rw [fetchSprite?, bind_eq (add_size (by omega)), bind_eq hTile, bind_eq (add_size (by omega)),
    bind_eq hAttributes, bind_eq (add_size (by omega)), bind_eq (ppu.oam_get i (by decide)),
    bind_eq hRow, bind_eq hAddress, bind_eq (planes?_eq h hFits), hPlace]
  rfl

theorem fetchSprites_board (ppu : Ppu) (board : Board) (line : Nat) (found : List (Fin 64)) :
    ppu.fetchSprites line found board =
      (found.map fun i => (ppu.fetchSprite board line i).1, board) := by
  induction found with
  | nil => rfl
  | cons i rest ih =>
    have hBoard : (ppu.fetchSprite board line i).2 = board := rfl
    rw [fetchSprites, List.map_cons]
    dsimp only
    rw [hBoard, ih]

/-! ### Painting -/

structure SpritePixel where
  entry : UInt8
  behind : Bool
  /-- The sprite is the first one of sprite memory. -/
  first : Bool

abbrev SpriteLine : Type :=
  Vector (Option SpritePixel) 256

def SpriteRow.shown (s : SpriteRow) (x : Nat) : SpritePixel :=
  ⟨s.entry x, s.behind, s.index.val == 0⟩

/-- What the first opaque one of some sprites shows in a column. -/
def shownAt (rows : List SpriteRow) (x : Nat) : Option SpritePixel :=
  (spriteAt rows x).map (·.shown x)

/-- The bit of a column of the pattern row: the highest one is on the left unless it is flipped. -/
def SpriteRow.bit? (s : SpriteRow) (column : Nat) : Option Nat :=
  if anyBit s.attributes 0x40 then some column else sub 7 column

/-- Paints a column of a sprite, unless it is transparent, beyond the edge or taken. -/
def paintSpriteColumn? (s : SpriteRow) (out : SpriteLine) (column : Nat) : Option SpriteLine := do
  let pixel ← patternBits? s.low s.high (← s.bit? column)
  let x ← add .size s.left column
  if pixel = 0 ∨ 256 ≤ x then return out
  else
    match ← out[x]? with
    | some _ => return out
    | none =>
      let palette ← shiftUp (s.attributes &&& 0x03) 2
      put out x (some ⟨0x10 ||| palette ||| pixel, s.behind, s.index.val == 0⟩)

section

variable {rows : List SpriteRow} {s : SpriteRow} {x : Nat}

theorem spriteAt_append : spriteAt (rows ++ [s]) x =
    (spriteAt rows x).or (if s.pixel x != 0 then some s else none) := by
  simp only [spriteAt, List.find?_append, List.find?_singleton]

theorem spriteAt_append_of_clear (h : s.pixel x = 0) :
    spriteAt (rows ++ [s]) x = spriteAt rows x := by
  simp [spriteAt_append, h]

theorem shownAt_append_of_clear (h : s.pixel x = 0) :
    shownAt (rows ++ [s]) x = shownAt rows x := by
  rw [shownAt, spriteAt_append_of_clear h, shownAt]

theorem shownAt_append_of_taken {p : SpritePixel} (h : shownAt rows x = some p) :
    shownAt (rows ++ [s]) x = some p := by
  rw [shownAt, Option.map_eq_some_iff] at h
  obtain ⟨r, hFound, hShown⟩ := h
  rw [shownAt, spriteAt_append, hFound, Option.some_or, Option.map_some, hShown]

theorem shownAt_append_of_free (h : shownAt rows x = none) (hPixel : s.pixel x ≠ 0) :
    shownAt (rows ++ [s]) x = some (s.shown x) := by
  rw [shownAt, Option.map_eq_none_iff] at h
  have hOpaque : (s.pixel x != 0) = true := bne_iff_ne.2 hPixel
  rw [shownAt, spriteAt_append, h, Option.none_or, if_pos hOpaque, Option.map_some]

theorem SpriteRow.pixel_outside (h : x < s.left ∨ s.left + 8 ≤ x) : s.pixel x = 0 :=
  if_neg (by omega)

theorem SpriteRow.pixel_inside {column : Nat} (h : column < 8) :
    s.pixel (s.left + column) = patternPixel s.low s.high
      (if anyBit s.attributes 0x40 then 7 - column else column) := by
  rw [pixel, if_pos (by omega), Nat.add_sub_cancel_left]

theorem SpriteRow.bit?_eq {column : Nat} (h : column < 8) :
    s.bit? column = some (7 - if anyBit s.attributes 0x40 then 7 - column else column) := by
  unfold bit?
  split
  · exact congrArg some (by omega)
  · exact sub_eq (by omega)

/-- The columns before the bound show the sprite where no other one does. -/
def SpritePainted (rows : List SpriteRow) (s : SpriteRow) (bound : Nat) (out : SpriteLine) :
    Prop :=
  ∀ x : Fin 256, out.get x =
    if x.val < s.left + bound then shownAt (rows ++ [s]) x.val else shownAt rows x.val

theorem SpritePainted.skip {column : Nat} {out : SpriteLine}
    (hOut : SpritePainted rows s column out)
    (hSame : ∀ x, x < 256 → x = s.left + column → shownAt (rows ++ [s]) x = shownAt rows x) :
    SpritePainted rows s (column + 1) out := by
  intro x
  rw [hOut x]
  by_cases hBefore : x.val < s.left + column
  · rw [if_pos hBefore, if_pos (by omega)]
  · rw [if_neg hBefore]
    split
    · exact (hSame x.val x.isLt (by omega)).symm
    · rfl

theorem SpritePainted.put {column : Nat} {out : SpriteLine}
    (hOut : SpritePainted rows s column out)
    (hx : s.left + column < 256) :
    SpritePainted rows s (column + 1)
      (out.set (s.left + column) (shownAt (rows ++ [s]) (s.left + column)) hx) := by
  intro x
  rw [get_set, hOut x]
  split
  · rename_i hSame
    rw [if_pos (by omega), hSame]
  · rename_i hOther
    by_cases hBefore : x.val < s.left + column
    · rw [if_pos hBefore, if_pos (by omega)]
    · rw [if_neg hBefore, if_neg (by omega)]

theorem paintSpriteColumn?_painted {column : Nat} {out : SpriteLine} (hLeft : s.left < 256)
    (hColumn : column < 8) (hOut : SpritePainted rows s column out) :
    ∃ out', paintSpriteColumn? s out column = some out' ∧
      SpritePainted rows s (column + 1) out' := by
  have hFlipped : (if anyBit s.attributes 0x40 then 7 - column else column) < 8 := by
    split <;> omega
  rw [paintSpriteColumn?, bind_eq (SpriteRow.bit?_eq hColumn),
    bind_eq (patternBits?_eq _ _ hFlipped), ← SpriteRow.pixel_inside hColumn, bind_eq (add_size (by omega))]
  by_cases hClear : s.pixel (s.left + column) = 0
  · refine ⟨out, if_pos (.inl hClear), hOut.skip ?_⟩
    rintro x - rfl
    exact shownAt_append_of_clear hClear
  by_cases hEdge : 256 ≤ s.left + column
  · exact ⟨out, if_pos (.inr hEdge), hOut.skip fun x hx hPlace => by omega⟩
  have hx : s.left + column < 256 := Nat.lt_of_not_le hEdge
  have hPlace : out[s.left + column]? = some (shownAt rows (s.left + column)) := by
    rw [get_eq out hx, hOut, if_neg (Nat.lt_irrefl _)]
  rw [if_neg (by simp only [hClear, hEdge, or_self, not_false_eq_true]), bind_eq hPlace]
  cases hTaken : shownAt rows (s.left + column) with
  | some p =>
    refine ⟨out, rfl, hOut.skip ?_⟩
    rintro x - rfl
    rw [shownAt_append_of_taken hTaken, hTaken]
  | none =>
    refine ⟨_, ?_, hOut.put hx⟩
    rw [shownAt_append_of_free hTaken hClear]
    refine (bind_eq (shiftUp_eq _ (by decide)) _).trans ?_
    exact put_eq out _ hx

def paintedLine (rows : List SpriteRow) : SpriteLine :=
  Vector.ofFn fun x => shownAt rows x.val

theorem paintedLine_nil : paintedLine [] = Vector.replicate 256 none :=
  (eq_ofFn fun x => by simp [shownAt, spriteAt, Vector.get]).symm

theorem paintSprite?_eq (hLeft : s.left < 256) :
    (List.range 8).foldlM (paintSpriteColumn? s) (paintedLine rows) =
      some (paintedLine (rows ++ [s])) := by
  have hStart : SpritePainted rows s 0 (paintedLine rows) := by
    intro x
    rw [paintedLine, show (Vector.ofFn fun x : Fin 256 => shownAt rows x.val).get x =
      shownAt rows x.val from Vector.getElem_ofFn x.isLt]
    split
    · exact (shownAt_append_of_clear (SpriteRow.pixel_outside (by omega))).symm
    · rfl
  obtain ⟨out, hRun, hOut⟩ := foldlM_range (f := paintSpriteColumn? s) (SpritePainted rows s)
    (n := 8) hStart fun column out hColumn hOut => paintSpriteColumn?_painted hLeft hColumn hOut
  rw [hRun]
  refine congrArg some (eq_ofFn fun x => ?_)
  rw [hOut x]
  split
  · rfl
  · exact (shownAt_append_of_clear (SpriteRow.pixel_outside (by omega))).symm

end

/-! ### The search -/

/-- Paints the sprites of a list that meet a line behind those already found, and tells whether
there was a ninth one. -/
def searchSprites? (ppu : Ppu) (board : Board) (line : Nat) :
    List (Fin 64) → Nat → SpriteLine → Option (Bool × SpriteLine)
  | [], _, out => some (false, out)
  | index :: rest, found, out => do
    let base ← mul .size index.val 4
    let top ← add .word (← ppu.oam[base]?).toNat 1
    let bottom ← add .word top ppu.control.spriteHeight
    if line < top ∨ bottom ≤ line then ppu.searchSprites? board line rest found out
    else
      let found ← add .double found 1
      if 8 < found then return (true, out)
      else
        let s ← ppu.fetchSprite? board line index base top
        let out ← (List.range 8).foldlM (paintSpriteColumn? s) out
        ppu.searchSprites? board line rest found out

/-- What one sprite does to the search: it is passed over, it ends the search as the ninth one, or
it is painted behind those already found. -/
theorem searchSprites?_step {board : Board} (h : board.Sound) (ppu : Ppu) (line : Nat) (i : Fin 64)
    (rest : List (Fin 64)) (rows : List SpriteRow) (hRows : rows.length ≤ 8) :
    ppu.searchSprites? board line (i :: rest) rows.length (paintedLine rows) =
      if ppu.spriteOnLine line i then
        if rows.length = 8 then some (true, paintedLine rows)
        else ppu.searchSprites? board line rest (rows.length + 1)
          (paintedLine (rows ++ [(ppu.fetchSprite board line i).1]))
      else ppu.searchSprites? board line rest rows.length (paintedLine rows) := by
  have hByte : ppu.oam[i.val * 4]? = some (ppu.oam.get ⟨4 * i.val, by omega⟩) :=
    ppu.oam_get i (by decide : 0 < 4)
  have hByteLt := (ppu.oam.get ⟨4 * i.val, by omega⟩).toNat_lt
  have hTop : add .word (ppu.oam.get ⟨4 * i.val, by omega⟩).toNat 1 = some (ppu.spriteTop i) :=
    add_word (by omega)
  have hTopLe : ppu.spriteTop i ≤ 0x100 := hByteLt
  have hHeight := spriteHeight_cases ppu.control
  rw [searchSprites?, bind_eq (mul_size (by omega)), bind_eq hByte, bind_eq hTop,
    bind_eq (add_word (by omega))]
  by_cases hLine : ppu.spriteOnLine line i
  · obtain ⟨hFrom, hTo⟩ := (ppu.spriteOnLine_iff line i).1 hLine
    have hLeft : (ppu.fetchSprite board line i).1.left < 256 :=
      (ppu.oam.get ⟨4 * i.val + 3, by omega⟩).toNat_lt
    rw [if_pos hLine, if_neg (by omega), bind_eq (add_double (by omega))]
    by_cases hFull : rows.length = 8
    · rw [if_pos hFull, if_pos (by omega)]
      rfl
    · rw [if_neg hFull, if_neg (by omega)]
      refine (bind_eq (fetchSprite?_eq h hLine) _).trans ?_
      rw [bind_eq (paintSprite?_eq hLeft)]
  · rw [if_neg hLine]
    rw [spriteOnLine_iff] at hLine
    rw [if_pos (by omega)]

theorem searchSprites?_eq {board : Board} (h : board.Sound) (ppu : Ppu) (line : Nat)
    (indices : List (Fin 64)) (rows : List SpriteRow) (hRows : rows.length ≤ 8) :
    ppu.searchSprites? board line indices rows.length (paintedLine rows) =
      some (decide (8 < rows.length + (indices.filter (ppu.spriteOnLine line)).length),
        paintedLine (rows ++ ((indices.filter (ppu.spriteOnLine line)).take (8 - rows.length)).map
          fun i => (ppu.fetchSprite board line i).1)) := by
  induction indices generalizing rows with
  | nil => simp [searchSprites?, hRows]
  | cons i rest ih =>
    rw [searchSprites?_step h ppu line i rest rows hRows]
    by_cases hLine : ppu.spriteOnLine line i
    · rw [if_pos hLine, List.filter_cons_of_pos hLine, List.length_cons]
      by_cases hFull : rows.length = 8
      · rw [if_pos hFull, hFull, Nat.sub_self, List.take_zero, List.map_nil, List.append_nil,
          decide_eq_true (by omega)]
      · have hLength : (rows ++ [(ppu.fetchSprite board line i).1]).length = rows.length + 1 :=
          List.length_append
        have hTake : 8 - rows.length = 8 - (rows.length + 1) + 1 := by omega
        have hRest := ih (rows ++ [(ppu.fetchSprite board line i).1]) (by omega)
        rw [hLength] at hRest
        rw [if_neg hFull, hRest, hTake, List.take_succ_cons, List.map_cons, List.append_assoc,
          List.singleton_append, Nat.add_assoc, Nat.add_comm 1]
    · rw [if_neg hLine, List.filter_cons_of_neg hLine, ih rows hRows]

/-- The sprites of a line are painted without refusal: the first eight of them show, and a ninth
one is noticed. -/
theorem paintSprites?_eq {board : Board} (h : board.Sound) (ppu : Ppu) (line : Nat) :
    ppu.searchSprites? board line (List.finRange 64) 0 (Vector.replicate 256 none) =
      some (decide (8 < (ppu.spritesOnLine line).length),
        paintedLine (ppu.fetchSprites line ((ppu.spritesOnLine line).take 8) board).1) := by
  have hSearch := searchSprites?_eq h ppu line (List.finRange 64) [] (by decide)
  rw [← paintedLine_nil, fetchSprites_board, spritesOnLine]
  simpa only [List.length_nil, Nat.zero_add, Nat.sub_zero, List.nil_append] using hSearch

end Famicom.Ppu

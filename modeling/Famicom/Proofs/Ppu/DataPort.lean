import Famicom.Proofs.Checked.Arithmetic
import Famicom.Proofs.Ppu.StatusFlags

/-!
# The data port

Behind the data register lie three memories: patterns on the cartridge, nametables and palettes.
Each address leads to a cell of one of them, and several addresses may lead to the same cell.
However the address is set and moved on, a cell holds what was last written to any of its
addresses.
-/

namespace Famicom.Ppu

/-! ### Cells -/

inductive Region where
  | patterns
  | nametables
  | palettes
  deriving DecidableEq

def regionOf (address : Nat) : Region :=
  if address < 0x2000 then .patterns else if address < 0x3F00 then .nametables else .palettes

/-- Where an address leads: the memory and the place in it. -/
def cellOf (board : Board) (address : Nat) : Region × Nat :=
  match regionOf address with
  | .patterns =>
    (.patterns, board.mapper.chrOffset board.chr.size address.toUInt16 % board.chr.size)
  | .nametables => (.nametables, (board.mirroring.nametableOffset address).val)
  | .palettes => (.palettes, (paletteIndex address).val)

def Region.keep : Region → UInt8 → UInt8
  | .palettes, value => value &&& 0x3F
  | _, value => value

/-- The byte in the cell of an address. -/
def contents (state : Ppu × Board) (address : Nat) : UInt8 :=
  match regionOf address with
  | .patterns => state.2.chrRead address.toUInt16
  | .nametables => state.1.nametables.get (state.2.mirroring.nametableOffset address)
  | .palettes => state.1.palette.get (paletteIndex address)

/-- Two boards whose addresses lead to the same cells. -/
structure SameLayout (a b : Board) : Prop where
  mapper : b.mapper = a.mapper
  wiring : b.wiring = a.wiring
  chrSize : b.chr.size = a.chr.size
  chrWritable : b.chrWritable = a.chrWritable

theorem SameLayout.mirroring {a b : Board} (h : SameLayout a b) : b.mirroring = a.mirroring := by
  simp only [Board.mirroring, h.mapper, h.wiring]

theorem SameLayout.cellOf {a b : Board} (h : SameLayout a b) (address : Nat) :
    cellOf b address = Ppu.cellOf a address := by
  simp only [Ppu.cellOf, h.mirroring, h.mapper, h.chrSize]

theorem SameLayout.trans {a b c : Board} (h : SameLayout a b) (h' : SameLayout b c) :
    SameLayout a c where
  mapper := h'.mapper.trans h.mapper
  wiring := h'.wiring.trans h.wiring
  chrSize := h'.chrSize.trans h.chrSize
  chrWritable := h'.chrWritable.trans h.chrWritable

theorem sameLayout_chrWrite (board : Board) (address : UInt16) (value : UInt8) :
    SameLayout board (board.chrWrite address value) := by
  unfold Board.chrWrite
  split
  · exact ⟨rfl, rfl, by simp, rfl⟩
  · exact ⟨rfl, rfl, rfl, rfl⟩

theorem sameLayout_vramWrite (ppu : Ppu) (board : Board) (address : Nat) (value : UInt8) :
    SameLayout board (ppu.vramWrite board address value).2 := by
  unfold vramWrite
  split
  · exact sameLayout_chrWrite board _ value
  · split <;> exact ⟨rfl, rfl, rfl, rfl⟩

theorem cellOf_fst (board : Board) (address : Nat) :
    (cellOf board address).1 = regionOf address := by
  unfold cellOf
  split <;> simp_all

/-! ### Writes to cells -/

theorem chrRead_chrWrite (board : Board) (a b : UInt16) (value : UInt8) :
    (board.chrWrite b value).chrRead a =
      if board.chrIndex b = board.chrIndex a ∧ board.chrWritable = true then value
      else board.chrRead a := by
  by_cases hRam : board.chrWritable = true
  · have hPlace : ((board.chrWrite b value).chrIndex a).val = (board.chrIndex a).val := by
      have hSame := sameLayout_chrWrite board b value
      show (board.chrWrite b value).mapper.chrOffset _ a % _ = board.mapper.chrOffset _ a % _
      rw [hSame.mapper, hSame.chrSize]
    have hChr : (board.chrWrite b value).chr = board.chr.set (board.chrIndex b) value := by
      unfold Board.chrWrite
      rw [if_pos hRam]
    have hAfter : (board.chrWrite b value).chr[((board.chrWrite b value).chrIndex a).val]? =
        some ((board.chrWrite b value).chrRead a) := Array.getElem?_eq_getElem _
    have hBefore : board.chr[(board.chrIndex a).val]? = some (board.chrRead a) :=
      Array.getElem?_eq_getElem _
    rw [hPlace, hChr, Array.getElem?_set] at hAfter
    by_cases hCell : board.chrIndex b = board.chrIndex a
    · rw [if_pos (congrArg Fin.val hCell)] at hAfter
      rw [if_pos ⟨hCell, hRam⟩]
      exact (Option.some.inj hAfter).symm
    · rw [if_neg fun h => hCell (Fin.ext h), hBefore] at hAfter
      rw [if_neg fun h => hCell h.1]
      exact (Option.some.inj hAfter).symm
  · have hSame : board.chrWrite b value = board := by
      unfold Board.chrWrite
      rw [if_neg hRam]
    rw [hSame, if_neg fun h => hRam h.2]

theorem vramRead_eq (ppu : Ppu) (board : Board) (a : Nat) :
    ppu.vramRead board a = (contents (ppu, board) a, board) := by
  simp only [contents, vramRead, regionOf]
  split_ifs <;> rfl

theorem vramWrite_region (ppu : Ppu) (board : Board) (b : Nat) (value : UInt8) :
    ppu.vramWrite board b value =
      match regionOf b with
      | .patterns => (ppu, board.chrWrite b.toUInt16 value)
      | .nametables =>
        let i := board.mirroring.nametableOffset b
        ({ ppu with nametables := ppu.nametables.set i value i.isLt }, board)
      | .palettes =>
        let i := paletteIndex b
        ({ ppu with palette := ppu.palette.set i (value &&& 0x3F) i.isLt }, board) := by
  simp only [vramWrite, regionOf]
  split_ifs <;> rfl

/-- A write changes the cell of its address, if that can be written, and no other. -/
theorem contents_vramWrite (ppu : Ppu) (board : Board) (a b : Nat) (value : UInt8) :
    contents (ppu.vramWrite board b value) a =
      if cellOf board b = cellOf board a ∧ (regionOf a = .patterns → board.chrWritable = true) then
        (regionOf a).keep value
      else contents (ppu, board) a := by
  have hApart (hRegions : regionOf b ≠ regionOf a) : cellOf board b ≠ cellOf board a := by
    intro hSame
    rw [← cellOf_fst board b, ← cellOf_fst board a, hSame] at hRegions
    exact hRegions rfl
  rw [vramWrite_region, contents, contents]
  cases hb : regionOf b with
  | patterns =>
    cases ha : regionOf a with
    | patterns =>
      have hCells : cellOf board b = cellOf board a ↔
          board.chrIndex b.toUInt16 = board.chrIndex a.toUInt16 := by
        simp only [cellOf, ha, hb, Prod.mk.injEq, true_and, Fin.ext_iff, Board.chrIndex]
      simp only [chrRead_chrWrite, hCells, true_implies, Region.keep]
    | nametables =>
      rw [if_neg fun h => hApart (by simp [ha, hb]) h.1]
      simp only [(sameLayout_chrWrite board b.toUInt16 value).mirroring]
    | palettes =>
      rw [if_neg fun h => hApart (by simp [ha, hb]) h.1]
  | nametables =>
    cases ha : regionOf a with
    | patterns => rw [if_neg fun h => hApart (by simp [ha, hb]) h.1]
    | nametables =>
      have hCells : cellOf board b = cellOf board a ↔
          (board.mirroring.nametableOffset b).val = (board.mirroring.nametableOffset a).val := by
        simp only [cellOf, ha, hb, Prod.mk.injEq, true_and]
      simp [Checked.get_set, hCells, Region.keep]
    | palettes => rw [if_neg fun h => hApart (by simp [ha, hb]) h.1]
  | palettes =>
    cases ha : regionOf a with
    | patterns => rw [if_neg fun h => hApart (by simp [ha, hb]) h.1]
    | nametables => rw [if_neg fun h => hApart (by simp [ha, hb]) h.1]
    | palettes =>
      have hCells : cellOf board b = cellOf board a ↔
          (paletteIndex b).val = (paletteIndex a).val := by
        simp only [cellOf, ha, hb, Prod.mk.injEq, true_and]
      simp [Checked.get_set, hCells, Region.keep]

/-! ### Accesses -/

inductive PortAccess where
  /-- Writes the control register, which selects the distance between addresses. -/
  | select (value : UInt8)
  /-- Reads the status register and writes both bytes of an address. -/
  | seek (high low : UInt8)
  | put (value : UInt8)
  deriving DecidableEq

def PortAccess.operations : PortAccess → List (Operation Board)
  | .select value => [.write 0x2000 value]
  | .seek high low => [.read 0x2002, .write 0x2006 high, .write 0x2006 low]
  | .put value => [.write 0x2007 value]

def access (state : Ppu × Board) (made : PortAccess) : Ppu × Board :=
  performAll state made.operations

def accessAll (state : Ppu × Board) (accesses : List PortAccess) : Ppu × Board :=
  accesses.foldl access state

def target (high low : UInt8) : Nat :=
  high.toNat % 64 * 256 + low.toNat

/-- The address of the next byte and the distance to the one after it. -/
structure Cursor where
  address : Nat
  step : Nat
  deriving DecidableEq

def Cursor.after (cursor : Cursor) : PortAccess → Cursor
  | .select value => { cursor with step := if value.toNat / 4 % 2 = 1 then 32 else 1 }
  | .seek high low => { cursor with address := target high low }
  | .put _ => { cursor with address := cursor.address + cursor.step }

def written (cursor : Cursor) : List PortAccess → List (Nat × UInt8)
  | [] => []
  | .put value :: rest =>
    (cursor.address % 0x4000, value) :: written (cursor.after (.put value)) rest
  | made :: rest => written (cursor.after made) rest

def cursor (ppu : Ppu) : Cursor :=
  ⟨ppu.vramAddress, ppu.control.vramStep⟩

structure Cursor.Tracks (cursor : Cursor) (ppu : Ppu) : Prop where
  address : cursor.address % 0x4000 = ppu.vramAddress
  step : cursor.step = ppu.control.vramStep

theorem tracks_cursor (ppu : Ppu) : ppu.cursor.Tracks ppu :=
  ⟨Nat.mod_eq_of_lt (Nat.mod_lt _ (by decide)), rfl⟩

theorem access_seek (ppu : Ppu) (board : Board) (high low : UInt8) :
    access (ppu, board) (.seek high low) =
      ({ ppu with
          status := ppu.status.clear Status.vblankMask
          scroll := { ppu.scroll with
            current := .ofNat (target high low)
            pending := .ofNat (target high low)
            second := false }
          openBus := low },
        board) := by
  have hPending : (VramAddress.ofNat
      (high.toNat % 64 * 256 + ppu.scroll.pending.toNat % 256)).toNat / 256 * 256 + low.toNat =
      target high low := by
    rw [VramAddress.toNat_ofNat, target]
    omega
  rw [← hPending]
  rfl

theorem access_put (ppu : Ppu) (board : Board) (value : UInt8) :
    access (ppu, board) (.put value) =
      ((vramWrite { ppu with openBus := value } board ppu.vramAddress value).1.stepAddress,
        (vramWrite { ppu with openBus := value } board ppu.vramAddress value).2) :=
  rfl

theorem vramStep_eq (value : UInt8) :
    (Control.mk value).vramStep = if value.toNat / 4 % 2 = 1 then 32 else 1 := by
  have hBit : anyBit value 0x04 = true ↔ value.toNat / 2 ^ 2 % 2 = 1 := anyBit_single rfl
  simp only [Control.vramStep, hBit, Nat.reducePow]

theorem vramAddress_stepAddress (ppu : Ppu) :
    ppu.stepAddress.vramAddress = (ppu.vramAddress + ppu.control.vramStep) % 0x4000 := by
  simp only [vramAddress, stepAddress, Scroll.increment, VramAddress.toNat_ofNat]
  omega

/-- One access moves the cursor on, keeps the layout of the board and changes the cells that it
writes. -/
theorem Cursor.Tracks.access {cursor : Cursor} {state : Ppu × Board} (h : cursor.Tracks state.1)
    (made : PortAccess) :
    (cursor.after made).Tracks (access state made).1 ∧
      SameLayout state.2 (Ppu.access state made).2 := by
  obtain ⟨ppu, board⟩ := state
  cases made with
  | select value => exact ⟨⟨h.address, (vramStep_eq value).symm⟩, rfl, rfl, rfl, rfl⟩
  | seek high low =>
    rw [access_seek]
    refine ⟨⟨?_, h.step⟩, rfl, rfl, rfl, rfl⟩
    have hLow := low.toNat_lt
    simp only [Cursor.after, vramAddress, VramAddress.toNat_ofNat]
    unfold target
    omega
  | put value =>
    rw [access_put]
    obtain ⟨nametables, palette, hWrite⟩ :=
      vramWrite_eq { ppu with openBus := value } board ppu.vramAddress value
    refine ⟨⟨?_, ?_⟩, sameLayout_vramWrite _ board _ value⟩
    · have hAddress := h.address
      have hStep := h.step
      rw [vramAddress_stepAddress, hWrite]
      show (cursor.address + cursor.step) % 0x4000 =
        (ppu.vramAddress + ppu.control.vramStep) % 0x4000
      rw [← hAddress, ← hStep]
      omega
    · rw [hWrite]
      exact h.step

theorem contents_put {cursor : Cursor} {state : Ppu × Board} (h : cursor.Tracks state.1)
    (value : UInt8) (a : Nat) :
    contents (access state (.put value)) a =
      if cellOf state.2 (cursor.address % 0x4000) = cellOf state.2 a ∧
          (regionOf a = .patterns → state.2.chrWritable = true) then
        (regionOf a).keep value
      else contents state a := by
  obtain ⟨ppu, board⟩ := state
  rw [h.address, access_put]
  exact contents_vramWrite { ppu with openBus := value } board a ppu.vramAddress value

theorem tracks_accessAll {cursor : Cursor} {state : Ppu × Board} (h : cursor.Tracks state.1)
    (accesses : List PortAccess) :
    (accesses.foldl Cursor.after cursor).Tracks (accessAll state accesses).1 ∧
      SameLayout state.2 (accessAll state accesses).2 := by
  induction accesses generalizing cursor state with
  | nil => exact ⟨h, rfl, rfl, rfl, rfl⟩
  | cons made rest ih =>
    obtain ⟨hNext, hLayout⟩ := h.access made
    obtain ⟨hEnd, hRest⟩ := ih hNext
    exact ⟨hEnd, hLayout.trans hRest⟩

def writtenTo (board : Board) (a : Nat) (writes : List (Nat × UInt8)) : List UInt8 :=
  (writes.filter fun w => cellOf board w.1 = cellOf board a).map Prod.snd

theorem writtenTo_region (board : Board) (a : Nat) (writes : List (Nat × UInt8)) :
    writtenTo board a (writes.filter fun w => regionOf w.1 = regionOf a) =
      writtenTo board a writes := by
  unfold writtenTo
  rw [List.filter_filter]
  congr 1
  refine List.filter_congr fun w _ => ?_
  rw [← cellOf_fst board w.1, ← cellOf_fst board a, Bool.eq_iff_iff]
  simp only [Bool.and_eq_true, decide_eq_true_eq]
  exact ⟨fun h => h.1, fun h => ⟨h, congrArg Prod.fst h⟩⟩

/-- A cell that can be written holds what was last written to it. -/
theorem contents_accessAll {cursor : Cursor} {state : Ppu × Board} {board : Board}
    (h : cursor.Tracks state.1) (hLayout : SameLayout board state.2) {a : Nat}
    (hWritable : regionOf a = .patterns → board.chrWritable = true)
    (accesses : List PortAccess) :
    contents (accessAll state accesses) a =
      ((writtenTo board a (written cursor accesses)).getLast?.map (regionOf a).keep).getD
        (contents state a) := by
  induction accesses generalizing cursor state with
  | nil => rfl
  | cons made rest ih =>
    obtain ⟨hNext, hKept⟩ := h.access made
    have hRest := ih hNext (hLayout.trans hKept)
    refine hRest.trans ?_
    cases made with
    | select value => rfl
    | seek high low => rfl
    | put value =>
      rw [contents_put h, hLayout.cellOf, hLayout.cellOf, hLayout.chrWritable]
      by_cases hCell : cellOf board (cursor.address % 0x4000) = cellOf board a
      · have hFirst : writtenTo board a (written cursor (.put value :: rest)) =
            value :: writtenTo board a (written (cursor.after (.put value)) rest) := by
          simp [written, writtenTo, hCell]
        -- a later write to the cell takes the place of this one
        rw [if_pos ⟨hCell, hWritable⟩, hFirst, List.getLast?_cons]
        cases (writtenTo board a (written (cursor.after (.put value)) rest)).getLast? <;> rfl
      · simp [written, writtenTo, hCell]

theorem contents_accessAll_rom {cursor : Cursor} {state : Ppu × Board}
    (h : cursor.Tracks state.1) (hRom : state.2.chrWritable = false) {a : Nat}
    (hPatterns : regionOf a = .patterns) (accesses : List PortAccess) :
    contents (accessAll state accesses) a = contents state a := by
  induction accesses generalizing cursor state with
  | nil => rfl
  | cons made rest ih =>
    obtain ⟨hNext, hKept⟩ := h.access made
    refine (ih hNext (hKept.chrWritable.trans hRom)).trans ?_
    cases made with
    | select value => rfl
    | seek high low => rfl
    | put value => rw [contents_put h, if_neg (by simp [hPatterns, hRom])]

/-! ### Reads -/

def nextBytes (ppu : Ppu) (board : Board) : UInt8 × UInt8 :=
  let (first, ppu, board) := ppu.readRegister board 0x2007
  (first, (ppu.readRegister board 0x2007).1)

def fetched (state : Ppu × Board) (high low : UInt8) : UInt8 × UInt8 :=
  let sought := access state (.seek high low)
  sought.1.nextBytes sought.2

theorem target_lt (high low : UInt8) : target high low < 0x4000 := by
  have hLow := low.toNat_lt
  unfold target
  omega

theorem readData_below {ppu : Ppu} (board : Board) (h : ppu.vramAddress < 0x3F00) :
    ppu.readData board = (ppu.readBuffer,
      { ppu with readBuffer := contents (ppu, board) ppu.vramAddress }.stepAddress, board) := by
  unfold readData
  rewrite [if_neg (Nat.not_le.2 h), vramRead_eq]
  rfl

theorem readRegister_data (ppu : Ppu) (board : Board) :
    ppu.readRegister board 0x2007 = ((ppu.readData board).1,
      { (ppu.readData board).2.1 with openBus := (ppu.readData board).1 },
      (ppu.readData board).2.2) :=
  rfl

theorem readData_buffer {ppu : Ppu} (board : Board) (h : ppu.vramAddress < 0x3F00) :
    (ppu.readData board).1 = ppu.readBuffer := by
  rw [readData_below board h]

/-- Away from the palettes the register gives each byte one read late. -/
theorem nextBytes_second {ppu : Ppu} {board : Board}
    (h : ppu.vramAddress + ppu.control.vramStep < 0x3F00) :
    (ppu.nextBytes board).2 = contents (ppu, board) ppu.vramAddress := by
  have hHere : ppu.vramAddress < 0x3F00 := by omega
  have hMoved := vramAddress_stepAddress ppu
  rw [Nat.mod_eq_of_lt (by omega)] at hMoved
  have hNext : ppu.stepAddress.vramAddress < 0x3F00 := hMoved ▸ h
  simp only [nextBytes, readRegister_data, readData_below board hHere]
  exact readData_buffer board hNext

theorem readData_palette {ppu : Ppu} (board : Board) (h : 0x3F00 ≤ ppu.vramAddress) :
    (ppu.readData board).1 =
      ppu.palette.get (paletteIndex ppu.vramAddress) &&& 0x3F ||| ppu.openBus &&& 0xC0 := by
  unfold readData
  rewrite [if_pos h, vramRead_eq]
  rfl

/-- A palette entry comes at once, below two bits left over on the bus. -/
theorem nextBytes_first {ppu : Ppu} {board : Board} (h : 0x3F00 ≤ ppu.vramAddress) :
    (ppu.nextBytes board).1 &&& 0x3F = contents (ppu, board) ppu.vramAddress &&& 0x3F := by
  have hRegion : regionOf ppu.vramAddress = .palettes := by
    unfold regionOf
    rw [if_neg (by omega), if_neg (by omega)]
  have hMasks : (0xC0 : UInt8) &&& 0x3F = 0 := by decide
  simp only [nextBytes, readRegister_data, readData_palette board h, contents, hRegion]
  rw [or_and_distrib, UInt8.and_assoc, UInt8.and_assoc, hMasks, UInt8.and_self, UInt8.and_zero,
    UInt8.or_zero]

theorem seek_kept (state : Ppu × Board) (high low : UInt8) :
    (access state (.seek high low)).1.control = state.1.control ∧
      (access state (.seek high low)).1.vramAddress = target high low ∧
      ∀ a, contents (access state (.seek high low)) a = contents state a := by
  have hBelow := target_lt high low
  obtain ⟨ppu, board⟩ := state
  rw [access_seek]
  refine ⟨rfl, ?_, fun _ => rfl⟩
  simp only [vramAddress, VramAddress.toNat_ofNat]
  omega

theorem fetched_second {state : Ppu × Board} {high low : UInt8}
    (h : target high low + state.1.control.vramStep < 0x3F00) :
    (fetched state high low).2 = contents state (target high low) := by
  obtain ⟨hControl, hAddress, hContents⟩ := seek_kept state high low
  rw [← hControl, ← hAddress] at h
  rw [← hContents, ← hAddress, fetched]
  exact nextBytes_second h

theorem fetched_first {state : Ppu × Board} {high low : UInt8} (h : 0x3F00 ≤ target high low) :
    (fetched state high low).1 &&& 0x3F = contents state (target high low) &&& 0x3F := by
  obtain ⟨-, hAddress, hContents⟩ := seek_kept state high low
  rw [← hAddress] at h
  rw [← hContents, ← hAddress, fetched]
  exact nextBytes_first h

section AfterAccesses

variable {ppu : Ppu} {board : Board} {accesses : List PortAccess} {high low : UInt8}

theorem regionOf_ne_patterns {a : Nat} (h : 0x2000 ≤ a) : regionOf a ≠ .patterns := by
  unfold regionOf
  rw [if_neg (Nat.not_lt.2 h)]
  split <;> nofun

theorem accessAll_follows (ppu : Ppu) (board : Board) (accesses : List PortAccess) :
    (accesses.foldl Cursor.after ppu.cursor).Tracks (accessAll (ppu, board) accesses).1 ∧
      SameLayout board (accessAll (ppu, board) accesses).2 :=
  tracks_accessAll ppu.tracks_cursor accesses

theorem fetched_step
    (h : target high low + (accesses.foldl Cursor.after ppu.cursor).step < 0x3F00) :
    (fetched (accessAll (ppu, board) accesses) high low).2 =
      contents (accessAll (ppu, board) accesses) (target high low) := by
  rw [(accessAll_follows ppu board accesses).1.step] at h
  exact fetched_second h

theorem fetched_written
    (h : target high low + (accesses.foldl Cursor.after ppu.cursor).step < 0x3F00)
    (hWritable : 0x2000 ≤ target high low ∨ board.chrWritable = true) :
    (fetched (accessAll (ppu, board) accesses) high low).2 =
      (writtenTo board (target high low) (written ppu.cursor accesses)).getLast?.getD
        (contents (ppu, board) (target high low)) := by
  have hCell : regionOf (target high low) = .patterns → board.chrWritable = true := fun hPatterns =>
    hWritable.resolve_left fun hAbove => regionOf_ne_patterns hAbove hPatterns
  have hKeep : (regionOf (target high low)).keep = id := by
    unfold regionOf
    split_ifs
    · rfl
    · rfl
    · omega
  rw [fetched_step h, contents_accessAll ppu.tracks_cursor ⟨rfl, rfl, rfl, rfl⟩ hCell accesses,
    hKeep, Option.map_id, id]

theorem fetched_rom
    (h : target high low + (accesses.foldl Cursor.after ppu.cursor).step < 0x3F00)
    (hBelow : target high low < 0x2000) (hRom : board.chrWritable = false) :
    (fetched (accessAll (ppu, board) accesses) high low).2 =
      board.chrRead (target high low).toUInt16 := by
  have hPatterns : regionOf (target high low) = .patterns := if_pos hBelow
  rw [fetched_step h, contents_accessAll_rom ppu.tracks_cursor hRom hPatterns accesses, contents,
    hPatterns]

theorem fetched_palette (h : 0x3F00 ≤ target high low) :
    (fetched (accessAll (ppu, board) accesses) high low).1 &&& 0x3F =
      (writtenTo board (target high low) (written ppu.cursor accesses)).getLast?.getD
        (contents (ppu, board) (target high low)) &&& 0x3F := by
  have hPalettes : regionOf (target high low) = .palettes := by
    unfold regionOf
    rw [if_neg (by omega), if_neg (by omega)]
  have hCell : regionOf (target high low) = .patterns → board.chrWritable = true := by
    rw [hPalettes]
    nofun
  rw [fetched_first h, contents_accessAll ppu.tracks_cursor ⟨rfl, rfl, rfl, rfl⟩ hCell accesses,
    hPalettes]
  cases (writtenTo board (target high low) (written ppu.cursor accesses)).getLast? with
  | none => rfl
  | some value =>
    show value &&& 0x3F &&& 0x3F = value &&& 0x3F
    rw [UInt8.and_assoc, UInt8.and_self]

end AfterAccesses

/-- Whatever the accesses, the bytes read back are those written last to the cells, pattern ROM
gives what it holds, and writes to one memory do not show in another. -/
theorem data_port_keeps_last_write (ppu : Ppu) (board : Board) (accesses : List PortAccess)
    (high low : UInt8) :
    let a := target high low
    let state := accessAll (ppu, board) accesses
    let bytes := fetched state high low
    let last := (writtenTo board a (written ppu.cursor accesses)).getLast?
    let step := (accesses.foldl Cursor.after ppu.cursor).step
    (a + step < 0x3F00 → 0x2000 ≤ a ∨ board.chrWritable = true →
        bytes.2 = last.getD (contents (ppu, board) a)) ∧
      (a + step < 0x3F00 → a < 0x2000 → board.chrWritable = false →
        bytes.2 = board.chrRead a.toUInt16) ∧
      (0x3F00 ≤ a → bytes.1 &&& 0x3F = last.getD (contents (ppu, board) a) &&& 0x3F) ∧
      state.2.mapper = board.mapper ∧
      ∀ others, ((written ppu.cursor others).filter fun w => regionOf w.1 = regionOf a) =
          ((written ppu.cursor accesses).filter fun w => regionOf w.1 = regionOf a) →
        let bytes' := fetched (accessAll (ppu, board) others) high low
        (a + step < 0x3F00 → a + (others.foldl Cursor.after ppu.cursor).step < 0x3F00 →
            bytes'.2 = bytes.2) ∧
          (0x3F00 ≤ a → bytes'.1 &&& 0x3F = bytes.1 &&& 0x3F) := by
  intro a state bytes last step
  refine ⟨fetched_written, fetched_rom, fetched_palette, ?_, ?_⟩
  · exact (accessAll_follows ppu board accesses).2.mapper
  · intro others hSame bytes'
    have hLast : (writtenTo board a (written ppu.cursor others)).getLast? = last := by
      rw [← writtenTo_region, hSame, writtenTo_region]
    refine ⟨fun hStep hStep' => ?_, fun hPalette => ?_⟩
    · by_cases hRom : a < 0x2000 ∧ board.chrWritable = false
      · exact (fetched_rom hStep' hRom.1 hRom.2).trans (fetched_rom hStep hRom.1 hRom.2).symm
      · have hWritable : 0x2000 ≤ a ∨ board.chrWritable = true := by
          rw [← Nat.not_lt, ← Bool.not_eq_false]
          exact Decidable.not_and_iff_not_or_not.1 hRom
        rw [fetched_written hStep hWritable, fetched_written hStep' hWritable]
        exact congrArg (·.getD (contents (ppu, board) a)) hLast
    · rw [fetched_palette hPalette, fetched_palette hPalette]
      exact congrArg (·.getD (contents (ppu, board) a) &&& 0x3F) hLast

/-- A byte written just below the palettes is found again in the table that it mirrors, and the
next one, already a palette entry, is overwritten through the mirror of its entry. -/
theorem data_port_keeps_last_write_across_regions :
    let board := Board.powerOn ⟨Array.replicate 0x4000 0xEA, #[], .nrom, .vertical, false, none,
      by rw [Array.size_replicate]; decide⟩
    let accesses : List PortAccess :=
      [.select 0x10, .seek 0x3E 0xFF, .put 0x9A, .put 0x4D, .seek 0xFF 0x10, .put 0x62]
    (fetched (accessAll (powerOn, board) accesses) 0x2E 0xFF).2 = 0x9A ∧
      (fetched (accessAll (powerOn, board) accesses) 0x3F 0x00).1 &&& 0x3F = 0x22 := by
  intro board accesses
  obtain ⟨hNametable, -⟩ := data_port_keeps_last_write powerOn board accesses 0x2E 0xFF
  obtain ⟨-, -, hPalette, -⟩ := data_port_keeps_last_write powerOn board accesses 0x3F 0x00
  exact ⟨(hNametable (by decide) (by decide)).trans (by decide),
    (hPalette (by decide)).trans (by decide)⟩

end Famicom.Ppu

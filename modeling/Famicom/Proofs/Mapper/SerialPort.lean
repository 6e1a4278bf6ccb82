import Famicom.Proofs.Bits
import Famicom.Proofs.Mapper.History
import Mathlib.Data.Nat.Digits.Lemmas

/-!
# The serial port of MMC1

A history of writes is decoded without a shift register: writes with bit 7 set cut it in
stretches, and the writes of a stretch are taken five at a time.  Each five load one register, and
each cut fixes the last program bank at the top.  The chip does the same write by write.  What ties
the two together is the part of a group that the chip holds: its length and, read as a number, its
bits.
-/

namespace Famicom.Mapper

namespace Mmc1

/-! ### Decoding a history -/

/-- Bit 7 is set: the write cuts the history. -/
def cuts (w : RegisterWrite) : Bool :=
  decide (128 ≤ w.value.toNat)

/-- The number whose bits some writes carry, the lowest first. -/
def number (ws : List RegisterWrite) : Nat :=
  Nat.ofDigits 2 (ws.map fun w => w.value.toNat % 2)

inductive Event where
  | cut
  /-- A group of five, the last of which went to the address. -/
  | load (address : UInt16) (number : Nat)
  deriving DecidableEq

/-- The complete groups of a stretch without cuts. -/
def loads : List RegisterWrite → List Event
  | a :: b :: c :: d :: e :: rest => .load e.address (number [a, b, c, d, e]) :: loads rest
  | _ => []

/-- The events of a history: the groups of its stretches, with the cuts between them. -/
def events (ws : List RegisterWrite) : List Event :=
  [Event.cut].intercalate ((ws.splitOnP cuts).map loads)

structure Registers where
  control : Nat
  chr0 : Nat
  chr1 : Nat
  prg : Nat
  deriving DecidableEq

def Registers.after (r : Registers) : Event → Registers
  | .cut => { r with control := r.control ||| 0x0C }
  | .load address n =>
    if address.toNat < 0xA000 then { r with control := n }
    else if address.toNat < 0xC000 then { r with chr0 := n }
    else if address.toNat < 0xE000 then { r with chr1 := n }
    else { r with prg := n % 16 }

def registers (chip : Mmc1) : Registers :=
  ⟨chip.control.toNat, chip.chr0.toNat, chip.chr1.toNat, chip.prg.toNat⟩

def writeAll (chip : Mmc1) (ws : List RegisterWrite) : Mmc1 :=
  ws.foldl (fun chip w => chip.write w.address w.value) chip

/-! ### Groups -/

theorem number_lt (ws : List RegisterWrite) : number ws < 2 ^ ws.length := by
  have hBits : ∀ x ∈ ws.map (fun w => w.value.toNat % 2), x < 2 := by
    intro x hx
    obtain ⟨w, -, rfl⟩ := List.mem_map.1 hx
    exact Nat.mod_lt _ (by decide)
  have hBound := Nat.ofDigits_lt_base_pow_length (by decide) hBits
  rwa [List.length_map] at hBound

theorem number_concat (ws : List RegisterWrite) (w : RegisterWrite) :
    number (ws ++ [w]) = number ws + 2 ^ ws.length * (w.value.toNat % 2) := by
  simp only [number, List.map_append, List.map_cons, List.map_nil, Nat.ofDigits_append,
    Nat.ofDigits_singleton, List.length_map]

theorem loads_short {ws : List RegisterWrite} (h : ws.length ≤ 4) : loads ws = [] := by
  match ws, h with
  | [], _ => rfl
  | [_], _ => rfl
  | [_, _], _ => rfl
  | [_, _, _], _ => rfl
  | [_, _, _, _], _ => rfl

theorem loads_group {held : List RegisterWrite} (h : held.length = 4) (w : RegisterWrite)
    (rest : List RegisterWrite) :
    loads (held ++ w :: rest) = .load w.address (number (held ++ [w])) :: loads rest := by
  match held, h with
  | [_, _, _, _], _ => rfl

theorem splitOnP_append {ws : List RegisterWrite} (h : ∀ w ∈ ws, cuts w = false)
    (rest : List RegisterWrite) :
    (ws ++ rest).splitOnP cuts = (rest.splitOnP cuts).modifyHead (ws ++ ·) := by
  induction ws with
  | nil => exact (congrFun List.modifyHead_id _).symm
  | cons w ws ih =>
    have hWs : ∀ v ∈ ws, cuts v = false := fun v hv => h v (List.mem_cons_of_mem _ hv)
    have hFirst : cuts w = false := h w List.mem_cons_self
    rw [List.cons_append, List.splitOnP_cons_eq_if_modifyHead, ih hWs, hFirst]
    simp [Function.comp_def]

theorem events_short {held : List RegisterWrite} (hPlain : ∀ w ∈ held, cuts w = false)
    (hShort : held.length ≤ 4) : events held = [] := by
  have hSplit := splitOnP_append hPlain []
  rw [List.append_nil, List.splitOnP_nil] at hSplit
  simp [events, hSplit, loads_short hShort]

theorem events_cut {held : List RegisterWrite} (hPlain : ∀ w ∈ held, cuts w = false)
    (hShort : held.length ≤ 4) {w : RegisterWrite} (hCut : cuts w = true)
    (rest : List RegisterWrite) : events (held ++ w :: rest) = .cut :: events rest := by
  have hSplit := splitOnP_append hPlain (w :: rest)
  rw [List.splitOnP_cons_eq_if_modifyHead, if_pos hCut] at hSplit
  obtain ⟨first, later, hRest⟩ := List.exists_cons_of_ne_nil (List.splitOnP_ne_nil cuts rest)
  simp [events, hSplit, hRest, loads_short hShort]

theorem events_group {held : List RegisterWrite} (hPlain : ∀ w ∈ held, cuts w = false)
    (hFour : held.length = 4) {w : RegisterWrite} (hBit : cuts w = false)
    (rest : List RegisterWrite) :
    events (held ++ w :: rest) = .load w.address (number (held ++ [w])) :: events rest := by
  have hSplit := splitOnP_append hPlain (w :: rest)
  rw [List.splitOnP_cons_eq_if_modifyHead, hBit] at hSplit
  obtain ⟨first, later, hRest⟩ := List.exists_cons_of_ne_nil (List.splitOnP_ne_nil cuts rest)
  have hGroup := loads_group hFour w first
  cases later with
  | nil => simp [events, hSplit, hRest, hGroup]
  | cons second later => simp [events, hSplit, hRest, hGroup]

/-! ### Writes -/

theorem anyBit_cut (w : RegisterWrite) : anyBit w.value 0x80 = cuts w := by
  have hValue := w.value.toNat_lt
  have hBit : anyBit w.value 0x80 = true ↔ w.value.toNat / 2 ^ 7 % 2 = 1 := anyBit_single rfl
  rw [Bool.eq_iff_iff, hBit, cuts, decide_eq_true_iff]
  omega

/-- The chip holds the part of a group: its length is counted and its bits are collected. -/
structure Holds (chip : Mmc1) (held : List RegisterWrite) : Prop where
  short : held.length ≤ 4
  plain : ∀ w ∈ held, cuts w = false
  count : chip.count.toNat = held.length
  shift : chip.shift.toNat = number held

theorem Holds.nil {chip : Mmc1} (hCount : chip.count = 0) (hShift : chip.shift = 0) :
    chip.Holds [] where
  short := by simp
  plain := by simp
  count := by rw [hCount]; rfl
  shift := by rw [hShift]; rfl

theorem Holds.shift_concat {chip : Mmc1} {held : List RegisterWrite} (h : chip.Holds held)
    (w : RegisterWrite) :
    (chip.shift ||| (w.value &&& 1) <<< chip.count).toNat = number (held ++ [w]) := by
  have hShort := h.short
  have hCount := h.count
  have hBit : (w.value &&& 1).toNat = w.value.toNat % 2 := by
    rw [UInt8.toNat_and]
    exact Nat.and_two_pow_sub_one_eq_mod w.value.toNat 1
  have hPower : 2 ^ held.length ≤ 2 ^ 4 := Nat.pow_le_pow_right (by decide) hShort
  have hLow : chip.shift.toNat < 2 ^ chip.count.toNat := by
    rw [h.shift, hCount]
    exact number_lt held
  have hHigh : (w.value &&& 1).toNat * 2 ^ chip.count.toNat < 256 := by
    rw [hBit, hCount]
    have hOne : w.value.toNat % 2 ≤ 1 := by omega
    have hMul := Nat.mul_le_mul hOne hPower
    omega
  rw [UInt8.or_comm, toNat_join (by omega) hLow hHigh, hBit, hCount, h.shift, number_concat,
    Nat.add_comm, Nat.mul_comm]

theorem write_cut (chip : Mmc1) {w : RegisterWrite} (hCut : cuts w = true) :
    (chip.write w.address w.value).Holds [] ∧
      (chip.write w.address w.value).registers = chip.registers.after .cut := by
  have hWrite : chip.write w.address w.value =
      { chip with shift := 0, count := 0, control := chip.control ||| 0x0C } := by
    simp [write, anyBit_cut, hCut]
  rw [hWrite]
  exact ⟨.nil rfl rfl, by simp [registers, Registers.after]⟩

theorem Holds.write_bit {chip : Mmc1} {held : List RegisterWrite} (h : chip.Holds held)
    {w : RegisterWrite} (hBit : cuts w = false) (hRoom : held.length < 4) :
    (chip.write w.address w.value).Holds (held ++ [w]) ∧
      (chip.write w.address w.value).registers = chip.registers := by
  have hCount := h.count
  have hLess : chip.count < 4 := by
    rw [UInt8.lt_iff_toNat_lt, hCount]
    exact hRoom
  have hWrite : chip.write w.address w.value =
      { chip with
        shift := chip.shift ||| (w.value &&& 1) <<< chip.count
        count := chip.count + 1 } := by
    simp [write, anyBit_cut, hBit, hLess]
  rw [hWrite]
  refine ⟨⟨by simpa using hRoom, ?_, ?_, h.shift_concat w⟩, rfl⟩
  · intro v hv
    rcases List.mem_append.1 hv with hOld | hNew
    · exact h.plain v hOld
    · rw [List.mem_singleton.1 hNew]
      exact hBit
  · rw [UInt8.toNat_add, hCount, List.length_append, List.length_singleton, UInt8.toNat_one]
    exact Nat.mod_eq_of_lt (by omega)

theorem registers_loadRegister (chip : Mmc1) (address : UInt16) (data : UInt8) :
    (chip.loadRegister address data).registers =
      chip.registers.after (.load address data.toNat) := by
  have hPrg : (data &&& 0x0F).toNat = data.toNat % 16 := by
    rw [UInt8.toNat_and]
    exact Nat.and_two_pow_sub_one_eq_mod data.toNat 4
  have hLess (bound : UInt16) : address < bound ↔ address.toNat < bound.toNat :=
    UInt16.lt_iff_toNat_lt
  unfold loadRegister Registers.after
  simp only [hLess, UInt16.reduceToNat]
  split
  · rfl
  · split
    · rfl
    · split
      · rfl
      · simp only [registers, hPrg]

theorem Holds.write_last {chip : Mmc1} {held : List RegisterWrite} (h : chip.Holds held)
    {w : RegisterWrite} (hBit : cuts w = false) (hFour : held.length = 4) :
    (chip.write w.address w.value).Holds [] ∧
      (chip.write w.address w.value).registers =
        chip.registers.after (.load w.address (number (held ++ [w]))) := by
  have hFull : ¬chip.count < 4 := by
    rw [UInt8.lt_iff_toNat_lt, h.count, hFour]
    decide
  have hWrite : chip.write w.address w.value =
      { chip with shift := 0, count := 0 }.loadRegister w.address
        (chip.shift ||| (w.value &&& 1) <<< chip.count) := by
    simp [write, anyBit_cut, hBit, hFull]
  constructor
  · rw [hWrite]
    unfold loadRegister
    split
    · exact .nil rfl rfl
    · split
      · exact .nil rfl rfl
      · split <;> exact .nil rfl rfl
  · rw [hWrite, registers_loadRegister, h.shift_concat w]
    rfl

/-- From a part of a group on, a chip goes through the events of that part and the writes that
follow it, and holds a part of a group again. -/
theorem Holds.writeAll {chip : Mmc1} {held : List RegisterWrite} (h : chip.Holds held)
    (ws : List RegisterWrite) :
    (chip.writeAll ws).registers = (events (held ++ ws)).foldl Registers.after chip.registers ∧
      ∃ left, (chip.writeAll ws).Holds left := by
  induction ws generalizing chip held with
  | nil =>
    rw [List.append_nil, events_short h.plain h.short]
    exact ⟨rfl, held, h⟩
  | cons w ws ih =>
    show ((chip.write w.address w.value).writeAll ws).registers = _ ∧ _
    cases hCut : cuts w with
    | true =>
      obtain ⟨hNext, hRegisters⟩ := chip.write_cut hCut
      have hRest := ih hNext
      rw [List.nil_append, hRegisters] at hRest
      rw [events_cut h.plain h.short hCut]
      exact hRest
    | false =>
      by_cases hRoom : held.length < 4
      · obtain ⟨hNext, hRegisters⟩ := h.write_bit hCut hRoom
        have hRest := ih hNext
        rw [hRegisters, List.append_assoc, List.singleton_append] at hRest
        exact hRest
      · have hFour : held.length = 4 := Nat.le_antisymm h.short (Nat.not_lt.1 hRoom)
        obtain ⟨hNext, hRegisters⟩ := h.write_last hCut hFour
        have hRest := ih hNext
        rw [List.nil_append, hRegisters] at hRest
        rw [events_group h.plain hFour hCut]
        exact hRest

theorem writeAll_powerOn (ws : List RegisterWrite) :
    (powerOn.writeAll ws).registers = (events ws).foldl Registers.after ⟨0x0C, 0, 0, 0⟩ ∧
      ∃ left, (powerOn.writeAll ws).Holds left :=
  (Holds.nil rfl rfl : powerOn.Holds []).writeAll ws

/-! ### The fixed bank -/

/-- The program mode keeps the last bank at the top. -/
def Registers.Fixed (r : Registers) : Prop :=
  r.control / 4 % 4 = 3

theorem Registers.fixed_cut (r : Registers) : (r.after .cut).Fixed := by
  have hSmall : ∀ x < 4, x ||| 3 = 3 := by decide
  show (r.control ||| 12) / 2 ^ 2 % 2 ^ 2 = 3
  rw [Nat.or_div_two_pow, Nat.or_mod_two_pow]
  exact hSmall _ (Nat.mod_lt _ (by decide))

theorem Registers.Fixed.after {r : Registers} (h : r.Fixed) {event : Event}
    (hKeeps : ∀ address n, event = .load address n → 0xA000 ≤ address.toNat) :
    (r.after event).Fixed := by
  cases event with
  | cut => exact r.fixed_cut
  | load address n =>
    have hAddress := hKeeps address n rfl
    have hControl : (r.after (.load address n)).control = r.control := by
      simp only [Registers.after, Nat.not_lt.2 hAddress, ↓reduceIte]
      split
      · rfl
      · split <;> rfl
    unfold Registers.Fixed
    rw [hControl]
    exact h

theorem Registers.Fixed.foldl {r : Registers} (h : r.Fixed) {es : List Event}
    (hKeeps : ∀ address n, Event.load address n ∈ es → 0xA000 ≤ address.toNat) :
    (es.foldl Registers.after r).Fixed := by
  induction es generalizing r with
  | nil => exact h
  | cons event es ih =>
    have hNext : (r.after event).Fixed := by
      apply h.after
      intro address n hEvent
      exact hKeeps address n (by rw [hEvent]; exact List.mem_cons_self)
    exact ih hNext fun address n hMem => hKeeps address n (List.mem_cons_of_mem _ hMem)

theorem fixed_after_cut (chip : Mmc1) {w : RegisterWrite} (hCut : cuts w = true)
    (before : List RegisterWrite) {later : List RegisterWrite}
    (hKeeps : ∀ address n, Event.load address n ∈ events later → 0xA000 ≤ address.toNat) :
    (chip.writeAll (before ++ w :: later)).registers.Fixed := by
  have hChip : chip.writeAll (before ++ w :: later) =
      ((chip.writeAll before).write w.address w.value).writeAll later := by
    simp only [writeAll, List.foldl_append, List.foldl_cons]
  obtain ⟨hEmpty, hRegisters⟩ := (chip.writeAll before).write_cut hCut
  have hEvents := (hEmpty.writeAll later).1
  rw [List.nil_append, hRegisters] at hEvents
  rw [hChip, hEvents]
  exact (chip.writeAll before).registers.fixed_cut.foldl hKeeps

theorem prgBank_of_fixed {chip : Mmc1} (h : chip.registers.Fixed) (banks : Nat) {a : UInt16}
    (ha : 0xC000 ≤ a.toNat) : chip.prgBank banks a = banks - 1 := by
  have hMode : (chip.control >>> 2 &&& 0x03).toNat = 3 :=
    (toNat_field chip.control 0x03 (k := 2) (j := 2) (by decide) rfl).trans h
  have hHigh : 0xC000 ≤ a := UInt16.le_iff_toNat_le.2 ha
  simp only [prgBank, hMode, hHigh, decide_true, ↓reduceIte]

end Mmc1

theorem performAll_mmc1 (chip : Mmc1) (operations : List Board.Operation) :
    (Mapper.mmc1 chip).performAll operations =
      .mmc1 (chip.writeAll (Board.registerWrites operations)) := by
  induction operations generalizing chip with
  | nil => rfl
  | cons operation rest ih =>
    show ((Mapper.mmc1 chip).perform operation).performAll rest = _
    cases operation with
    | write address value =>
      by_cases hHigh : 0x8000 ≤ address
      · have hFirst : (Mapper.mmc1 chip).perform (.write address value) =
            .mmc1 (chip.write address value) := by
          simp [perform, hHigh, Mapper.write]
        rw [hFirst, ih]
        simp [Board.registerWrites, Board.Operation.registerWrite?, hHigh, Mmc1.writeAll]
      · have hFirst : (Mapper.mmc1 chip).perform (.write address value) = .mmc1 chip := by
          simp [perform, hHigh]
        rw [hFirst, ih]
        simp [Board.registerWrites, Board.Operation.registerWrite?, hHigh]
    | read address => exact ih chip
    | chrRead address => exact ih chip
    | chrWrite address value => exact ih chip
    | observe position => exact ih chip

namespace Mmc1

theorem prgIndex_of_fixed {board : Board} {chip : Mmc1} (hMapper : board.mapper = .mmc1 chip)
    (hFixed : chip.registers.Fixed) (hSize : prgBankSize ∣ board.prg.size) {a : UInt16}
    (ha : 0xC000 ≤ a.toNat) :
    (board.prgIndex a).val = board.prg.size - 0x4000 + a.toNat % 0x4000 := by
  obtain ⟨banks, hBanks⟩ := hSize
  have hPos := board.prg_pos
  have hRest := Nat.mod_lt a.toNat (by decide : 0x4000 > 0)
  simp only [prgBankSize] at hBanks
  have hCount : bankCount board.prg.size 0x4000 = banks := by
    unfold bankCount
    omega
  have hOffset : board.mapper.prgOffset board.prg.size a =
      (banks - 1) * 0x4000 + a.toNat % 0x4000 := by
    simp only [hMapper, prgOffset, bankOffset, prgBank_of_fixed hFixed _ ha, hCount]
    rw [Nat.mod_eq_of_lt (by omega)]
  show board.mapper.prgOffset board.prg.size a % board.prg.size = _
  rw [hOffset, Nat.mod_eq_of_lt (by omega)]
  omega

/-- Whatever was done to a board since power came on, its registers are what the decoded history
of writes made of them, and the shift register holds as many bits as it counts, four at most.
After a cut, and as long as no group behind it went to the control register, the last 16 KiB of
program memory show at the top. -/
theorem serial_port_decodes (c : Cartridge) (hKind : c.kind = .mmc1)
    (operations : List Board.Operation) :
    let board := (Board.powerOn c).performAll operations
    let history := Board.registerWrites operations
    ∃ chip : Mmc1, board.mapper = .mmc1 chip ∧
      chip.registers = (events history).foldl Registers.after ⟨0x0C, 0, 0, 0⟩ ∧
      chip.count.toNat ≤ 4 ∧ chip.shift.toNat < 2 ^ chip.count.toNat ∧
      (prgBankSize ∣ c.prg.size → ∀ before w later, history = before ++ w :: later →
        cuts w = true →
        (∀ address n, Event.load address n ∈ events later → 0xA000 ≤ address.toNat) →
        ∀ a : UInt16, 0xC000 ≤ a.toNat →
          c.prg[c.prg.size - 0x4000 + a.toNat % 0x4000]? = some (board.read a)) := by
  intro board history
  have hMapper : board.mapper = .mmc1 (powerOn.writeAll history) := by
    have hStart : (Board.powerOn c).mapper = .mmc1 powerOn := by
      show Mapper.powerOn c.kind = _
      rw [hKind]
      rfl
    rw [Board.performAll_mapper, hStart, performAll_mmc1]
  obtain ⟨hRegisters, left, hHolds⟩ := writeAll_powerOn history
  refine ⟨powerOn.writeAll history, hMapper, hRegisters, ?_, ?_, ?_⟩
  · rw [hHolds.count]
    exact hHolds.short
  · rw [hHolds.shift, hHolds.count]
    exact number_lt left
  · intro hSize before w later hHistory hCut hKeeps a ha
    have hPrg : board.prg = c.prg := ((Board.carries_powerOn c).performAll operations).prg
    have hFixed := fixed_after_cut powerOn hCut before hKeeps
    rw [hHistory] at hMapper
    rw [← hPrg] at hSize ⊢
    rw [← prgIndex_of_fixed hMapper hFixed hSize ha]
    exact board.read_prg (by omega)

/-- A group begun and dropped, five bits to the program bank over changing addresses, and a cut
that ends a 32 KiB mode. -/
theorem serial_port_decodes_dropped_group :
    let c : Cartridge :=
      ⟨Array.replicate 0x8000 0xEA, #[], .mmc1, .vertical, false, none,
        by rw [Array.size_replicate]; decide⟩
    let operations : List Board.Operation :=
      [.write 0x8000 0, .write 0x8000 0, .write 0x8000 0, .write 0x8000 0, .write 0x8000 0,
        .write 0xE000 1, .write 0xE000 0x80, .write 0x8000 1, .write 0xA000 0, .write 0xC000 1,
        .write 0x8000 0, .write 0xE000 0]
    let board := (Board.powerOn c).performAll operations
    c.kind = .mmc1 ∧ prgBankSize ∣ c.prg.size ∧
      (∃ chip : Mmc1, board.mapper = .mmc1 chip ∧ chip.registers = ⟨0x0C, 0, 0, 5⟩) ∧
      c.prg[c.prg.size - 0x4000 + 0xFFFC % 0x4000]? = some (board.read 0xFFFC) := by
  intro c operations board
  have hSize : prgBankSize ∣ c.prg.size := by
    rw [show c.prg.size = 0x8000 from Array.size_replicate]
    decide
  obtain ⟨chip, hMapper, hRegisters, -, -, hTop⟩ := serial_port_decodes c rfl operations
  refine ⟨rfl, hSize, ⟨chip, hMapper, hRegisters.trans (by decide)⟩, ?_⟩
  refine hTop hSize
    [⟨0x8000, 0⟩, ⟨0x8000, 0⟩, ⟨0x8000, 0⟩, ⟨0x8000, 0⟩, ⟨0x8000, 0⟩, ⟨0xE000, 1⟩] ⟨0xE000, 0x80⟩
    [⟨0x8000, 1⟩, ⟨0xA000, 0⟩, ⟨0xC000, 1⟩, ⟨0x8000, 0⟩, ⟨0xE000, 0⟩] (by decide) (by decide) ?_
    0xFFFC (by decide)
  intro address n hLoad
  have hEvents : events [⟨0x8000, 1⟩, ⟨0xA000, 0⟩, ⟨0xC000, 1⟩, ⟨0x8000, 0⟩, ⟨0xE000, 0⟩] =
      [.load 0xE000 5] := by decide
  rw [hEvents, List.mem_singleton] at hLoad
  cases hLoad
  decide

end Mmc1

end Famicom.Mapper

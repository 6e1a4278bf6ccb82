import Famicom.Proofs.Mapper.History
import Mathlib.Data.List.Permutation

/-!
# The line counter

The chip counts rendered lines down from its latch and raises the interrupt line at zero.  Seen
from outside it divides: programmed with `n`, it raises the line at every line counted whose number
is a multiple of `n + 1`, as long as each rise is answered before the next line counts.
-/

namespace Famicom

def Mapper.RegisterWrite.operation (w : Mapper.RegisterWrite) : Board.Operation :=
  .write w.address w.value

namespace Mapper.Mmc3

/-- A line counts here: the beam is on dot 280 of a line that is rendered. -/
def Counts (position : Ppu.Position) : Prop :=
  position.dot = 280 ∧ position.rendering = true ∧
    (position.scanline < 240 ∨ position.scanline = 261)

instance : DecidablePred Counts := fun position =>
  inferInstanceAs (Decidable (position.dot = 280 ∧ position.rendering = true ∧
    (position.scanline < 240 ∨ position.scanline = 261)))

theorem clocksAt_iff (position : Ppu.Position) : clocksAt position = true ↔ Counts position := by
  simp only [clocksAt, Bool.and_eq_true, Bool.or_eq_true, beq_iff_eq, decide_eq_true_eq, and_assoc]
  exact Iff.rfl

/-- Writes that program the counter: the latch, the reload and the enable register, each once and
in any order. -/
def Programs (n : UInt8) (writes : List RegisterWrite) : Prop :=
  ∃ latch reload enable : RegisterWrite,
    portOf latch.address = .latch ∧ latch.value = n ∧ portOf reload.address = .reload ∧
      portOf enable.address = .enable ∧ writes.Perm [latch, reload, enable]

end Mapper.Mmc3

namespace Board

open Mapper.Mmc3 (Counts portOf Port)

def Operation.counts : Operation → Bool
  | .observe position => decide (Counts position)
  | _ => false

def Operation.port? (operation : Operation) : Option Port :=
  operation.registerWrite?.map fun w => portOf w.address

def Rises (board : Board) (operation : Operation) : Prop :=
  board.irq = false ∧ (board.perform operation).irq = true

/-- Each rise of the line is answered before the next line counts: it is acknowledged, and after
an acknowledgement the interrupt is enabled again. -/
structure Answers (board : Board) (operations : List Operation) : Prop where
  acknowledged : ∀ before rise between next later,
    operations = before ++ rise :: (between ++ next :: later) →
    (board.performAll before).Rises rise → next.counts = true →
    ∃ answer ∈ between, answer.port? = some .acknowledge
  enabled : ∀ before answer between next later,
    operations = before ++ answer :: (between ++ next :: later) →
    answer.port? = some .acknowledge → next.counts = true →
    ∃ again ∈ between, again.port? = some .enable

/-- A register is written before the next line counts. -/
def WrittenFirst (port : Port) : List Operation → Prop
  | [] => True
  | operation :: rest =>
    operation.counts = false ∧ (operation.port? = some port ∨ WrittenFirst port rest)

theorem WrittenFirst.exists_mem {port : Port} {between later : List Operation} {next : Operation}
    (h : WrittenFirst port (between ++ next :: later)) (hCounts : next.counts = true) :
    ∃ o ∈ between, o.port? = some port := by
  induction between with
  | nil => cases hCounts.symm.trans h.1
  | cons first rest ih =>
    obtain ⟨-, hPort | hRest⟩ := h
    · exact ⟨first, List.mem_cons_self, hPort⟩
    · obtain ⟨o, hMem, hPort⟩ := ih hRest
      exact ⟨o, List.mem_cons_of_mem first hMem, hPort⟩

/-- Every line that counts is answered before the next one does, whether it raised the interrupt
or not. -/
def AllAnswered : List Operation → Prop
  | [] => True
  | operation :: rest =>
    (operation.counts = true → WrittenFirst .acknowledge rest) ∧
      (operation.port? = some .acknowledge → WrittenFirst .enable rest) ∧ AllAnswered rest

theorem AllAnswered.split {before rest : List Operation} {operation : Operation}
    (h : AllAnswered (before ++ operation :: rest)) :
    (operation.counts = true → WrittenFirst .acknowledge rest) ∧
      (operation.port? = some .acknowledge → WrittenFirst .enable rest) := by
  induction before with
  | nil => exact ⟨h.1, h.2.1⟩
  | cons _ _ ih => exact ih h.2.2

theorem add_countP_cons (k : Nat) (operation : Operation) (rest : List Operation) :
    k + (operation :: rest).countP Operation.counts =
      k + operation.counts.toNat + rest.countP Operation.counts := by
  rw [List.countP_cons]
  cases operation.counts with
  | false => rfl
  | true => exact Nat.add_right_comm k (rest.countP Operation.counts) 1

end Board

namespace Mapper.Mmc3

/-! ### The counter -/

def nextCount (chip : Mmc3) : UInt8 :=
  if chip.counter = 0 || chip.reload then chip.latch else chip.counter - 1

theorem clock_eq (chip : Mmc3) :
    chip.clock = { chip with
      counter := chip.nextCount
      reload := false
      irqPending := chip.irqPending || (chip.nextCount == 0 && chip.irqEnabled) } :=
  rfl

/-- All that an operation can do to the chip. -/
theorem perform_cases (chip : Mmc3) (operation : Board.Operation) :
    (∃ w, operation.registerWrite? = some w ∧ operation.counts = false ∧
      chip.perform operation = chip.store w.value (portOf w.address)) ∨
    (operation.registerWrite? = none ∧ operation.counts = true ∧
      chip.perform operation = chip.clock) ∨
    (operation.registerWrite? = none ∧ operation.counts = false ∧
      chip.perform operation = chip) := by
  cases operation with
  | write address value =>
    by_cases hHigh : 0x8000 ≤ address
    · exact .inl ⟨⟨address, value⟩, if_pos hHigh, rfl, if_pos hHigh⟩
    · exact .inr (.inr ⟨if_neg hHigh, rfl, if_neg hHigh⟩)
  | observe position =>
    by_cases hCounts : Counts position
    · exact .inr (.inl ⟨rfl, decide_eq_true hCounts, if_pos ((clocksAt_iff position).2 hCounts)⟩)
    · refine .inr (.inr ⟨rfl, decide_eq_false hCounts, if_neg ?_⟩)
      rwa [clocksAt_iff]
  | _ => exact .inr (.inr ⟨rfl, rfl, rfl⟩)

theorem add_one_mod_period (k n : Nat) :
    (k + 1) % (n + 1) = if k % (n + 1) = n then 0 else k % (n + 1) + 1 := by
  have hLess : k % (n + 1) < n + 1 := Nat.mod_lt _ n.succ_pos
  have hSplit := Nat.div_add_mod k (n + 1)
  split
  · rename_i hLast
    have hWhole : k + 1 = (n + 1) * (k / (n + 1) + 1) := by
      rw [Nat.mul_succ]
      omega
    rw [hWhole, Nat.mul_mod_right]
  · have hPart : k + 1 = (n + 1) * (k / (n + 1)) + (k % (n + 1) + 1) := by omega
    rw [hPart, Nat.mul_add_mod, Nat.mod_eq_of_lt (by omega)]

/-- The chip counts down from `n` again and again, and has been clocked `k` times. -/
structure Phase (n k : Nat) (chip : Mmc3) : Prop where
  latch : chip.latch.toNat = n
  next : chip.nextCount.toNat = n - k % (n + 1)

theorem Phase.clock {n k : Nat} {chip : Mmc3} (h : Phase n k chip) :
    Phase n (k + 1) chip.clock := by
  refine ⟨h.latch, ?_⟩
  have hNext := h.next
  have hLess : k % (n + 1) < n + 1 := Nat.mod_lt _ n.succ_pos
  have hAfter : chip.clock.nextCount =
      if chip.nextCount = 0 then chip.latch else chip.nextCount - 1 := by
    simp [clock_eq, nextCount]
  rw [hAfter, add_one_mod_period]
  by_cases hZero : chip.nextCount = 0
  · -- the last line of a period: the counter starts over
    have hLast : k % (n + 1) = n := by
      rw [hZero, UInt8.toNat_zero] at hNext
      omega
    rw [if_pos hZero, if_pos hLast, h.latch, Nat.sub_zero]
  · have hPositive : chip.nextCount.toNat ≠ 0 := by
      rwa [← UInt8.toNat_zero, Ne, UInt8.toNat_inj]
    have hOne : (1 : UInt8) ≤ chip.nextCount := by
      rw [UInt8.le_iff_toNat_le]
      exact Nat.one_le_iff_ne_zero.2 hPositive
    rw [if_neg hZero, if_neg (by omega), UInt8.toNat_sub_of_le _ _ hOne, hNext]
    rfl

theorem nextCount_eq_zero_iff {n k : Nat} {chip : Mmc3} (h : Phase n k chip) :
    chip.nextCount = 0 ↔ n + 1 ∣ k + 1 := by
  have hNext := h.next
  have hLess : k % (n + 1) < n + 1 := Nat.mod_lt _ n.succ_pos
  rw [← UInt8.toNat_inj, UInt8.toNat_zero, Nat.dvd_iff_mod_eq_zero, add_one_mod_period]
  split <;> omega

theorem Phase.perform {n k : Nat} {chip : Mmc3} (h : Phase n k chip)
    {operation : Board.Operation} (hLatch : operation.port? ≠ some .latch)
    (hReload : operation.port? ≠ some .reload) :
    Phase n (k + operation.counts.toNat) (chip.perform operation) := by
  rcases chip.perform_cases operation with
    ⟨w, hWrite, hCounts, hStore⟩ | ⟨-, hCounts, hClock⟩ | ⟨-, hCounts, hSame⟩
  · rw [Board.Operation.port?, hWrite, Option.map_some] at hLatch hReload
    rw [hCounts, hStore]
    cases hPort : portOf w.address with
    | latch => exact absurd (congrArg some hPort) hLatch
    | reload => exact absurd (congrArg some hPort) hReload
    | _ => exact ⟨h.latch, h.next⟩
  · rw [hCounts, hClock]
    exact h.clock
  · rw [hCounts, hSame]
    exact h

/-- Whatever is done to a board, the counter of its chip is where the lines counted so far put
it, as long as latch and reload register are left alone. -/
theorem Phase.performAll {n k : Nat} {chip : Mmc3} (h : Phase n k chip)
    {operations : List Board.Operation}
    (hKept : ∀ o ∈ operations, o.port? ≠ some .latch ∧ o.port? ≠ some .reload) :
    Phase n (k + operations.countP Board.Operation.counts) (chip.performAll operations) := by
  induction operations generalizing k chip with
  | nil => exact h
  | cons operation rest ih =>
    obtain ⟨hFirst, hRest⟩ := List.forall_mem_cons.1 hKept
    rw [Board.add_countP_cons]
    exact ih (h.perform hFirst.1 hFirst.2) hRest

/-! ### Programming -/

/-- The chip is programmed and no line has counted since. -/
structure Armed (n : UInt8) (chip : Mmc3) : Prop where
  latch : chip.latch = n
  reload : chip.reload = true
  irqEnabled : chip.irqEnabled = true
  irqPending : chip.irqPending = false

theorem Armed.phase {n : UInt8} {chip : Mmc3} (h : Armed n chip) : Phase n.toNat 0 chip where
  latch := congrArg UInt8.toNat h.latch
  next := by
    have hNext : chip.nextCount = n := by simp [nextCount, h.reload, h.latch]
    rw [hNext, Nat.zero_mod, Nat.sub_zero]

def storeAll (chip : Mmc3) (writes : List RegisterWrite) : Mmc3 :=
  writes.foldl (fun c w => c.store w.value (portOf w.address)) chip

theorem armed_of_programs {n : UInt8} {chip : Mmc3} (h : chip.irqPending = false)
    {writes : List RegisterWrite} (hWrites : Programs n writes) :
    Armed n (chip.storeAll writes) := by
  obtain ⟨latch, reload, enable, hLatch, rfl, hReload, hEnable, hOrder⟩ := hWrites
  have hOrders := List.mem_permutations'.2 hOrder
  simp only [List.permutations', List.permutations'Aux, List.flatMap_cons, List.flatMap_nil,
    List.map_cons, List.map_nil, List.append_nil, List.cons_append, List.nil_append,
    List.mem_cons, List.not_mem_nil, or_false] at hOrders
  rcases hOrders with rfl | rfl | rfl | rfl | rfl | rfl <;>
    simp only [storeAll, List.foldl_cons, List.foldl_nil, hLatch, hReload, hEnable, store] <;>
    exact ⟨rfl, rfl, rfl, h⟩

theorem le_of_portOf {address : UInt16} (hSelect : portOf address ≠ .select)
    (hBank : portOf address ≠ .bank) : 0x8000 ≤ address := by
  rw [UInt16.le_iff_toNat_le]
  refine Nat.not_lt.1 fun hLow => ?_
  have hFirst : address.toNat < 0xA000 := Nat.lt_trans hLow (by decide)
  unfold portOf at hSelect hBank
  rw [if_pos hFirst] at hSelect hBank
  split at hSelect
  · exact hSelect rfl
  · rename_i hOdd
    rw [if_neg hOdd] at hBank
    exact hBank rfl

theorem Programs.registerWrites {n : UInt8} {writes : List RegisterWrite} (h : Programs n writes) :
    Board.registerWrites (writes.map RegisterWrite.operation) = writes := by
  obtain ⟨latch, reload, enable, hLatch, -, hReload, hEnable, hOrder⟩ := h
  have hHigh : ∀ w ∈ writes, 0x8000 ≤ w.address := by
    intro w hw
    have hMem := hOrder.mem_iff.1 hw
    simp only [List.mem_cons, List.not_mem_nil, or_false] at hMem
    rcases hMem with rfl | rfl | rfl
    · exact le_of_portOf (by simp [hLatch]) (by simp [hLatch])
    · exact le_of_portOf (by simp [hReload]) (by simp [hReload])
    · exact le_of_portOf (by simp [hEnable]) (by simp [hEnable])
  rw [Board.registerWrites, List.filterMap_map]
  refine (List.filterMap_congr fun w hw => ?_).trans List.filterMap_some
  exact if_pos (hHigh w hw)

theorem irqPending_store {chip : Mmc3} (h : chip.irqPending = false) (value : UInt8)
    (port : Port) : (chip.store value port).irqPending = false := by
  cases port with
  | acknowledge => rfl
  | _ => exact h

theorem irqPending_storeAll {chip : Mmc3} (h : chip.irqPending = false)
    (writes : List RegisterWrite) : (chip.storeAll writes).irqPending = false := by
  induction writes generalizing chip with
  | nil => exact h
  | cons w rest ih => exact ih (irqPending_store h w.value (portOf w.address))

/-- Until a line counts the chip sees nothing but writes to its registers. -/
theorem performAll_idle {operations : List Board.Operation}
    (h : ∀ o ∈ operations, o.counts = false) (chip : Mmc3) :
    chip.performAll operations = chip.storeAll (Board.registerWrites operations) := by
  induction operations generalizing chip with
  | nil => rfl
  | cons operation rest ih =>
    obtain ⟨hFirst, hRest⟩ := List.forall_mem_cons.1 h
    show (chip.perform operation).performAll rest = _
    rw [ih hRest]
    simp only [storeAll, Board.registerWrites, List.filterMap_cons]
    rcases chip.perform_cases operation with
      ⟨w, hWrite, -, hStore⟩ | ⟨-, hCounts, -⟩ | ⟨hNone, -, hSame⟩
    · rw [hWrite, hStore, List.foldl_cons]
    · rw [hCounts] at hFirst
      cases hFirst
    · rw [hNone, hSame]

/-! ### The interrupt line -/

/-- Of a chip that is clocked and not written to, the line is up once `n + 1` lines have
counted. -/
structure Free (n k : Nat) (chip : Mmc3) : Prop where
  phase : Phase n k chip
  irqEnabled : chip.irqEnabled = true
  irqPending : chip.irqPending = true ↔ n + 1 ≤ k

theorem Armed.free {n : UInt8} {chip : Mmc3} (h : Armed n chip) : Free n.toNat 0 chip :=
  ⟨h.phase, h.irqEnabled, by simp [h.irqPending]⟩

theorem Free.clock {n k : Nat} {chip : Mmc3} (h : Free n k chip) : Free n (k + 1) chip.clock := by
  refine ⟨h.phase.clock, h.irqEnabled, ?_⟩
  have hPending : chip.clock.irqPending = true ↔ n + 1 ≤ k ∨ n + 1 ∣ k + 1 := by
    simp only [clock_eq, h.irqEnabled, Bool.and_true, Bool.or_eq_true, beq_iff_eq,
      nextCount_eq_zero_iff h.phase, h.irqPending]
  rw [hPending]
  constructor
  · rintro (hLong | hNow)
    · exact Nat.le_succ_of_le hLong
    · exact Nat.le_of_dvd k.succ_pos hNow
  · intro hLate
    rcases Nat.lt_or_eq_of_le hLate with hLong | hNow
    · exact .inl (Nat.le_of_lt_succ hLong)
    · exact .inr (hNow ▸ Nat.dvd_refl _)

theorem Free.performAll {n k : Nat} {chip : Mmc3} (h : Free n k chip)
    {operations : List Board.Operation} (hNone : ∀ o ∈ operations, o.registerWrite? = none) :
    Free n (k + operations.countP Board.Operation.counts) (chip.performAll operations) := by
  induction operations generalizing k chip with
  | nil => exact h
  | cons operation rest ih =>
    obtain ⟨hFirst, hRest⟩ := List.forall_mem_cons.1 hNone
    rw [Board.add_countP_cons]
    refine ih ?_ hRest
    rcases chip.perform_cases operation with
      ⟨w, hWrite, -, -⟩ | ⟨-, hCounts, hClock⟩ | ⟨-, hCounts, hSame⟩
    · rw [hWrite] at hFirst
      cases hFirst
    · rw [hCounts, hClock]
      exact h.clock
    · rw [hCounts, hSame]
      exact h

theorem irqPending_perform {chip : Mmc3} (h : chip.irqPending = true)
    {operation : Board.Operation} (hPort : operation.port? ≠ some .acknowledge) :
    (chip.perform operation).irqPending = true := by
  rcases chip.perform_cases operation with
    ⟨w, hWrite, -, hStore⟩ | ⟨-, -, hClock⟩ | ⟨-, -, hSame⟩
  · rw [Board.Operation.port?, hWrite, Option.map_some] at hPort
    rw [hStore]
    cases hRegister : portOf w.address with
    | acknowledge => exact absurd (congrArg some hRegister) hPort
    | _ => exact h
  · rw [hClock, clock_eq, h, Bool.true_or]
  · rwa [hSame]

theorem irqPending_performAll {chip : Mmc3} (h : chip.irqPending = true)
    {operations : List Board.Operation}
    (hPorts : ∀ o ∈ operations, o.port? ≠ some .acknowledge) :
    (chip.performAll operations).irqPending = true := by
  induction operations generalizing chip with
  | nil => exact h
  | cons operation rest ih =>
    obtain ⟨hFirst, hRest⟩ := List.forall_mem_cons.1 hPorts
    exact ih (irqPending_perform h hFirst) hRest

theorem perform_of_port (chip : Mmc3) {operation : Board.Operation} {port : Port}
    (h : operation.port? = some port) :
    ∃ value, chip.perform operation = chip.store value port := by
  rcases chip.perform_cases operation with
    ⟨w, hWrite, -, hStore⟩ | ⟨hNone, -, -⟩ | ⟨hNone, -, -⟩
  · rw [Board.Operation.port?, hWrite, Option.map_some, Option.some.injEq] at h
    exact ⟨w.value, h ▸ hStore⟩
  all_goals
    rw [Board.Operation.port?, hNone] at h
    cases h

theorem perform_acknowledge (chip : Mmc3) {operation : Board.Operation}
    (h : operation.port? = some .acknowledge) : (chip.perform operation).irqPending = false := by
  obtain ⟨value, hStore⟩ := chip.perform_of_port h
  rw [hStore, store]

theorem perform_enable (chip : Mmc3) {operation : Board.Operation}
    (h : operation.port? = some .enable) : (chip.perform operation).irqEnabled = true := by
  obtain ⟨value, hStore⟩ := chip.perform_of_port h
  rw [hStore, store]

theorem port_of_disables {chip : Mmc3} (h : chip.irqEnabled = true)
    {operation : Board.Operation} (hOff : (chip.perform operation).irqEnabled = false) :
    operation.port? = some .acknowledge := by
  rcases chip.perform_cases operation with
    ⟨w, hWrite, -, hStore⟩ | ⟨-, -, hClock⟩ | ⟨-, -, hSame⟩
  · rw [Board.Operation.port?, hWrite, Option.map_some]
    rw [hStore] at hOff
    cases hRegister : portOf w.address with
    | acknowledge => rfl
    | enable =>
      rw [hRegister] at hOff
      cases hOff
    | _ =>
      rw [hRegister, store, h] at hOff
      cases hOff
  · rw [hClock, clock_eq, h] at hOff
    cases hOff
  · rw [hSame, h] at hOff
    cases hOff

theorem counts_of_rises {chip : Mmc3} (h : chip.irqPending = false)
    {operation : Board.Operation} (hUp : (chip.perform operation).irqPending = true) :
    operation.counts = true := by
  rcases chip.perform_cases operation with
    ⟨w, -, -, hStore⟩ | ⟨-, hCounts, -⟩ | ⟨-, -, hSame⟩
  · rw [hStore, irqPending_store h] at hUp
    cases hUp
  · exact hCounts
  · rw [hSame, h] at hUp
    cases hUp

/-! ### Answered interrupts -/

/-- What holds at last and not at first began at some operation, and since then nothing that ends
it was done. -/
theorem exists_last_onset {σ ω : Type} (step : σ → ω → σ) (P : σ → Prop) (ends : ω → Prop)
    (hEnds : ∀ s o, P (step s o) → ¬ends o) {s : σ} (hNot : ¬P s) {operations : List ω}
    (h : P (operations.foldl step s)) :
    ∃ before onset between, operations = before ++ onset :: between ∧
      ¬P (before.foldl step s) ∧ P (step (before.foldl step s) onset) ∧
      ∀ o ∈ between, ¬ends o := by
  induction operations using List.reverseRecOn with
  | nil => exact absurd h hNot
  | append_singleton done last ih =>
    rw [List.foldl_append, List.foldl_cons, List.foldl_nil] at h
    by_cases hDone : P (done.foldl step s)
    · obtain ⟨before, onset, between, rfl, hBefore, hOnset, hBetween⟩ := ih hDone
      refine ⟨before, onset, between ++ [last], by simp, hBefore, hOnset, ?_⟩
      intro o ho
      rcases List.mem_append.1 ho with hOld | hLast
      · exact hBetween o hOld
      · rw [List.mem_singleton.1 hLast]
        exact hEnds _ _ h
    · exact ⟨done, last, [], rfl, hDone, h, nofun⟩

end Mapper.Mmc3

namespace Board

open Mapper (Mmc3)
open Mapper.Mmc3 (Counts Port)

section Chip

variable {board : Board} {chip : Mmc3} (hMapper : board.mapper = .mmc3 chip)

include hMapper

theorem irq_performAll (operations : List Operation) :
    (board.performAll operations).irq = (chip.performAll operations).irqPending := by
  rw [irq, performAll_mapper, hMapper, Mapper.performAll_mmc3, Mapper.irq]

theorem rises_performAll_iff (before : List Operation) (operation : Operation) :
    (board.performAll before).Rises operation ↔ (chip.performAll before).irqPending = false ∧
      ((chip.performAll before).perform operation).irqPending = true := by
  have hAfter := irq_performAll hMapper (before ++ [operation])
  rw [performAll, Mmc3.performAll, List.foldl_append, List.foldl_append] at hAfter
  rw [Rises, irq_performAll hMapper before]
  exact and_congr_right fun _ => Eq.congr_left hAfter

theorem AllAnswered.answers {operations : List Operation} (h : AllAnswered operations) :
    board.Answers operations where
  acknowledged before rise between next later hSplit hRises hCounts := by
    subst hSplit
    obtain ⟨hDown, hUp⟩ := (rises_performAll_iff hMapper before rise).1 hRises
    exact (h.split.1 (Mmc3.counts_of_rises hDown hUp)).exists_mem hCounts
  enabled before answer between next later hSplit hPort hCounts := by
    subst hSplit
    exact (h.split.2 hPort).exists_mem hCounts

variable {n : UInt8} {operations : List Operation} (hArmed : chip.Armed n)
  (hAnswers : board.Answers operations) {before later : List Operation} {operation : Operation}
  (hSplit : operations = before ++ operation :: later) (hCounts : operation.counts = true)

include hArmed hAnswers hSplit hCounts

/-- Where a line counts, every rise of the line has been acknowledged. -/
theorem irqPending_of_answers : (chip.performAll before).irqPending = false := by
  refine Bool.eq_false_iff.2 fun hUp => ?_
  -- a line that is up went up at some operation and was not acknowledged since
  obtain ⟨first, rise, between, rfl, hFirst, hRise, hBetween⟩ :=
    Mmc3.exists_last_onset Mmc3.perform (·.irqPending = true) (·.port? = some .acknowledge)
      (fun c o h hPort => by simp [c.perform_acknowledge hPort] at h)
      (by simp [hArmed.irqPending]) hUp
  have hRises : (board.performAll first).Rises rise :=
    (rises_performAll_iff hMapper first rise).2 ⟨Bool.eq_false_iff.2 hFirst, hRise⟩
  rw [List.append_assoc, List.cons_append] at hSplit
  obtain ⟨answer, hMem, hPort⟩ :=
    hAnswers.acknowledged first rise between operation later hSplit hRises hCounts
  exact hBetween answer hMem hPort

omit hMapper in
theorem irqEnabled_of_answers : (chip.performAll before).irqEnabled = true := by
  refine Bool.of_not_eq_false fun hOff => ?_
  -- what disabled it was an acknowledgement, and since then it was not enabled again
  obtain ⟨first, answer, between, rfl, hFirst, hAnswer, hBetween⟩ :=
    Mmc3.exists_last_onset Mmc3.perform (·.irqEnabled = false) (·.port? = some .enable)
      (fun c o h hPort => by simp [c.perform_enable hPort] at h)
      (by simp [hArmed.irqEnabled]) hOff
  have hPort := Mmc3.port_of_disables (Bool.of_not_eq_false hFirst) hAnswer
  rw [List.append_assoc, List.cons_append] at hSplit
  obtain ⟨again, hMem, hEnable⟩ :=
    hAnswers.enabled first answer between operation later hSplit hPort hCounts
  exact hBetween again hMem hEnable

end Chip

/-- Once the line is up, it stays up until it is acknowledged. -/
theorem irq_until_acknowledged {board : Board} {chip : Mmc3} (hMapper : board.mapper = .mmc3 chip)
    (h : board.irq = true) :
    (∀ operations : List Operation, (∀ o ∈ operations, o.port? ≠ some .acknowledge) →
      (board.performAll operations).irq = true) ∧
    ∀ o : Operation, o.port? = some .acknowledge → (board.perform o).irq = false := by
  have hUp : chip.irqPending = true := by rwa [irq, hMapper] at h
  refine ⟨fun operations hPorts => ?_, fun o hPort => ?_⟩
  · rw [irq_performAll hMapper]
    exact Mmc3.irqPending_performAll hUp hPorts
  · exact (irq_performAll hMapper [o]).trans (chip.perform_acknowledge hPort)

/-- Of a programmed counter whose rises are answered, the line goes up at each line counted whose
number is a multiple of the period. -/
theorem rises_iff_dvd {board : Board} {chip : Mmc3} (hMapper : board.mapper = .mmc3 chip)
    {n : UInt8} (hArmed : chip.Armed n) {operations : List Operation}
    (hAnswers : board.Answers operations)
    (hKept : ∀ o ∈ operations, o.port? ≠ some .latch ∧ o.port? ≠ some .reload)
    {before later : List Operation} {operation : Operation}
    (hSplit : operations = before ++ operation :: later) :
    (board.performAll before).Rises operation ↔
      operation.counts = true ∧ n.toNat + 1 ∣ before.countP Operation.counts + 1 := by
  have hBefore : ∀ o ∈ before, o.port? ≠ some .latch ∧ o.port? ≠ some .reload := fun o ho =>
    hKept o (hSplit ▸ List.mem_append_left _ ho)
  have hPhase := hArmed.phase.performAll hBefore
  rw [Nat.zero_add] at hPhase
  rw [rises_performAll_iff hMapper]
  cases hCounts : operation.counts with
  | false =>
    refine ⟨fun h => ?_, fun h => absurd h.1 Bool.false_ne_true⟩
    rw [Mmc3.counts_of_rises h.1 h.2] at hCounts
    cases hCounts
  | true =>
    have hPending := irqPending_of_answers hMapper hArmed hAnswers hSplit hCounts
    have hEnabled := irqEnabled_of_answers hArmed hAnswers hSplit hCounts
    have hClock : (chip.performAll before).perform operation = (chip.performAll before).clock := by
      rcases (chip.performAll before).perform_cases operation with
        ⟨w, -, hNot, -⟩ | ⟨-, -, hClock⟩ | ⟨-, hNot, -⟩
      · simp [hCounts] at hNot
      · exact hClock
      · simp [hCounts] at hNot
    simp [hClock, Mmc3.clock_eq, hPending, hEnabled, Mmc3.nextCount_eq_zero_iff hPhase]

section Programmed

variable {board : Board} {chip : Mmc3} (hMapper : board.mapper = .mmc3 chip)
  (hIrq : board.irq = false) {n : UInt8} {writes : List Mapper.RegisterWrite}
  (hWrites : Mmc3.Programs n writes)

include hMapper hIrq hWrites

theorem armed_of_programs : ∃ armed : Mmc3, armed.Armed n ∧
    (board.performAll (writes.map Mapper.RegisterWrite.operation)).mapper = .mmc3 armed := by
  have hPending : chip.irqPending = false := by rwa [irq, hMapper] at hIrq
  have hIdle : ∀ o ∈ writes.map Mapper.RegisterWrite.operation, o.counts = false := by
    intro o ho
    obtain ⟨w, -, rfl⟩ := List.mem_map.1 ho
    rfl
  refine ⟨chip.storeAll writes, Mmc3.armed_of_programs hPending hWrites, ?_⟩
  rw [performAll_mapper, hMapper, Mapper.performAll_mmc3, Mmc3.performAll_idle hIdle,
    hWrites.registerWrites]

/-- Of a programmed counter that is left alone, the line is up once `n + 1` lines have counted. -/
theorem irq_iff_of_programs (positions : List Ppu.Position) :
    ((board.performAll (writes.map Mapper.RegisterWrite.operation)).performAll
      (positions.map .observe)).irq = true ↔
        n.toNat + 1 ≤ positions.countP fun p => Counts p := by
  obtain ⟨armed, hArmed, hProgrammed⟩ := armed_of_programs hMapper hIrq hWrites
  have hNone : ∀ o ∈ positions.map Operation.observe, o.registerWrite? = none := by
    intro o ho
    obtain ⟨position, -, rfl⟩ := List.mem_map.1 ho
    rfl
  have hFree := hArmed.free.performAll hNone
  rw [Nat.zero_add, List.countP_map] at hFree
  rw [irq_performAll hProgrammed]
  exact hFree.irqPending

end Programmed

end Board

end Famicom

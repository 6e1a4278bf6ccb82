import Famicom.Proofs.Console.Run

/-!
# Sprite transfers

The request of a sprite transfer is a slot for one page, which a second request would overwrite.
Over every run from a reset none is: a step requests at most one page, the next step serves it
and leaves the slot empty.  A transfer goes ahead of any interrupt that waits.
-/

namespace Famicom.Console

def requested (console : Console) : List UInt8 :=
  SystemBus.requests console.writes

def transferred (probes : Probes) (console : Console) : List UInt8 :=
  (console.shown probes).filterMap Event.transfer?

/-- What a step that transfers a page does: it takes its own count of cycles, copies the page to
sprite memory, leaves the processor where it was, with any interrupt still waiting, and requests
nothing. -/
structure Serves (probes : Probes) (console : Console) (page : UInt8) : Prop where
  request : console.bus.dmaPage = some page
  succeeds : ∃ quantum, (console.step probes).1 = .ok quantum ∧
    quantum.cycles = if console.totalCycles % 2 = 0 then 513 else 514
  oam : (console.step probes).2.bus.ppu.oam = (console.bus.takeDma.2.runDma page).ppu.oam
  registers : (console.step probes).2.cpu.registers = console.cpu.registers
  cycles : (console.step probes).2.cpu.cycles = console.cpu.cycles
  nmiLatched : console.cpu.nmiLatched = true → (console.step probes).2.cpu.nmiLatched = true
  requested : console.requested = []
  taken : (console.step probes).2.bus.dmaPage = none

/-! ### The dots of a turn -/

theorem Turn.sameSetup (t : Turn) (probes : Probes) (n : Nat) :
    Ppu.SameSetup t.bus.ppu (t.videoAfter probes n).ppu := by
  induction n with
  | zero => exact .refl t.bus.ppu
  | succ n ih => exact ih.trans (t.videoAfter_dotted probes n).setup

theorem Turn.nmiLatched_of_latched (t : Turn) (probes : Probes) (h : t.cpu.nmiLatched = true)
    (n : Nat) : (t.videoAfter probes n).nmiLatched = true := by
  induction n with
  | zero => exact h
  | succ n ih => rw [(t.videoAfter_dotted probes n).nmiLatched, ih, Bool.true_or]

theorem Turn.transfers_shown (t : Turn) (probes : Probes) (n : Nat) :
    (t.videoAfter probes n).events.toList.filterMap Event.transfer? =
      t.events.toList.filterMap Event.transfer? := by
  induction n with
  | zero => exact filterMap_note t.events probes.cpu (fun _ => .cpu t.cpu) rfl
  | succ n ih => rw [(t.videoAfter_dotted probes n).transfers, ih]

/-! ### The steps of a run -/

theorem transferred_eq (probes : Probes) (console : Console) :
    console.transferred probes = console.bus.dmaPage.toList := by
  cases hTurn : console.turn with
  | error fault =>
    have hFault := faulted_of_turn hTurn probes
    rw [transferred, hFault.shown, hFault.request]
    rfl
  | ok t =>
    have hShown : console.transferred probes = t.events.toList.filterMap Event.transfer? := by
      rw [transferred, shown_of_turn hTurn]
      exact t.transfers_shown probes t.dots
    rw [hShown]
    rcases turn_cases hTurn with ⟨page, hPage, rfl⟩ | ⟨hPage, hEvents, -⟩
    · rw [hPage]
      rfl
    · rw [hPage, hEvents]
      rfl

theorem dmaPage_step (probes : Probes) (console : Console) :
    (console.step probes).2.bus.dmaPage.toList = console.requested := by
  cases hTurn : console.turn with
  | error fault =>
    have hFault := faulted_of_turn hTurn probes
    rw [hFault.bus.dmaPage, hFault.request, requested, hFault.writes]
    rfl
  | ok t =>
    rw [step_of_turn hTurn]
    show t.bus.dmaPage.toList = console.requested
    rcases turn_cases hTurn with ⟨page, hPage, rfl⟩ | ⟨hPage, -, hRun⟩
    · rw [(console.calm_transferTurn page).dmaPage, requested, writes_of_some hPage]
      rfl
    · -- At most one write of the step can have gone to the slot, so none was overwritten.
      have hSparing := sparing_writes hPage
      have hWrites := writes_of_none hPage
      rw [hWrites] at hSparing
      have hLeft := SystemBus.run_dmaPage console.cpu.step console.bus hPage hSparing
      rw [hRun] at hLeft
      rw [requested, hWrites]
      exact hLeft

theorem requested_length_le (probes : Probes) (console : Console) :
    console.requested.length ≤ 1 := by
  rw [← dmaPage_step probes console]
  cases (console.step probes).2.bus.dmaPage <;> simp

theorem serves_of_request {console : Console} {page : UInt8}
    (h : console.bus.dmaPage = some page) (probes : Probes) : console.Serves probes page := by
  have hTurn : console.turn = .ok (console.transferTurn page) := by simp only [turn, h]
  have hStep := step_of_turn hTurn probes
  have hRequested : console.requested = [] := by
    rw [requested, writes_of_some h]
    rfl
  have hLeft := dmaPage_step probes console
  rw [hRequested, Option.toList_eq_nil_iff] at hLeft
  refine ⟨h, ⟨_, congrArg Prod.fst hStep, ?_⟩, ?_, ?_, ?_, ?_, hRequested, hLeft⟩
  · show dmaCost console.totalCycles = _
    unfold dmaCost dmaCycles
    split <;> omega
  · rw [hStep]
    show ((console.transferTurn page).videoEnd probes).ppu.oam = _
    rw [Turn.videoEnd, ((console.transferTurn page).sameSetup probes _).oam]
    dsimp only [transferTurn]
  · rw [hStep]
    rfl
  · rw [hStep]
    rfl
  · intro hLatched
    rw [hStep]
    exact (console.transferTurn page).nmiLatched_of_latched probes hLatched _

theorem requested_run (probes : Probes) (start : Console) (h : start.bus.dmaPage = none)
    (n : Nat) :
    (history probes start n).flatMap requested =
      (history probes start n).flatMap (transferred probes) ++
        (after probes start n).bus.dmaPage.toList := by
  induction n with
  | zero =>
    show [] = start.bus.dmaPage.toList
    rw [h]
    rfl
  | succ n ih =>
    rw [history_succ, List.flatMap_append, List.flatMap_append, ih, List.flatMap_singleton,
      List.flatMap_singleton, transferred_eq]
    have hLeft : (after probes start (n + 1)).bus.dmaPage.toList =
        (after probes start n).requested := dmaPage_step probes _
    rw [hLeft]

/-- Over every run from a reset, the pages whose transfer the processor requests are, in order,
the pages transferred and then the page left in the slot, which only the last step can have
requested.  The first step transfers nothing and every later one what the step before it
requested, at most one page.  A step that transfers a page serves it: it takes 513 cycles from an
even cycle on and 514 from an odd one, enters no interrupt and starts no other transfer. -/
theorem transfers_served_once (probes : Probes) (console : Console) (n : Nat) :
    let start := console.reset
    let run := after probes start
    let calls := history probes start n
    calls.flatMap requested = calls.flatMap (transferred probes) ++ (run n).bus.dmaPage.toList ∧
      (run n).bus.dmaPage.toList = calls.getLast?.toList.flatMap requested ∧
      (run 0).transferred probes = [] ∧
      (∀ i, (run (i + 1)).transferred probes = (run i).requested) ∧
      (∀ i, (run i).requested.length ≤ 1) ∧
      ∀ i, (run i).transferred probes = [] ∨
        ∃ page, (run i).transferred probes = [page] ∧ (run i).Serves probes page := by
  intro start run calls
  have hStart : start.bus.dmaPage = none := (fresh_reset console).request
  refine ⟨requested_run probes start hStart n, ?_, ?_, ?_, ?_, ?_⟩
  · cases n with
    | zero =>
      show start.bus.dmaPage.toList = []
      rw [hStart]
      rfl
    | succ n =>
      have hLast : calls.getLast? = some (run n) := by
        show (history probes start (n + 1)).getLast? = _
        rw [history_succ, List.getLast?_concat]
      have hLeft : (run (n + 1)).bus.dmaPage.toList = (run n).requested := dmaPage_step probes _
      rw [hLast, hLeft]
      simp
  · rw [transferred_eq]
    show start.bus.dmaPage.toList = []
    rw [hStart]
    rfl
  · intro i
    rw [transferred_eq]
    exact dmaPage_step probes (run i)
  · exact fun i => requested_length_le probes (run i)
  · intro i
    rw [transferred_eq]
    cases hPage : (run i).bus.dmaPage with
    | none => exact .inl rfl
    | some page => exact .inr ⟨page, rfl, serves_of_request hPage probes⟩

end Famicom.Console

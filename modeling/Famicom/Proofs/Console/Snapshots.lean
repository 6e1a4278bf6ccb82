import Famicom.Proofs.Checked.Console
import Famicom.Proofs.Console.Fault
import Mathlib.Algebra.GroupWithZero.Nat

/-!
# Snapshots

Probes only look.  With any of them on, a console goes through the same states, gives the same
results and shows the same frames and transfers as with none.  What they see besides is the
processor after each turn, and picture processor and mapper after each dot.
-/

namespace Famicom.Console

/-! ### Kinds of events -/

def Event.cpu? : Event → Option Cpu
  | .cpu state => some state
  | _ => none

def Event.ppu? : Event → Option Ppu.Snapshot
  | .ppu state => some state
  | _ => none

def Event.banking? : Event → Option Banking
  | .mapper state => some state
  | _ => none

/-- The event is shown only where a probe asks for it. -/
def Event.isSnapshot : Event → Bool
  | .cpu _ | .ppu _ | .mapper _ => true
  | .dma _ _ | .frame _ => false

/-! ### Dots -/

/-- Dots that start from one or the other differ in nothing but the events before them. -/
structure Video.Alike (a b : Video) : Prop where
  ppu : b.ppu = a.ppu
  board : b.board = a.board
  nmiLatched : b.nmiLatched = a.nmiLatched

def Video.dotEvents (probes : Probes) (video : Video) : List Event :=
  let next := video.dot Probes.none
  (if probes.ppu then [.ppu next.ppu.snapshot] else []) ++
    (if probes.mapper then [.mapper next.board.banking] else []) ++
      if next.ppu.raster.isAt Ppu.vblankLine 1 then [.frame next.ppu.frame] else []

theorem toList_note (events : Array Event) (on : Bool) (event : Unit → Event) :
    (note events on event).toList = events.toList ++ if on then [event ()] else [] := by
  cases on with
  | true => simp [note]
  | false => simp [note]

theorem Video.Alike.dot {a b : Video} (h : a.Alike b) (probes others : Probes) :
    (a.dot probes).Alike (b.dot others) := by
  obtain ⟨ppu, board, nmiLatched, events⟩ := a
  obtain ⟨ppu', board', nmiLatched', events'⟩ := b
  obtain ⟨rfl, rfl, rfl⟩ := h
  simp only [Video.dot]
  exact ⟨rfl, rfl, rfl⟩

theorem Video.Alike.dotEvents {a b : Video} (h : a.Alike b) (probes : Probes) :
    b.dotEvents probes = a.dotEvents probes := by
  have hNext := h.dot Probes.none Probes.none
  simp only [Video.dotEvents, hNext.ppu, hNext.board]

theorem dot_events (probes : Probes) (video : Video) :
    (video.dot probes).events.toList = video.events.toList ++ video.dotEvents probes := by
  obtain ⟨ppu, board, nmiLatched, events⟩ := video
  have hComplete := (ppu.tick_ticked board).complete
  simp only [Video.dotEvents, Video.dot, Ppu.takeNmi_eq, toList_note, List.append_assoc]
  rw [hComplete]
  rfl

namespace Turn

/-- What the dots of a turn lead to, one after another, while no probe is on. -/
def dotStates (t : Turn) : List Video :=
  (List.range t.dots).map fun k => t.videoAfter Probes.none (k + 1)

theorem videoAfter_succ (t : Turn) (probes : Probes) (n : Nat) :
    t.videoAfter probes (n + 1) = (t.videoAfter probes n).dot probes :=
  dots_succ probes n (t.video probes)

theorem videoAfter_alike (t : Turn) (probes : Probes) (n : Nat) :
    (t.videoAfter Probes.none n).Alike (t.videoAfter probes n) := by
  induction n with
  | zero => exact ⟨rfl, rfl, rfl⟩
  | succ n ih =>
    rw [videoAfter_succ, videoAfter_succ]
    exact ih.dot Probes.none probes

theorem videoAfter_events (t : Turn) (probes : Probes) (n : Nat) :
    (t.videoAfter probes n).events.toList = (t.video probes).events.toList ++
      (List.range n).flatMap fun k => (t.videoAfter Probes.none k).dotEvents probes := by
  induction n with
  | zero => exact (List.append_nil _).symm
  | succ n ih =>
    -- What is shown does not act on the dots: the next one is as in the run without probes.
    rw [videoAfter_succ, dot_events, ih, (t.videoAfter_alike probes n).dotEvents, List.range_succ,
      List.flatMap_append, List.flatMap_singleton, List.append_assoc]

theorem videoEnd_events (t : Turn) (probes : Probes) :
    (t.videoEnd probes).events.toList = t.events.toList ++
      ((if probes.cpu then [.cpu t.cpu] else []) ++
        (List.range t.dots).flatMap fun k => (t.videoAfter Probes.none k).dotEvents probes) := by
  rw [videoEnd, videoAfter_events, video, toList_note, List.append_assoc]

theorem settled_eq (t : Turn) (probes : Probes) (total : Nat) :
    t.settled probes total = t.settled Probes.none total := by
  have hAlike := t.videoAfter_alike probes t.dots
  simp only [settled, videoEnd, hAlike.ppu, hAlike.board, hAlike.nmiLatched]

end Turn

/-! ### Steps -/

theorem step_console (probes : Probes) (console : Console) :
    (console.step probes).2 = (console.step Probes.none).2 := by
  cases hTurn : console.turn with
  | ok t =>
    rw [step_of_turn hTurn, step_of_turn hTurn]
    exact t.settled_eq probes console.totalCycles
  | error fault => rw [(step_of_fault hTurn probes).2.2, (step_of_fault hTurn Probes.none).2.2]

theorem result_eq (probes : Probes) (console : Console) :
    console.result probes = console.result Probes.none := by
  unfold result
  cases hTurn : console.turn with
  | ok t =>
    rw [step_of_turn hTurn, step_of_turn hTurn]
    rfl
  | error fault => rw [(step_of_fault hTurn probes).2.2, (step_of_fault hTurn Probes.none).2.2]

theorem turn_events {console : Console} {t : Turn} (h : console.turn = .ok t) :
    t.events = #[] ∨ ∃ page cycles, t.events = #[.dma page cycles] := by
  rcases turn_cases h with ⟨page, -, rfl⟩ | ⟨-, hNone, -⟩
  · exact .inr ⟨page, _, rfl⟩
  · exact .inl hNone

section OfTurn

variable {console : Console} {t : Turn} (h : console.turn = .ok t) (probes : Probes)

include h

theorem filterMap_shown {α : Type} (f : Event → Option α)
    (hDma : ∀ page cycles, f (.dma page cycles) = none) :
    (console.shown probes).filterMap f = (if probes.cpu then [.cpu t.cpu] else []).filterMap f ++
      (List.range t.dots).flatMap fun k =>
        ((t.videoAfter Probes.none k).dotEvents probes).filterMap f := by
  have hOwn : t.events.toList.filterMap f = [] := by
    rcases turn_events h with hNone | ⟨page, cycles, hTransfer⟩
    · rw [hNone]
      rfl
    · rw [hTransfer]
      exact List.filterMap_cons_none (hDma page cycles)
  rw [shown_of_turn h, t.videoEnd_events, List.filterMap_append, hOwn, List.nil_append,
    List.filterMap_append, List.filterMap_flatMap]

theorem shown_cpu :
    (console.shown probes).filterMap Event.cpu? = if probes.cpu then [t.cpu] else [] := by
  have hDot (video : Video) : (video.dotEvents probes).filterMap Event.cpu? = [] := by
    simp only [Video.dotEvents, List.filterMap_append]
    split <;> split <;> split <;> rfl
  have hDots : ((List.range t.dots).flatMap fun k =>
      ((t.videoAfter Probes.none k).dotEvents probes).filterMap Event.cpu?) = [] :=
    List.flatMap_eq_nil_iff.2 fun _ _ => hDot _
  rw [filterMap_shown h probes _ fun _ _ => rfl, hDots, List.append_nil]
  split <;> rfl

/-- Where each dot shows one thing of what it led to, a step shows it of all its dots. -/
theorem shown_dots {α : Type} (f : Event → Option α)
    (hDma : ∀ page cycles, f (.dma page cycles) = none)
    (hCpu : ∀ state, f (.cpu state) = none) (on : Bool) (g : Video → α)
    (hDot : ∀ video : Video, (video.dotEvents probes).filterMap f =
      if on then [g (video.dot Probes.none)] else []) :
    (console.shown probes).filterMap f = if on then t.dotStates.map g else [] := by
  have hNone : (if probes.cpu then [Event.cpu t.cpu] else []).filterMap f = [] := by
    split
    · exact List.filterMap_cons_none (hCpu t.cpu)
    · rfl
  rw [filterMap_shown h probes f hDma, hNone, List.nil_append]
  simp only [hDot, ← Turn.videoAfter_succ]
  cases on with
  | true => exact (List.map_eq_flatMap.symm).trans List.map_map.symm
  | false => exact List.flatMap_eq_nil_iff.2 fun _ _ => rfl

theorem shown_ppu :
    (console.shown probes).filterMap Event.ppu? =
      if probes.ppu then t.dotStates.map (·.ppu.snapshot) else [] := by
  refine shown_dots h probes Event.ppu? (fun _ _ => rfl) (fun _ => rfl) probes.ppu _ ?_
  intro video
  simp only [Video.dotEvents, List.filterMap_append]
  split <;> split <;> split <;> rfl

theorem shown_banking :
    (console.shown probes).filterMap Event.banking? =
      if probes.mapper then t.dotStates.map (·.board.banking) else [] := by
  refine shown_dots h probes Event.banking? (fun _ _ => rfl) (fun _ => rfl) probes.mapper _ ?_
  intro video
  simp only [Video.dotEvents, List.filterMap_append]
  split <;> split <;> split <;> rfl

theorem shown_filter :
    (console.shown probes).filter (!·.isSnapshot) = console.shown Probes.none := by
  have hOwn : t.events.toList.filter (!·.isSnapshot) = t.events.toList := by
    rcases turn_events h with hNone | ⟨page, cycles, hTransfer⟩
    · rw [hNone]
      rfl
    · rw [hTransfer]
      rfl
  have hCpu : (if probes.cpu then [Event.cpu t.cpu] else []).filter (!·.isSnapshot) = [] := by
    split <;> rfl
  have hDot (video : Video) : (video.dotEvents probes).filter (!·.isSnapshot) =
      video.dotEvents Probes.none := by
    simp only [Video.dotEvents, List.filter_append]
    split <;> split <;> split <;> rfl
  rw [shown_of_turn h, shown_of_turn h, t.videoEnd_events, t.videoEnd_events, List.filter_append,
    hOwn, List.filter_append, hCpu, List.filter_flatMap]
  simp only [hDot]
  rfl

end OfTurn

/-! ### Runs -/

/-- The consoles on which the steps among some calls are made, in order. -/
def stepped (probes : Probes) (console : Console) : List Call → List Console
  | [] => []
  | .reset :: rest => stepped probes console.reset rest
  | .step :: rest => console :: stepped probes (console.step probes).2 rest

def turns (made : List Console) : List Turn :=
  made.filterMap fun console => console.turn.toOption

def succeeds (console : Console) : Bool :=
  (console.result Probes.none).isOk

theorem stepped_eq (probes : Probes) (console : Console) (calls : List Call) :
    stepped probes console calls = stepped Probes.none console calls := by
  induction calls generalizing console with
  | nil => rfl
  | cons call rest ih =>
    cases call with
    | reset => exact ih console.reset
    | step =>
      rw [stepped, stepped, step_console probes console]
      exact congrArg (console :: ·) (ih _)

theorem performed_eq (probes : Probes) (console : Console) (calls : List Call) :
    calls.foldl (perform probes) console = calls.foldl (perform Probes.none) console := by
  have hPerform : perform probes = perform Probes.none := by
    funext console call
    cases call with
    | reset => rfl
    | step => exact step_console probes console
  rw [hPerform]

theorem turns_of_turn {console : Console} {t : Turn} (h : console.turn = .ok t)
    (rest : List Console) : turns (console :: rest) = t :: turns rest := by
  have hTake : console.turn.toOption = some t := by
    rw [h]
    rfl
  exact List.filterMap_cons_some hTake

theorem turns_of_fault {console : Console} {fault : Cpu.Fault} (h : console.turn = .error fault)
    (rest : List Console) : turns (console :: rest) = turns rest := by
  have hTake : console.turn.toOption = none := by
    rw [h]
    rfl
  exact List.filterMap_cons_none hTake

theorem filterMap_seen {α : Type} (probes : Probes) (f : Event → Option α) (g : Turn → List α)
    (h : ∀ {console : Console} {t : Turn}, console.turn = .ok t →
      (console.shown probes).filterMap f = g t) (made : List Console) :
    (made.flatMap (shown probes)).filterMap f = (turns made).flatMap g := by
  induction made with
  | nil => rfl
  | cons console rest ih =>
    rw [List.flatMap_cons, List.filterMap_append, ih]
    cases hTurn : console.turn with
    | ok t => rw [h hTurn, turns_of_turn hTurn, List.flatMap_cons]
    | error fault =>
      rw [(faulted_of_turn hTurn probes).shown, turns_of_fault hTurn]
      rfl

theorem filter_seen (probes : Probes) (made : List Console) :
    (made.flatMap (shown probes)).filter (!·.isSnapshot) = made.flatMap (shown Probes.none) := by
  rw [List.filter_flatMap]
  congr 1
  funext console
  cases hTurn : console.turn with
  | ok t => exact shown_filter hTurn probes
  | error fault =>
    rw [(faulted_of_turn hTurn probes).shown, (faulted_of_turn hTurn Probes.none).shown]
    rfl

theorem length_turns (made : List Console) : (turns made).length = made.countP succeeds := by
  induction made with
  | nil => rfl
  | cons console rest ih =>
    cases hTurn : console.turn with
    | ok t =>
      have hOk : console.succeeds = true := by
        rw [succeeds, result, step_of_turn hTurn]
        rfl
      rw [turns_of_turn hTurn, List.length_cons, ih, List.countP_cons_of_pos hOk]
    | error fault =>
      have hFails : console.succeeds = false := by
        rw [succeeds, result, (step_of_fault hTurn Probes.none).2.2]
        rfl
      rw [turns_of_fault hTurn, ih, List.countP_cons_of_neg (by simp [hFails])]

theorem length_dotStates (made : List Console) :
    ((turns made).flatMap Turn.dotStates).length =
      3 * (made.map (returned Probes.none)).sum := by
  induction made with
  | nil => rfl
  | cons console rest ih =>
    rw [List.map_cons, List.sum_cons, Nat.mul_add, ← ih]
    cases hTurn : console.turn with
    | ok t =>
      have hDots : t.dotStates.length = 3 * t.cycles := by
        rw [Turn.dotStates, List.length_map, List.length_range]
        rfl
      rw [turns_of_turn hTurn, List.flatMap_cons, List.length_append, hDots,
        returned_of_turn hTurn]
    | error fault =>
      rw [turns_of_fault hTurn, (faulted_of_turn hTurn Probes.none).returned, Nat.mul_zero,
        Nat.zero_add]

/-- Whatever probes are on and however a console is reset and stepped: it goes through the same
consoles, its steps give the same results, and but for snapshots they show the same, frames and
transfers, as with no probe on.  The probe of the processor sees one snapshot for each step that
succeeds, after its turn; those of picture processor and mapper see one for each of the three dots
of each cycle returned, as the dot left them while no probe was on.  A step that fails shows
nothing.  Nothing that is done with what is shown reaches the console. -/
theorem probes_only_observe (probes : Probes) (start : Console) (calls : List Call) :
    let made := stepped Probes.none start calls
    let seen := (stepped probes start calls).flatMap (shown probes)
    let dots := (turns made).flatMap Turn.dotStates
    calls.foldl (perform probes) start = calls.foldl (perform Probes.none) start ∧
    stepped probes start calls = made ∧
    made.map (result probes) = made.map (result Probes.none) ∧
    seen.filter (!·.isSnapshot) = made.flatMap (shown Probes.none) ∧
    seen.filterMap Event.cpu? = (if probes.cpu then (turns made).map Turn.cpu else []) ∧
    seen.filterMap Event.ppu? = (if probes.ppu then dots.map (·.ppu.snapshot) else []) ∧
    seen.filterMap Event.banking? = (if probes.mapper then dots.map (·.board.banking) else []) ∧
    (turns made).length = made.countP succeeds ∧
    dots.length = 3 * (made.map (returned Probes.none)).sum ∧
    (∀ console : Console, console.succeeds = false → console.shown probes = []) ∧
    ∀ (m : Type → Type) [Monad m] [LawfulMonad m] (observe : Event → m Unit)
      (log : Log.Record → m Unit) (console : Console),
      (machine probes observe log).step console = (do
        (console.shown probes).forM observe
        return (console.result Probes.none, (console.step Probes.none).2)) := by
  intro made seen dots
  have hMade : stepped probes start calls = made := stepped_eq probes start calls
  have hSeen : seen = made.flatMap (shown probes) := by
    rw [← hMade]
  have hResult : result probes = result Probes.none := funext (result_eq probes)
  refine ⟨performed_eq probes start calls, hMade, by rw [hResult], ?_, ?_, ?_, ?_,
    length_turns made, length_dotStates made, ?_, ?_⟩
  · rw [hSeen]
    exact filter_seen probes made
  · rw [hSeen, filterMap_seen probes _ _ fun h => shown_cpu h probes]
    split
    · exact List.map_eq_flatMap.symm
    · exact List.flatMap_eq_nil_iff.2 fun _ _ => rfl
  · rw [hSeen, filterMap_seen probes _ _ fun h => shown_ppu h probes]
    split
    · exact List.map_flatMap.symm
    · exact List.flatMap_eq_nil_iff.2 fun _ _ => rfl
  · rw [hSeen, filterMap_seen probes _ _ fun h => shown_banking h probes]
    split
    · exact List.map_flatMap.symm
    · exact List.flatMap_eq_nil_iff.2 fun _ _ => rfl
  · intro console hFails
    cases hTurn : console.turn with
    | ok t =>
      rw [succeeds, result, step_of_turn hTurn] at hFails
      cases hFails
    | error fault => exact (faulted_of_turn hTurn probes).shown
  · intro m _ _ observe log console
    rw [machine_step, hResult, step_console]

theorem probes_only_observe_two_steps :
    let all : Probes := ⟨true, true, true⟩
    let start := powerOn oddCartridge
    let calls := [Call.reset, .step, .step]
    let seen := (stepped all start calls).flatMap (shown all)
    let jammed := (powerOn jammedCartridge).reset
    calls.foldl (perform all) start = calls.foldl (perform Probes.none) start ∧
      (seen.filterMap Event.cpu?).length = 2 ∧ (seen.filterMap Event.ppu?).length = 3 * 14 ∧
      (seen.filterMap Event.banking?).length = 3 * 14 ∧
      jammed.succeeds = false ∧ jammed.shown all = [] := by
  intro all start calls seen jammed
  obtain ⟨hConsole, -, -, -, hCpu, hPpu, hMapper, hSteps, hDots, hFails, -⟩ :=
    probes_only_observe all start calls
  have hTwo : (stepped Probes.none start calls).countP succeeds = 2 := by decide +kernel
  have hCycles : ((stepped Probes.none start calls).map (returned Probes.none)).sum = 14 := by
    decide +kernel
  have hJammed : jammed.succeeds = false := by decide +kernel
  rw [hTwo] at hSteps
  rw [hCycles] at hDots
  refine ⟨hConsole, ?_, ?_, ?_, hJammed, hFails jammed hJammed⟩
  · rw [hCpu, if_pos rfl, List.length_map, hSteps]
  · rw [hPpu, if_pos rfl, List.length_map, hDots]
  · rw [hMapper, if_pos rfl, List.length_map, hDots]

end Famicom.Console

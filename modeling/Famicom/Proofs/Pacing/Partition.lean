import Famicom.Proofs.Cartridge.Format
import Famicom.Proofs.Pacing.Calls
import Mathlib.Algebra.GroupWithZero.Nat

/-!
# Epochs partition a run

The steps of a run are cut into segments, one after another, none left out and none made twice.
Each complete segment is the shortest whose cycles reach the target clock, and is followed by its
one sample before the next step is made.  The run ends at a boundary where it is seen cancelled,
or within a segment when a step fails; the horizon only bounds how many segments are waited for.
-/

namespace Famicom.Pacing

variable {ω σ ε : Type}

/-! ### Segments -/

structure Move (σ : Type) where
  before : σ
  cycles : Nat
  after : σ

def Move.call (move : Move σ) : Call σ ε :=
  .step move.before (.ok move.cycles) move.after

theorem Move.call_mk (before after : σ) (cycles : Nat) :
    (⟨before, cycles, after⟩ : Move σ).call = (.step before (.ok cycles) after : Call σ ε) := rfl

def cyclesOf (moves : List (Move σ)) : Nat :=
  (moves.map Move.cycles).sum

/-- Each step starts in the state that the one before it left. -/
def Leads : σ → List (Move σ) → σ → Prop
  | first, [], last => first = last
  | first, move :: rest, last => move.before = first ∧ Leads move.after rest last

/-- The steps of an epoch and the clock before and after them. -/
structure Segment (σ : Type) where
  start : Nat
  moves : List (Move σ)
  stop : Nat

namespace Segment

def sample (target : Nat) (g : Segment σ) : Sample :=
  .measure (cyclesOf g.moves) (g.stop - g.start) target

def calls (target number : Nat) (g : Segment σ) : List (Call σ ε) :=
  [.cancelled false, .now g.start] ++ g.moves.map Move.call ++
    [.now g.stop, .log (epochRecord number (g.sample target)), .emit (g.sample target)]

/-- The cycles of the segment reach the target, and those of no shorter one do. -/
structure Shortest (target : Nat) (g : Segment σ) : Prop where
  reaches : target ≤ cyclesOf g.moves
  shorter : ∀ n < g.moves.length, cyclesOf (g.moves.take n) < target

end Segment

/-- The calls of some complete segments, numbered from `first` on. -/
def segmentCalls (target : Nat) : Nat → List (Segment σ) → List (Call σ ε)
  | _, [] => []
  | first, g :: rest => g.calls target first ++ segmentCalls target (first + 1) rest

/-- How a run ends behind its last complete segment. -/
inductive Ending (σ ε : Type) where
  | cancelled
  /-- A step of the next segment failed. -/
  | failed (start : Nat) (moves : List (Move σ)) (before : σ) (error : ε) (after : σ)
  | cut

namespace Ending

def calls (epochs : Nat) : Ending σ ε → List (Call σ ε)
  | .cancelled =>
    [.cancelled true, .log ⟨.info, logTarget, s!"cancelled after {epochs} epochs"⟩]
  | .failed start moves before error after =>
    [.cancelled false, .now start] ++ moves.map Move.call ++ [.step before (.error error) after]
  | .cut => []

def outcome (epochs : Nat) : Ending σ ε → Outcome ε Nat
  | .cancelled => .finished epochs
  | .failed _ _ _ error _ => .faulted error
  | .cut => .exhausted

/-- The steps that succeeded in the incomplete segment. -/
def moves : Ending σ ε → List (Move σ)
  | .failed _ moves _ _ _ => moves
  | _ => []

/-- The incomplete segment is one: its cycles do not reach the target, and the step that failed was
the next to be made in state `last`. -/
def Proper (target : Nat) (last : σ) : Ending σ ε → Prop
  | .failed _ moves before _ _ => cyclesOf moves < target ∧ before = last
  | _ => True

end Ending

theorem cyclesOf_nil : cyclesOf ([] : List (Move σ)) = 0 := rfl

theorem cyclesOf_cons (move : Move σ) (moves : List (Move σ)) :
    cyclesOf (move :: moves) = move.cycles + cyclesOf moves := rfl

theorem Leads.append {first middle last : σ} {moves rest : List (Move σ)}
    (h : Leads first moves middle) (hRest : Leads middle rest last) :
    Leads first (moves ++ rest) last := by
  induction moves generalizing first with
  | nil => exact (show first = middle from h) ▸ hRest
  | cons move moves ih => exact ⟨h.1, ih h.2⟩

/-! ### The steps of an epoch -/

/-- Every step that succeeds takes at least one cycle and fewer than 2^32. -/
def Machine.Timed (machine : Machine (StateM ω) σ ε) : Prop :=
  ∀ state world cycles, ((machine.step state).run world).1.1 = .ok cycles →
    1 ≤ cycles ∧ cycles < 2 ^ 32

theorem Machine.Timed.traced {machine : Machine (StateM ω) σ ε} (h : machine.Timed) :
    machine.traced.Timed :=
  fun state t => h state t.world

section

variable {τ : Type} (machine : Machine (StateM τ) σ ε) {target cycles : Nat}

theorem runSteps_of_le (h : target ≤ cycles) (horizon : Nat) (state : σ) (t : τ) :
    (runSteps machine target horizon cycles state).run t = ((.finished cycles, state), t) := by
  cases horizon with
  | zero =>
    unfold runSteps
    rw [if_pos h]
    rfl
  | succ horizon =>
    unfold runSteps
    rw [if_pos h]
    rfl

theorem runSteps_of_ok (h : cycles < target) {horizon spent : Nat} {state next : σ} {t t' : τ}
    (hStep : (machine.step state).run t = ((.ok spent, next), t')) :
    (runSteps machine target (horizon + 1) cycles state).run t =
      (runSteps machine target horizon (cycles + spent) next).run t' := by
  conv => lhs; unfold runSteps
  rw [if_neg (Nat.not_le.2 h), state_run_bind, hStep]

theorem runSteps_of_error (h : cycles < target) {horizon : Nat} {state next : σ} {error : ε}
    {t t' : τ} (hStep : (machine.step state).run t = ((.error error, next), t')) :
    (runSteps machine target (horizon + 1) cycles state).run t =
      ((.faulted error, next), t') := by
  conv => lhs; unfold runSteps
  rw [if_neg (Nat.not_le.2 h), state_run_bind, hStep]
  rfl

end

/-- Some steps made one after another from `cycles` on, the target being out of reach before each
of them. -/
structure Stepped (target cycles : Nat) (first : σ) (moves : List (Move σ)) (last : σ) : Prop where
  leads : Leads first moves last
  shorter : ∀ n < moves.length, cycles + cyclesOf (moves.take n) < target
  bounded : moves ≠ [] → cycles + cyclesOf moves < target + 2 ^ 32

theorem Stepped.nil (target cycles : Nat) (state : σ) : Stepped target cycles state [] state :=
  ⟨rfl, fun _ h => absurd h (Nat.not_lt_zero _), fun h => absurd rfl h⟩

theorem Stepped.cons {target cycles : Nat} (move : Move σ) {moves : List (Move σ)} {last : σ}
    (hCycles : cycles < target) (hSmall : move.cycles < 2 ^ 32)
    (h : Stepped target (cycles + move.cycles) move.after moves last) :
    Stepped target cycles move.before (move :: moves) last where
  leads := ⟨rfl, h.leads⟩
  shorter n hn := by
    cases n with
    | zero => exact hCycles
    | succ n =>
      have hRest := h.shorter n (Nat.lt_of_succ_lt_succ hn)
      rw [List.take_succ_cons, cyclesOf_cons]
      omega
  bounded _ := by
    cases moves with
    | nil =>
      rw [cyclesOf_cons, cyclesOf_nil]
      omega
    | cons next rest =>
      have hRest := h.bounded (List.cons_ne_nil next rest)
      rw [cyclesOf_cons move]
      omega

/-- With a horizon that the missing cycles cannot exceed, the steps of an epoch reach the target or
end with one that fails; they are all recorded. -/
theorem runSteps_traced {machine : Machine (StateM ω) σ ε} (hTimed : machine.Timed)
    {target horizon cycles : Nat} (h : target ≤ cycles + horizon) (state : σ)
    (t : Traced ω σ ε) :
    ∃ moves last world, Stepped target cycles state moves last ∧
      ((target ≤ cycles + cyclesOf moves ∧
        (runSteps machine.traced target horizon cycles state).run t =
          ((.finished (cycles + cyclesOf moves), last),
            ⟨world, t.calls ++ moves.map Move.call⟩)) ∨
      ∃ error after, cycles + cyclesOf moves < target ∧
        (runSteps machine.traced target horizon cycles state).run t =
          ((.faulted error, after),
            ⟨world, t.calls ++ (moves.map Move.call ++ [.step last (.error error) after])⟩)) := by
  induction horizon generalizing cycles state t with
  | zero =>
    have hDone : target ≤ cycles := h
    refine ⟨[], state, t.world, .nil _ _ _, .inl ⟨hDone, ?_⟩⟩
    rw [runSteps_of_le _ hDone, List.map_nil, List.append_nil]
    rfl
  | succ horizon ih =>
    by_cases hDone : target ≤ cycles
    · refine ⟨[], state, t.world, .nil _ _ _, .inl ⟨hDone, ?_⟩⟩
      rw [runSteps_of_le _ hDone, List.map_nil, List.append_nil]
      rfl
    have hCycles := Nat.not_le.1 hDone
    have hRecord := run_record (fun answer => Call.step state answer.1 answer.2)
      (machine.step state) t
    cases hStep : (machine.step state).run t.world with
    | mk answer world =>
      obtain ⟨result, next⟩ := answer
      rw [hStep] at hRecord
      cases result with
      | error error =>
        refine ⟨[], state, world, .nil _ _ _, .inr ⟨error, next, hCycles, ?_⟩⟩
        rw [runSteps_of_error machine.traced hCycles hRecord]
        rfl
      | ok spent =>
        obtain ⟨hLeast, hSmall⟩ := hTimed state t.world spent (by rw [hStep])
        obtain ⟨moves, last, world', hStepped, hEnd⟩ := ih
          (show target ≤ cycles + spent + horizon by omega) next
          ⟨world, t.calls ++ [.step state (.ok spent) next]⟩
        have hAll := Stepped.cons ⟨state, spent, next⟩ hCycles hSmall hStepped
        refine ⟨⟨state, spent, next⟩ :: moves, last, world', hAll, ?_⟩
        have hSum : cycles + cyclesOf (⟨state, spent, next⟩ :: moves) =
            cycles + spent + cyclesOf moves := by
          rw [cyclesOf_cons, Nat.add_assoc]
        rw [hSum, runSteps_of_ok machine.traced hCycles hRecord]
        simpa only [List.map_cons, Move.call_mk, List.append_assoc, List.cons_append,
          List.nil_append] using hEnd

/-! ### Epochs -/

theorem runEpoch_traced {machine : Machine (StateM ω) σ ε} (hTimed : machine.Timed)
    (host : Host (StateM ω)) {target horizon : Nat} (h : target ≤ horizon) (state : σ)
    (t : Traced ω σ ε) :
    ∃ start moves last world, Stepped target 0 state moves last ∧
      ((∃ stop, target ≤ cyclesOf moves ∧
        (runEpoch machine.traced host.traced target horizon state).run t =
          ((.finished (Segment.sample target ⟨start, moves, stop⟩), last),
            ⟨world, t.calls ++ (.now start :: moves.map Move.call ++ [.now stop])⟩)) ∨
      ∃ error after, cyclesOf moves < target ∧
        (runEpoch machine.traced host.traced target horizon state).run t =
          ((.faulted error, after), ⟨world, t.calls ++
            (.now start :: moves.map Move.call ++ [.step last (.error error) after])⟩)) := by
  let start := (host.now.run t.world).1
  let t' : Traced ω σ ε := ⟨(host.now.run t.world).2, t.calls ++ [.now start]⟩
  have hNow : host.traced.now.run t = (start, t') := rfl
  obtain ⟨moves, last, world, hStepped, hEnd⟩ :=
    runSteps_traced hTimed (show target ≤ 0 + horizon by omega) state t'
  rw [Nat.zero_add] at hEnd
  rcases hEnd with ⟨hReach, hRun⟩ | ⟨error, after, hShort, hRun⟩
  · let stop := (host.now.run world).1
    refine ⟨start, moves, last, (host.now.run world).2, hStepped, .inl ⟨stop, hReach, ?_⟩⟩
    have hEpoch : (runEpoch machine.traced host.traced target horizon state).run t =
        ((.finished (Segment.sample target ⟨start, moves, stop⟩), last),
          ⟨(host.now.run world).2, t'.calls ++ moves.map Move.call ++ [.now stop]⟩) := by
      unfold runEpoch
      rw [state_run_bind, hNow, state_run_bind, hRun]
      rfl
    rw [hEpoch]
    simp only [t', List.append_assoc, List.cons_append, List.nil_append]
  · refine ⟨start, moves, last, world, hStepped, .inr ⟨error, after, hShort, ?_⟩⟩
    have hEpoch : (runEpoch machine.traced host.traced target horizon state).run t =
        ((.faulted error, after),
          ⟨world, t'.calls ++ (moves.map Move.call ++ [.step last (.error error) after])⟩) := by
      unfold runEpoch
      rw [state_run_bind, hNow, state_run_bind, hRun]
      rfl
    rw [hEpoch]
    simp only [t', List.append_assoc, List.cons_append, List.nil_append]

/-- Epochs from `state` on cut the steps made into complete segments and an ending; `last` is the
state behind the last step that succeeded. -/
structure Partitioned (target : Nat) (state : σ) (segments : List (Segment σ)) (ending : Ending σ ε)
    (last : σ) : Prop where
  leads : Leads state (segments.flatMap Segment.moves ++ ending.moves) last
  shortest : ∀ g ∈ segments, g.Shortest target
  bounded : ∀ g ∈ segments, cyclesOf g.moves < target + 2 ^ 32
  proper : ending.Proper target last

theorem Partitioned.stop {target : Nat} {state : σ} {ending : Ending σ ε}
    (h : ending = .cancelled ∨ ending = .cut) : Partitioned target state [] ending state := by
  have hNone : ∀ g ∈ ([] : List (Segment σ)), False := fun _ hMem => List.not_mem_nil hMem
  rcases h with rfl | rfl
  · exact ⟨rfl, fun g hMem => (hNone g hMem).elim, fun g hMem => (hNone g hMem).elim, trivial⟩
  · exact ⟨rfl, fun g hMem => (hNone g hMem).elim, fun g hMem => (hNone g hMem).elim, trivial⟩

theorem Partitioned.fail {target start : Nat} {state last after : σ} {moves : List (Move σ)}
    {error : ε} (h : Stepped target 0 state moves last) (hShort : cyclesOf moves < target) :
    Partitioned target state [] (.failed start moves last error after) last where
  leads := h.leads
  shortest _ hMem := absurd hMem List.not_mem_nil
  bounded _ hMem := absurd hMem List.not_mem_nil
  proper := ⟨hShort, rfl⟩

theorem Partitioned.cons {target start stop : Nat} {state middle last : σ} {moves : List (Move σ)}
    {segments : List (Segment σ)} {ending : Ending σ ε} (h : Stepped target 0 state moves middle)
    (hReach : target ≤ cyclesOf moves) (hRest : Partitioned target middle segments ending last) :
    Partitioned target state (⟨start, moves, stop⟩ :: segments) ending last where
  leads := by
    rw [List.flatMap_cons, List.append_assoc]
    exact h.leads.append hRest.leads
  shortest g hMem := by
    rcases List.mem_cons.1 hMem with rfl | hMem
    · exact ⟨hReach, fun n hn => Nat.zero_add (cyclesOf _) ▸ h.shorter n hn⟩
    · exact hRest.shortest g hMem
  bounded g hMem := by
    rcases List.mem_cons.1 hMem with rfl | hMem
    · cases moves with
      | nil => exact Nat.lt_of_lt_of_le (Nat.two_pow_pos 32) (Nat.le_add_left _ _)
      | cons move rest => exact Nat.zero_add (cyclesOf _) ▸ h.bounded (List.cons_ne_nil move rest)
    · exact hRest.bounded g hMem
  proper := hRest.proper

theorem paceFrom_traced {machine : Machine (StateM ω) σ ε} (hTimed : machine.Timed)
    (host : Host (StateM ω)) {target horizon : Nat} (h : target ≤ horizon) (rounds epoch : Nat)
    (state : σ) (t : Traced ω σ ε) :
    ∃ segments ending last after world, Partitioned target state segments ending last ∧
      (ending = .cut → segments.length = rounds) ∧
      (paceFrom machine.traced host.traced target horizon rounds epoch state).run t =
        ((ending.outcome (epoch + segments.length), after), ⟨world, t.calls ++
          (segmentCalls target epoch segments ++ ending.calls (epoch + segments.length))⟩) := by
  induction rounds generalizing epoch state t with
  | zero =>
    refine ⟨[], .cut, state, state, t.world, .stop (.inr rfl), fun _ => rfl, ?_⟩
    rw [segmentCalls, Ending.calls, List.nil_append, List.append_nil]
    rfl
  | succ rounds ih =>
    let asked : Traced ω σ ε := ⟨(host.cancelled.run t.world).2,
      t.calls ++ [.cancelled (host.cancelled.run t.world).1]⟩
    have hAsked : host.traced.cancelled.run t = ((host.cancelled.run t.world).1, asked) := rfl
    cases hAnswer : (host.cancelled.run t.world).1 with
    | true =>
      rw [hAnswer] at hAsked
      let entry : Log.Record := ⟨.info, logTarget, s!"cancelled after {epoch} epochs"⟩
      refine ⟨[], .cancelled, state, state, ((host.log entry).run asked.world).2,
        .stop (.inl rfl), nofun, ?_⟩
      unfold paceFrom
      rw [state_run_bind, hAsked, if_pos rfl, state_run_bind]
      show ((_, _), (⟨_, (t.calls ++ [.cancelled (host.cancelled.run t.world).1]) ++ [.log entry]⟩ :
        Traced ω σ ε)) = _
      rw [hAnswer, List.append_assoc]
      rfl
    | false =>
      rw [hAnswer] at hAsked
      obtain ⟨start, moves, middle, world, hStepped, hEnd⟩ :=
        runEpoch_traced hTimed host h state asked
      rcases hEnd with ⟨stop, hReach, hRun⟩ | ⟨error, after, hShort, hRun⟩
      · let g : Segment σ := ⟨start, moves, stop⟩
        let entry := epochRecord epoch (g.sample target)
        let logged := ((host.log entry).run world).2
        obtain ⟨segments, ending, last, after, world', hRest, hCut, hTail⟩ := ih (epoch + 1) middle
          ⟨((host.emit (g.sample target)).run logged).2,
            asked.calls ++ (.now start :: moves.map Move.call ++ [.now stop]) ++ [.log entry] ++
              [.emit (g.sample target)]⟩
        refine ⟨g :: segments, ending, last, after, world', .cons hStepped hReach hRest,
          fun hEnding => congrArg (· + 1) (hCut hEnding), ?_⟩
        unfold paceFrom
        rw [state_run_bind, hAsked, if_neg Bool.false_ne_true, state_run_bind, hRun]
        refine hTail.trans ?_
        have hCount : epoch + 1 + segments.length = epoch + (g :: segments).length := by
          rw [List.length_cons]
          omega
        simp only [hCount, asked, hAnswer, segmentCalls, Segment.calls, g, entry,
          List.append_assoc, List.cons_append, List.nil_append]
      · refine ⟨[], .failed start moves middle error after, middle, after, world,
          .fail hStepped hShort, nofun, ?_⟩
        unfold paceFrom
        rw [state_run_bind, hAsked, if_neg Bool.false_ne_true, state_run_bind, hRun]
        show ((_, _), (⟨world, _⟩ : Traced ω σ ε)) = _
        simp only [asked, hAnswer, segmentCalls, Ending.calls, Ending.outcome,
          List.append_assoc, List.cons_append, List.nil_append]

/-! ### The horizon -/

section

variable {τ : Type} {machine : Machine (StateM τ) σ ε} {target horizon : Nat}

theorem runSteps_horizon (hTimed : machine.Timed) {cycles : Nat} (h : target ≤ cycles + horizon)
    (more : Nat) (state : σ) (t : τ) :
    (runSteps machine target (horizon + more) cycles state).run t =
      (runSteps machine target horizon cycles state).run t := by
  induction horizon generalizing cycles state t with
  | zero =>
    have hDone : target ≤ cycles := h
    rw [runSteps_of_le _ hDone, runSteps_of_le _ hDone]
  | succ horizon ih =>
    by_cases hDone : target ≤ cycles
    · rw [runSteps_of_le _ hDone, runSteps_of_le _ hDone]
    have hCycles := Nat.not_le.1 hDone
    rw [Nat.add_right_comm horizon 1 more]
    cases hStep : (machine.step state).run t with
    | mk answer t' =>
      obtain ⟨result, next⟩ := answer
      cases result with
      | error error =>
        rw [runSteps_of_error _ hCycles hStep, runSteps_of_error _ hCycles hStep]
      | ok spent =>
        have hLeast := (hTimed state t spent (by rw [hStep])).1
        rw [runSteps_of_ok _ hCycles hStep, runSteps_of_ok _ hCycles hStep,
          ih (show target ≤ cycles + spent + horizon by omega)]

theorem runEpoch_horizon (hTimed : machine.Timed) (host : Host (StateM τ)) (h : target ≤ horizon)
    (more : Nat) (state : σ) :
    runEpoch machine host target (horizon + more) state =
      runEpoch machine host target horizon state := by
  have hSteps : runSteps machine target (horizon + more) 0 state =
      runSteps machine target horizon 0 state :=
    funext (runSteps_horizon hTimed (show target ≤ 0 + horizon by omega) more state)
  rw [runEpoch, hSteps]
  rfl

theorem paceFrom_horizon (hTimed : machine.Timed) (host : Host (StateM τ)) (h : target ≤ horizon)
    {rounds : Nat} (more moreRounds epoch : Nat) (state : σ) (t : τ)
    (hEnds : ((paceFrom machine host target horizon rounds epoch state).run t).1.1 ≠ .exhausted) :
    (paceFrom machine host target (horizon + more) (rounds + moreRounds) epoch state).run t =
      (paceFrom machine host target horizon rounds epoch state).run t := by
  induction rounds generalizing epoch state t with
  | zero => exact absurd rfl hEnds
  | succ rounds ih =>
    rw [Nat.add_right_comm rounds 1 moreRounds]
    unfold paceFrom at hEnds ⊢
    rw [state_run_bind] at hEnds ⊢
    rw [state_run_bind]
    cases hAnswer : (host.cancelled.run t).1 with
    | true => rfl
    | false =>
      rw [hAnswer] at hEnds
      rw [if_neg Bool.false_ne_true, state_run_bind] at hEnds ⊢
      rw [if_neg Bool.false_ne_true, state_run_bind, runEpoch_horizon hTimed host h]
      cases hEpoch : (runEpoch machine host target horizon state).run (host.cancelled.run t).2 with
      | mk answer t' =>
        obtain ⟨outcome, next⟩ := answer
        rw [hEpoch] at hEnds
        cases outcome with
        | finished sample => exact ih _ _ _ hEnds
        | faulted error => rfl
        | exhausted => rfl

end

/-! ### Runs -/

def runOutcome : Outcome ε Nat → Outcome (RunError ε) Nat
  | .finished epochs => .finished epochs
  | .faulted error => .faulted (.fault error)
  | .exhausted => .exhausted

def openingCalls (target : Nat) (cartridge : Cartridge) (built ready : σ) : List (Call σ ε) :=
  [.log ⟨.info, logTarget, s!"cartridge: {cartridge.title}"⟩,
    .log ⟨.info, logTarget, s!"target clock {target} Hz"⟩,
    .build cartridge built, .reset built ready]

/-- The call neither shows that the run is cancelled nor is a step that fails. -/
def Call.GoesOn : Call σ ε → Prop
  | .cancelled answer => answer = false
  | .step _ result _ => ∃ cycles, result = .ok cycles
  | _ => True

theorem goesOn_of_mem_moves {moves : List (Move σ)} {call : Call σ ε}
    (h : call ∈ moves.map Move.call) : call.GoesOn := by
  obtain ⟨move, -, rfl⟩ := List.mem_map.1 h
  exact ⟨move.cycles, rfl⟩

theorem Segment.goesOn {target number : Nat} {g : Segment σ} {call : Call σ ε}
    (h : call ∈ g.calls target number) : call.GoesOn := by
  simp only [Segment.calls, List.mem_append, List.mem_cons, List.not_mem_nil, or_false] at h
  rcases h with ((rfl | rfl) | h) | rfl | rfl | rfl
  · rfl
  · trivial
  · exact goesOn_of_mem_moves h
  · trivial
  · trivial
  · trivial

theorem goesOn_of_mem_segmentCalls {target first : Nat} {segments : List (Segment σ)}
    {call : Call σ ε} (h : call ∈ segmentCalls target first segments) : call.GoesOn := by
  induction segments generalizing first with
  | nil => exact absurd h List.not_mem_nil
  | cons g segments ih =>
    rcases List.mem_append.1 h with h | h
    · exact g.goesOn h
    · exact ih h

theorem goesOn_of_mem_opening {target : Nat} {cartridge : Cartridge} {built ready : σ}
    {call : Call σ ε} (h : call ∈ openingCalls target cartridge built ready) : call.GoesOn := by
  simp only [openingCalls, List.mem_cons, List.not_mem_nil, or_false] at h
  rcases h with rfl | rfl | rfl | rfl
  · trivial
  · trivial
  · trivial
  · trivial

theorem not_goesOn_cancelled : ¬ (.cancelled true : Call σ ε).GoesOn :=
  fun h => Bool.false_ne_true h.symm

theorem not_goesOn_error (before after : σ) (error : ε) :
    ¬ (.step before (.error error) after : Call σ ε).GoesOn :=
  fun ⟨_, h⟩ => nomatch h

/-- Of the calls of a run, only those of its ending tell that it is over. -/
theorem mem_ending {target epochs : Nat} {cartridge : Cartridge} {built ready : σ}
    {segments : List (Segment σ)} {ending : Ending σ ε} {call : Call σ ε} (h : ¬ call.GoesOn) :
    call ∈ openingCalls target cartridge built ready ++
      (segmentCalls target 0 segments ++ ending.calls epochs) ↔ call ∈ ending.calls epochs := by
  constructor
  · intro hMem
    rcases List.mem_append.1 hMem with hMem | hMem
    · exact absurd (goesOn_of_mem_opening hMem) h
    rcases List.mem_append.1 hMem with hMem | hMem
    · exact absurd (goesOn_of_mem_segmentCalls hMem) h
    · exact hMem
  · intro hMem
    exact List.mem_append_right _ (List.mem_append_right _ hMem)

theorem Ending.finished_iff {epochs n : Nat} {ending : Ending σ ε} :
    runOutcome (ending.outcome epochs) = .finished n ↔
      .cancelled true ∈ ending.calls epochs ∧ epochs = n := by
  cases ending with
  | cancelled =>
    refine ⟨fun h => ⟨List.mem_cons_self, ?_⟩, fun h => by rw [← h.2]; rfl⟩
    injection h
  | failed start moves before error after =>
    refine ⟨nofun, fun ⟨h, _⟩ => ?_⟩
    simp only [Ending.calls, List.mem_append, List.mem_cons, List.not_mem_nil, or_false] at h
    rcases h with ((h | h) | h) | h
    · exact absurd h nofun
    · exact absurd h nofun
    · exact absurd (goesOn_of_mem_moves h) not_goesOn_cancelled
    · exact absurd h nofun
  | cut => exact ⟨nofun, fun h => absurd h.1 List.not_mem_nil⟩

theorem Ending.faulted_iff {epochs : Nat} {ending : Ending σ ε} {error : ε} :
    runOutcome (ending.outcome epochs) = .faulted (.fault error) ↔
      ∃ before after, .step before (.error error) after ∈ ending.calls epochs := by
  cases ending with
  | cancelled =>
    refine ⟨nofun, fun ⟨before, after, h⟩ => ?_⟩
    simp only [Ending.calls, List.mem_cons, List.not_mem_nil, or_false] at h
    rcases h with h | h
    · exact absurd h nofun
    · exact absurd h nofun
  | failed start moves last error' after' =>
    constructor
    · intro h
      injection h with h
      injection h with h
      exact ⟨last, after', List.mem_append_right _ (h ▸ List.mem_cons_self)⟩
    · rintro ⟨before, after, h⟩
      simp only [Ending.calls, List.mem_append, List.mem_cons, List.not_mem_nil, or_false] at h
      rcases h with ((h | h) | h) | h
      · exact absurd h nofun
      · exact absurd h nofun
      · exact absurd (goesOn_of_mem_moves h) (not_goesOn_error before after error)
      · injection h with _ hError _
        injection hError with hError
        rw [hError]
        rfl
  | cut => exact ⟨nofun, fun ⟨_, _, h⟩ => absurd h List.not_mem_nil⟩

theorem Ending.ne_format (epochs : Nat) (ending : Ending σ ε) (error : Cartridge.FormatError) :
    runOutcome (ending.outcome epochs) ≠ .faulted (.format error) := by
  cases ending with
  | cancelled => nofun
  | failed start moves before error after => nofun
  | cut => nofun

theorem Ending.eq_cut {epochs : Nat} {ending : Ending σ ε}
    (h : runOutcome (ending.outcome epochs) = .exhausted) : ending = .cut := by
  cases ending with
  | cancelled => exact absurd h nofun
  | failed start moves before error after => exact absurd h nofun
  | cut => rfl

theorem runTraced_rejected {image : Array UInt8} {error : Cartridge.FormatError}
    (h : Cartridge.ofImage image = .error error) (machine : Machine (StateM ω) σ ε)
    (host : Host (StateM ω)) (target horizon : Nat) (build : Cartridge → StateM ω σ) (world : ω) :
    runTraced machine host target horizon build image world =
      (.faulted (.format error), ⟨world, []⟩) := by
  unfold runTraced runImage
  rw [h]
  rfl

theorem runTraced_accepted {image : Array UInt8} {cartridge : Cartridge}
    (h : Cartridge.ofImage image = .ok cartridge) (machine : Machine (StateM ω) σ ε)
    (host : Host (StateM ω)) (target : Nat) (build : Cartridge → StateM ω σ) (world : ω) :
    ∃ built ready world', ∀ horizon,
      runTraced machine host target horizon build image world =
        (((pace machine.traced host.traced target horizon ready).run
          ⟨world', openingCalls target cartridge built ready⟩).map
            (fun answer => runOutcome answer.1) id) := by
  let titled := (host.log ⟨.info, logTarget, s!"cartridge: {cartridge.title}"⟩).run world
  let clocked := (host.log ⟨.info, logTarget, s!"target clock {target} Hz"⟩).run titled.2
  let built := (build cartridge).run clocked.2
  let ready := (machine.reset built.1).run built.2
  refine ⟨built.1, ready.1, ready.2, fun horizon => ?_⟩
  let opened : Traced ω σ ε := ⟨ready.2, openingCalls target cartridge built.1 ready.1⟩
  -- What follows the four calls of the opening starts in their world.
  have hOpened : ∀ next : σ → StateM (Traced ω σ ε) (Outcome (RunError ε) Nat), (do
      host.traced.log ⟨.info, logTarget, s!"cartridge: {cartridge.title}"⟩
      host.traced.log ⟨.info, logTarget, s!"target clock {target} Hz"⟩
      let state ← record (.build cartridge) (build cartridge)
      let state ← machine.traced.reset state
      next state).run ⟨world, []⟩ = (next ready.1).run opened := fun _ => rfl
  unfold runTraced runImage
  rw [h]
  refine (hOpened _).trans ?_
  rw [state_run_bind]
  cases hPace : (pace machine.traced host.traced target horizon ready.1).run opened with
  | mk answer t =>
    obtain ⟨outcome, next⟩ := answer
    cases outcome with
    | finished epochs => rfl
    | faulted error => rfl
    | exhausted => rfl

/-- Epochs partition a run.  A rejected image ends it at once.  With an accepted one the machine is
built and reset once and then makes step after step, each from the state that the one before it
left; they are cut into segments, each the shortest to reach the target and followed by its one
sample, until the run is seen cancelled at a boundary or a step fails.  The horizon has no part in
it beyond the number of segments that are waited for. -/
theorem epochs_partition_run {machine : Machine (StateM ω) σ ε} (hTimed : machine.Timed)
    (host : Host (StateM ω)) {target horizon : Nat} (hTarget : target + 2 ^ 32 ≤ 2 ^ 64)
    (hHorizon : target ≤ horizon) (build : Cartridge → StateM ω σ) (image : Array UInt8)
    (world : ω) :
    let run := runTraced machine host target horizon build image world
    (runImage machine host target horizon build image).run world = (run.1, run.2.world) ∧
    (∀ error, Cartridge.ofImage image = .error error →
      run = (.faulted (.format error), ⟨world, []⟩)) ∧
    (∀ cartridge, Cartridge.ofImage image = .ok cartridge →
      ∃ (built ready last : σ) (segments : List (Segment σ)) (ending : Ending σ ε),
        run.2.calls = openingCalls target cartridge built ready ++
          (segmentCalls target 0 segments ++ ending.calls segments.length) ∧
        Leads ready (segments.flatMap Segment.moves ++ ending.moves) last ∧
        ending.Proper target last ∧
        (∀ g ∈ segments, g.Shortest target ∧ cyclesOf g.moves < 2 ^ 64 ∧
          (g.sample target).cycles = cyclesOf g.moves ∧
          (g.sample target).clockHz = min (2 ^ 64 - 1)
            (cyclesOf g.moves * 10 ^ 9 / max 1 (g.stop - g.start))) ∧
        (∀ n, run.1 = .finished n ↔ .cancelled true ∈ run.2.calls ∧ segments.length = n) ∧
        (∀ error, run.1 = .faulted (.fault error) ↔
          ∃ before after, .step before (.error error) after ∈ run.2.calls) ∧
        (∀ error, run.1 ≠ .faulted (.format error)) ∧
        (run.1 = .exhausted → segments.length = horizon)) ∧
    (run.1 ≠ .exhausted → ∀ more,
      runTraced machine host target (horizon + more) build image world = run) := by
  intro run
  refine ⟨runTraced_run machine host target horizon build image world,
    fun error h => runTraced_rejected h machine host target horizon build world,
    fun cartridge h => ?_, fun hEnds more => ?_⟩
  · obtain ⟨built, ready, world', hRun⟩ := runTraced_accepted h machine host target build world
    obtain ⟨segments, ending, last, after, world'', hParts, hCut, hPace⟩ :=
      paceFrom_traced hTimed host hHorizon horizon 0 ready
        ⟨world', openingCalls target cartridge built ready⟩
    rw [Nat.zero_add] at hPace
    have hAll : run = (runOutcome (ending.outcome segments.length), ⟨world'',
        openingCalls target cartridge built ready ++
          (segmentCalls target 0 segments ++ ending.calls segments.length)⟩) := by
      rw [show run = _ from hRun horizon, pace, hPace]
      rfl
    rw [hAll]
    refine ⟨built, ready, last, segments, ending, rfl, hParts.leads, hParts.proper,
      fun g hMem => ⟨hParts.shortest g hMem, ?_, rfl, ?_⟩, fun n => ?_, fun error => ?_,
      fun error => ?_, fun hEnd => hCut ?_⟩
    · exact Nat.lt_of_lt_of_le (hParts.bounded g hMem) hTarget
    · rw [Nat.max_comm]
      rfl
    · rw [mem_ending not_goesOn_cancelled]
      exact Ending.finished_iff
    · refine Ending.faulted_iff.trans (exists_congr fun before => exists_congr fun after => ?_)
      exact (mem_ending (not_goesOn_error before after error)).symm
    · exact ending.ne_format _ _
    · exact Ending.eq_cut hEnd
  · cases h : Cartridge.ofImage image with
    | error error =>
      rw [show run = _ from runTraced_rejected h machine host target horizon build world,
        runTraced_rejected h]
    | ok cartridge =>
      obtain ⟨built, ready, world', hRun⟩ := runTraced_accepted h machine host target build world
      rw [show run = _ from hRun horizon] at hEnds ⊢
      rw [hRun, pace, paceFrom_horizon hTimed.traced host.traced hHorizon more more]
      · rfl
      · intro hNone
        refine hEnds ?_
        rw [pace, Prod.map_fst, hNone]
        rfl

/-- A machine of three cycles and one nanosecond a step. -/
def steadyMachine : Machine (StateM Nat) Nat Unit where
  reset _ := pure 0
  step state := do
    modify (· + 1)
    return (.ok 3, state + 1)

/-- A host that cancels from five nanoseconds on. -/
def briefHost : Host (StateM Nat) where
  now := get
  emit _ := pure ()
  cancelled := do return decide (5 ≤ (← get))
  log _ := pure ()

theorem run_steadyMachine {image : Array UInt8} {cartridge : Cartridge}
    (h : Cartridge.ofImage image = .ok cartridge) :
    (runImage steadyMachine briefHost 4 4 (fun _ => pure 0) image).run 0 = (.finished 3, 6) := by
  unfold runImage
  rw [h]
  rfl

/-- Three segments of two steps each reach a target of four cycles. -/
theorem epochs_partition_run_three :
    steadyMachine.Timed ∧ ∃ (image : Array UInt8) (c : Cartridge),
      let run := runTraced steadyMachine briefHost 4 4 (fun _ => pure 0) image 0
      Cartridge.ofImage image = .ok c ∧ run.1 = .finished 3 ∧
        ∃ (built ready : Nat) (segments : List (Segment Nat)) (ending : Ending Nat Unit),
          run.2.calls = openingCalls 4 c built ready ++
            (segmentCalls 4 0 segments ++ ending.calls 3) ∧
          segments.length = 3 ∧ ∀ g ∈ segments, g.Shortest 4 := by
  have hTimed : steadyMachine.Timed := by
    intro state world cycles h
    obtain rfl : 3 = cycles := Except.ok.inj h
    decide
  -- The run depends on the image only through its being accepted.
  obtain ⟨image, c, hImage⟩ : ∃ image c, Cartridge.ofImage image = .ok c := by
    let c : Cartridge :=
      ⟨Array.replicate 16384 0xAA, #[], .nrom, .horizontal, false, none,
        by rw [Array.size_replicate]; decide⟩
    have hStorable : c.Storable 1 0 := {
      prg := Array.size_replicate
      prgBanks_le := by decide
      chr := rfl
      chrBanks_le := by decide
      trainer := nofun
      mirroring := by decide }
    exact ⟨c.toImage ++ #[], c,
      (Cartridge.ofImage_eq_ok_iff _ c).2 ⟨hStorable.fits, hStorable.shows⟩⟩
  obtain ⟨hSame, -, hAccepted, -⟩ := epochs_partition_run hTimed briefHost
    (show 4 + 2 ^ 32 ≤ 2 ^ 64 by decide) (Nat.le_refl 4) (fun _ => pure 0) image 0
  have hRun := (Prod.mk.inj (hSame.symm.trans (run_steadyMachine hImage))).1
  obtain ⟨built, ready, last, segments, ending, hCalls, -, -, hSegments, hFinished, -⟩ :=
    hAccepted c hImage
  have hThree := ((hFinished 3).1 hRun).2
  refine ⟨hTimed, image, c, hImage, hRun, built, ready, segments, ending, ?_, hThree,
    fun g hMem => (hSegments g hMem).1⟩
  rw [hCalls, hThree]

end Famicom.Pacing

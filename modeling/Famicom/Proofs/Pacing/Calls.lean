import Famicom.Pacing.Epoch

/-!
# Calls of a run

What a paced run asks of its machine and of its host, in order and with the answers.  Machine and
host act on a world of any kind; recording their calls beside it changes neither the outcome of a
run nor the world it leaves.
-/

namespace Famicom.Pacing

variable {ω σ ε α γ : Type}

/-! ### Recording -/

/-- Something that a run asks of its surroundings, with the answer. -/
inductive Call (σ ε : Type) where
  | build (cartridge : Cartridge) (state : σ)
  | reset (before after : σ)
  | step (before : σ) (result : Except ε Nat) (after : σ)
  | now (reading : Nat)
  | emit (sample : Sample)
  | cancelled (answer : Bool)
  | log (record : Log.Record)

structure Traced (ω σ ε : Type) where
  world : ω
  calls : List (Call σ ε)

def record (call : α → Call σ ε) (action : StateM ω α) : StateM (Traced ω σ ε) α := fun t =>
  match action.run t.world with
  | (a, world) => (a, ⟨world, t.calls ++ [call a]⟩)

def Machine.traced (machine : Machine (StateM ω) σ ε) : Machine (StateM (Traced ω σ ε)) σ ε where
  reset state := record (.reset state) (machine.reset state)
  step state := record (fun answer => .step state answer.1 answer.2) (machine.step state)

def Host.traced (host : Host (StateM ω)) : Host (StateM (Traced ω σ ε)) where
  now := record .now host.now
  emit sample := record (fun _ => .emit sample) (host.emit sample)
  cancelled := record .cancelled host.cancelled
  log entry := record (fun _ => .log entry) (host.log entry)

def runTraced (machine : Machine (StateM ω) σ ε) (host : Host (StateM ω)) (target horizon : Nat)
    (build : Cartridge → StateM ω σ) (image : Array UInt8) (world : ω) :
    Outcome (RunError ε) Nat × Traced ω σ ε :=
  (runImage machine.traced host.traced target horizon
    (fun cartridge => record (.build cartridge) (build cartridge)) image).run ⟨world, []⟩

theorem state_run_bind {τ : Type} (action : StateM τ α) (next : α → StateM τ γ) (t : τ) :
    (action >>= next).run t = (next (action.run t).1).run (action.run t).2 := rfl

theorem run_record (call : α → Call σ ε) (action : StateM ω α) (t : Traced ω σ ε) :
    (record call action).run t = ((action.run t.world).1,
      ⟨(action.run t.world).2, t.calls ++ [call (action.run t.world).1]⟩) := rfl

/-! ### Recording changes nothing -/

/-- The recording computation gives what the plain one gives and leaves the world as it does. -/
def Mirrors (traced : StateM (Traced ω σ ε) α) (plain : StateM ω α) : Prop :=
  ∀ t, (traced.run t).1 = (plain.run t.world).1 ∧
    (traced.run t).2.world = (plain.run t.world).2

theorem mirrors_pure (a : α) : Mirrors (pure a : StateM (Traced ω σ ε) α) (pure a) :=
  fun _ => ⟨rfl, rfl⟩

theorem mirrors_record (call : α → Call σ ε) (action : StateM ω α) :
    Mirrors (record call action) action :=
  fun _ => ⟨rfl, rfl⟩

theorem Mirrors.bind {traced : StateM (Traced ω σ ε) α} {plain : StateM ω α}
    {next : α → StateM (Traced ω σ ε) γ} {next' : α → StateM ω γ} (h : Mirrors traced plain)
    (hNext : ∀ a, Mirrors (next a) (next' a)) : Mirrors (traced >>= next) (plain >>= next') := by
  intro t
  obtain ⟨hValue, hWorld⟩ := h t
  obtain ⟨hLast, hLeft⟩ := hNext (traced.run t).1 (traced.run t).2
  rw [hWorld] at hLast hLeft
  rw [state_run_bind, state_run_bind, hLast, hLeft, hValue]
  exact ⟨rfl, rfl⟩

theorem Machine.mirrors_step (machine : Machine (StateM ω) σ ε) (state : σ) :
    Mirrors (machine.traced.step state) (machine.step state) :=
  mirrors_record _ _

theorem Machine.mirrors_reset (machine : Machine (StateM ω) σ ε) (state : σ) :
    Mirrors (machine.traced.reset state) (machine.reset state) :=
  mirrors_record _ _

theorem Host.mirrors_now (host : Host (StateM ω)) :
    Mirrors (host.traced (σ := σ) (ε := ε)).now host.now :=
  mirrors_record _ _

theorem Host.mirrors_emit (host : Host (StateM ω)) (sample : Sample) :
    Mirrors ((host.traced (σ := σ) (ε := ε)).emit sample) (host.emit sample) :=
  mirrors_record _ _

theorem Host.mirrors_cancelled (host : Host (StateM ω)) :
    Mirrors (host.traced (σ := σ) (ε := ε)).cancelled host.cancelled :=
  mirrors_record _ _

theorem Host.mirrors_log (host : Host (StateM ω)) (entry : Log.Record) :
    Mirrors ((host.traced (σ := σ) (ε := ε)).log entry) (host.log entry) :=
  mirrors_record _ _

theorem mirrors_runSteps (machine : Machine (StateM ω) σ ε) (budget horizon cycles : Nat)
    (state : σ) :
    Mirrors (runSteps machine.traced budget horizon cycles state)
      (runSteps machine budget horizon cycles state) := by
  induction horizon generalizing cycles state with
  | zero => exact mirrors_pure _
  | succ horizon ih =>
    unfold runSteps
    split
    · exact mirrors_pure _
    · refine (machine.mirrors_step state).bind fun answer => ?_
      obtain ⟨result, next⟩ := answer
      cases result with
      | ok spent => exact ih _ _
      | error error => exact mirrors_pure _

theorem mirrors_runEpoch (machine : Machine (StateM ω) σ ε) (host : Host (StateM ω))
    (target horizon : Nat) (state : σ) :
    Mirrors (runEpoch machine.traced host.traced target horizon state)
      (runEpoch machine host target horizon state) := by
  refine host.mirrors_now.bind fun start => ?_
  refine (mirrors_runSteps machine target horizon 0 state).bind fun answer => ?_
  obtain ⟨outcome, next⟩ := answer
  cases outcome with
  | finished cycles => exact host.mirrors_now.bind fun stop => mirrors_pure _
  | faulted error => exact mirrors_pure _
  | exhausted => exact mirrors_pure _

theorem mirrors_paceFrom (machine : Machine (StateM ω) σ ε) (host : Host (StateM ω))
    (target horizon rounds epoch : Nat) (state : σ) :
    Mirrors (paceFrom machine.traced host.traced target horizon rounds epoch state)
      (paceFrom machine host target horizon rounds epoch state) := by
  induction rounds generalizing epoch state with
  | zero => exact mirrors_pure _
  | succ rounds ih =>
    refine host.mirrors_cancelled.bind fun cancelled => ?_
    cases cancelled with
    | true => exact (host.mirrors_log _).bind fun _ => mirrors_pure _
    | false =>
      refine (mirrors_runEpoch machine host target horizon state).bind fun answer => ?_
      obtain ⟨outcome, next⟩ := answer
      cases outcome with
      | finished sample =>
        exact (host.mirrors_log _).bind fun _ => (host.mirrors_emit _).bind fun _ => ih _ _
      | faulted error => exact mirrors_pure _
      | exhausted => exact mirrors_pure _

/-- Recording the calls of a run changes neither its outcome nor the world. -/
theorem runTraced_run (machine : Machine (StateM ω) σ ε) (host : Host (StateM ω))
    (target horizon : Nat) (build : Cartridge → StateM ω σ) (image : Array UInt8) (world : ω) :
    (runImage machine host target horizon build image).run world =
      ((runTraced machine host target horizon build image world).1,
        (runTraced machine host target horizon build image world).2.world) := by
  have hRun : Mirrors
      (runImage (m := StateM (Traced ω σ ε)) machine.traced host.traced target horizon
        (fun cartridge => record (.build cartridge) (build cartridge)) image)
      (runImage machine host target horizon build image) := by
    unfold runImage
    cases Cartridge.ofImage image with
    | error error => exact mirrors_pure _
    | ok cartridge =>
      refine (host.mirrors_log _).bind fun _ => (host.mirrors_log _).bind fun _ => ?_
      refine (mirrors_record _ _).bind fun built => ?_
      refine (machine.mirrors_reset built).bind fun ready => ?_
      refine (mirrors_paceFrom machine host target horizon horizon 0 ready).bind fun answer => ?_
      obtain ⟨outcome, next⟩ := answer
      cases outcome with
      | finished epochs => exact mirrors_pure _
      | faulted error => exact mirrors_pure _
      | exhausted => exact mirrors_pure _
  obtain ⟨hOutcome, hWorld⟩ := hRun ⟨world, []⟩
  exact Prod.ext hOutcome.symm hWorld.symm

end Famicom.Pacing

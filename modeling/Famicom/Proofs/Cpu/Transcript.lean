import Famicom.Proofs.Cpu.Effects

/-!
# Transcripts

The transcript of a computation is the list of its accesses, in order and with the bytes
transferred.  `BusM.Shows` states a condition on transcript and result whatever the reads are
answered with; it is proved along the structure of a computation and holds of every run.  Flat
memory answers with what it holds, so there the transcript also says what the
bytes are and what memory is afterwards.
-/

namespace Famicom.Cpu

namespace BusM

variable {α β γ : Type}

/-- Whatever the reads are answered with, the accesses and the result meet the condition. -/
def Shows : BusM α → (List Access → α → Prop) → Prop
  | .done value, post => post [] value
  | .read address next, post =>
    ∀ b, Shows (next b) fun log result => post (.read address b :: log) result
  | .write address value next, post =>
    Shows next fun log result => post (.write address value :: log) result

theorem Shows.mono {m : BusM α} {post post' : List Access → α → Prop} (h : m.Shows post)
    (himp : ∀ log result, post log result → post' log result) : m.Shows post' := by
  induction m generalizing post post' with
  | done value => exact himp _ _ h
  | read address next ih => exact fun b => ih b (h b) fun log result => himp _ _
  | write address value next ih =>
    have hNext : next.Shows fun log result => post (.write address value :: log) result := h
    exact ih hNext fun log result => himp _ _

theorem shows_true (m : BusM α) : m.Shows fun _ _ => True := by
  induction m with
  | done value => trivial
  | read address next ih => exact ih
  | write address value next ih => exact ih

theorem Shows.bind {m : BusM α} {f : α → BusM γ} {mid : List Access → α → Prop}
    {post : List Access → γ → Prop} (hm : m.Shows mid)
    (hf : ∀ first a, mid first a →
      (f a).Shows fun second result => post (first ++ second) result) :
    (m >>= f).Shows post := by
  induction m generalizing mid post with
  | done value => exact hf [] value hm
  | read address next ih =>
    exact fun b => ih b (hm b) fun first a h => by simpa only [List.cons_append] using hf _ a h
  | write address value next ih =>
    have hNext : next.Shows fun log a => mid (.write address value :: log) a := hm
    exact ih hNext fun first a h => by simpa only [List.cons_append] using hf _ a h

theorem Shows.bind_pure {m : BusM α} {f : α → γ} {post : List Access → γ → Prop}
    (h : m.Shows fun log a => post log (f a)) : (m >>= fun a => pure (f a)).Shows post := by
  refine h.bind fun log a hPost => ?_
  show post (log ++ []) (f a)
  rwa [List.append_nil]

theorem Shows.run [Bus β] {m : BusM α} {post : List Access → α → Prop} (h : m.Shows post)
    (bus : β) : post (m.accesses bus) (m.run bus).1 := by
  induction m generalizing bus post with
  | done value => exact h
  | read address next ih => exact ih _ (h _) _
  | write address value next ih =>
    have hNext : next.Shows fun log result => post (.write address value :: log) result := h
    exact ih hNext (Bus.write bus address value)

/-! ### Results put into another form -/

theorem accesses_map [Bus β] (f : α → γ) (m : BusM α) (bus : β) :
    (f <$> m).accesses bus = m.accesses bus := by
  induction m generalizing bus with
  | done value => rfl
  | read address next ih =>
    exact congrArg (Access.read address (Bus.read bus address).1 :: ·) (ih _ _)
  | write address value next ih => exact congrArg (Access.write address value :: ·) (ih _)

theorem run_map [Bus β] (f : α → γ) (m : BusM α) (bus : β) :
    (f <$> m).run bus = (f (m.run bus).1, (m.run bus).2) :=
  run_bind m (fun value => .done (f value)) bus

theorem accesses_of_map_eq [Bus β] {f : α → γ} {m other : BusM α} (h : f <$> other = f <$> m)
    (bus : β) : other.accesses bus = m.accesses bus := by
  rw [← accesses_map f other, h, accesses_map]

theorem run_of_map_eq [Bus β] {f : α → γ} {m other : BusM α} (h : f <$> other = f <$> m)
    (bus : β) :
    f (other.run bus).1 = f (m.run bus).1 ∧ (other.run bus).2 = (m.run bus).2 := by
  have hRun := congrArg (fun computation => computation.run bus) h
  simp only [run_map, Prod.mk.injEq] at hRun
  exact hRun

end BusM

/-! ### Answers -/

def Access.answer? : Access → Option UInt8
  | .read _ value => some value
  | .write _ _ => none

def answersOf (log : List Access) : List UInt8 :=
  log.filterMap Access.answer?

@[simp] theorem answersOf_read (address : UInt16) (value : UInt8) (log : List Access) :
    answersOf (.read address value :: log) = value :: answersOf log := rfl

@[simp] theorem answersOf_write (address : UInt16) (value : UInt8) (log : List Access) :
    answersOf (.write address value :: log) = answersOf log := rfl

/-- A computation depends on its bus through the answers alone. -/
theorem BusM.eq_of_answersOf {α β γ : Type} [Bus β] [Bus γ] {m : BusM α} {bus : β} {other : γ}
    (h : answersOf (m.accesses other) = answersOf (m.accesses bus)) :
    m.accesses other = m.accesses bus ∧ (m.run other).1 = (m.run bus).1 := by
  induction m generalizing bus other with
  | done value => exact ⟨rfl, rfl⟩
  | read address next ih =>
    obtain ⟨hByte, hRest⟩ : (Bus.read other address).1 = (Bus.read bus address).1 ∧
        answersOf ((next (Bus.read other address).1).accesses (Bus.read other address).2) =
          answersOf ((next (Bus.read bus address).1).accesses (Bus.read bus address).2) :=
      List.cons.inj h
    simp only [accesses, run]
    rw [hByte] at hRest ⊢
    obtain ⟨hAccesses, hResult⟩ := ih _ hRest
    exact ⟨congrArg _ hAccesses, hResult⟩
  | write address value next ih =>
    obtain ⟨hAccesses, hResult⟩ := ih h
    exact ⟨congrArg (Access.write address value :: ·) hAccesses, hResult⟩

/-! ### Flat memory -/

namespace FlatMemory

def byteAt (memory : FlatMemory) (address : UInt16) : UInt8 :=
  memory.get address.toFin

def filled (value : UInt8) : FlatMemory :=
  Vector.replicate 0x10000 value

def afterAccess (memory : FlatMemory) : Access → FlatMemory
  | .read _ _ => memory
  | .write address value => Bus.write memory address value

/-- Every read of a transcript is answered with the byte that memory holds by then. -/
def Answers : FlatMemory → List Access → Prop
  | _, [] => True
  | memory, .read address value :: rest => value = memory.byteAt address ∧ Answers memory rest
  | memory, .write address value :: rest => Answers (Bus.write memory address value) rest

theorem byteAt_filled (value : UInt8) (address : UInt16) : (filled value).byteAt address = value :=
  Vector.getElem_replicate _

theorem byteAt_write (memory : FlatMemory) (address other : UInt16) (value : UInt8) :
    byteAt (Bus.write memory address value) other =
      if other = address then value else memory.byteAt other := by
  have hOther := other.toNat_lt
  show (memory.set address.toNat value address.toNat_lt)[other.toNat] =
    if other = address then value else memory[other.toNat]
  rw [Vector.getElem_set]
  by_cases h : address = other
  · rw [if_pos (congrArg UInt16.toNat h), if_pos h.symm]
  · rw [if_neg fun hNat => h (UInt16.toNat_inj.1 hNat), if_neg fun hEq => h hEq.symm]

theorem answers_accesses {α : Type} (m : BusM α) (memory : FlatMemory) :
    memory.Answers (m.accesses memory) := by
  induction m generalizing memory with
  | done value => trivial
  | read address next ih => exact ⟨rfl, ih _ _⟩
  | write address value next ih => exact ih _

theorem run_eq_foldl {α : Type} (m : BusM α) (memory : FlatMemory) :
    (m.run memory).2 = (m.accesses memory).foldl afterAccess memory := by
  induction m generalizing memory with
  | done value => rfl
  | read address next ih => exact ih _ _
  | write address value next ih => exact ih _

theorem answers_append (memory : FlatMemory) (first second : List Access) :
    memory.Answers (first ++ second) ↔
      memory.Answers first ∧ Answers (first.foldl afterAccess memory) second := by
  induction first generalizing memory with
  | nil => simp [Answers]
  | cons access rest ih =>
    cases access with
    | read address value =>
      simp only [List.cons_append, Answers, List.foldl_cons, ih, and_assoc]
      rfl
    | write address value =>
      simp only [List.cons_append, Answers, List.foldl_cons, ih]
      rfl

end FlatMemory

end Famicom.Cpu

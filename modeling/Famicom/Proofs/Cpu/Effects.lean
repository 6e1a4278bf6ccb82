import Famicom.Cpu.Bus

/-!
# Effects of bus computations

What a computation does to a concrete bus.  `BusM.accesses` lists the accesses made against a bus
and `BusM.writes` the writes among them, each with the bus as the write found it.
-/

namespace Famicom.Cpu

/-- A write of a computation, with the bus as the write found it. -/
structure Write (β : Type) where
  bus : β
  address : UInt16
  value : UInt8

def Write.target {β : Type} (w : Write β) : UInt16 × UInt8 :=
  (w.address, w.value)

def Access.write? : Access → Option (UInt16 × UInt8)
  | .read _ _ => none
  | .write address value => some (address, value)

namespace BusM

variable {α β : Type}

def accesses [Bus β] : BusM α → β → List Access
  | .done _, _ => []
  | .read address next, bus =>
    match Bus.read bus address with
    | (b, bus) => .read address b :: accesses (next b) bus
  | .write address value next, bus =>
    .write address value :: accesses next (Bus.write bus address value)

/-- The writes of a computation against a bus, in order. -/
def writes [Bus β] : BusM α → β → List (Write β)
  | .done _, _ => []
  | .read address next, bus =>
    match Bus.read bus address with
    | (b, bus) => writes (next b) bus
  | .write address value next, bus =>
    ⟨bus, address, value⟩ :: writes next (Bus.write bus address value)

/-! ### Writes against a bus -/

/-- The accesses listed are those that a recorded run appends to its log. -/
theorem record_accesses [Bus β] (m : BusM α) (bus : β) (log : Array Access) :
    (m.record bus log).2.2.toList = log.toList ++ m.accesses bus := by
  induction m generalizing bus log with
  | done value => simp [record, accesses]
  | read address next ih =>
    simp only [record, accesses]
    rw [ih]
    simp
  | write address value next ih =>
    simp only [record, accesses]
    rw [ih]
    simp

theorem accesses_write? [Bus β] (m : BusM α) (bus : β) :
    (m.accesses bus).filterMap Access.write? = (m.writes bus).map Write.target := by
  induction m generalizing bus with
  | done value => rfl
  | read address next ih => exact ih _ _
  | write address value next ih =>
    simp only [accesses, writes, List.map_cons, List.filterMap_cons, Access.write?, Write.target]
    rw [ih]

/-- A view of the bus that reads leave alone is changed by the writes alone, one after another. -/
theorem run_foldl [Bus β] {δ : Type} (view : β → δ) (change : δ → Write β → δ)
    (hRead : ∀ bus address, view (Bus.read bus address).2 = view bus)
    (hWrite : ∀ w : Write β, view (Bus.write w.bus w.address w.value) = change (view w.bus) w)
    (m : BusM α) (bus : β) :
    view (m.run bus).2 = (m.writes bus).foldl change (view bus) := by
  induction m generalizing bus with
  | done value => rfl
  | read address next ih =>
    simp only [run, writes]
    rw [ih, hRead]
  | write address value next ih =>
    simp only [run, writes, List.foldl_cons]
    rw [ih, hWrite ⟨bus, address, value⟩]

/-- What every access preserves holds after a computation and at each of its writes. -/
theorem run_preserves [Bus β] {P : β → Prop}
    (hRead : ∀ bus address, P bus → P (Bus.read bus address).2)
    (hWrite : ∀ bus address value, P bus → P (Bus.write bus address value))
    (m : BusM α) (bus : β) (h : P bus) :
    P (m.run bus).2 ∧ ∀ w ∈ m.writes bus, P w.bus := by
  induction m generalizing bus with
  | done value => exact ⟨h, by simp [writes]⟩
  | read address next ih => exact ih _ _ (hRead bus address h)
  | write address value next ih =>
    obtain ⟨hEnd, hAll⟩ := ih _ (hWrite bus address value h)
    refine ⟨hEnd, ?_⟩
    intro w hw
    simp only [writes, List.mem_cons] at hw
    rcases hw with rfl | hw
    · exact h
    · exact hAll w hw

theorem run_view [Bus β] {δ : Type} (view : β → δ)
    (hRead : ∀ bus address, view (Bus.read bus address).2 = view bus)
    (hWrite : ∀ bus address value, view (Bus.write bus address value) = view bus)
    (m : BusM α) (bus : β) :
    view (m.run bus).2 = view bus ∧ ∀ w ∈ m.writes bus, view w.bus = view bus :=
  run_preserves (P := fun b => view b = view bus)
    (fun b address h => (hRead b address).trans h)
    (fun b address value h => (hWrite b address value).trans h) m bus rfl

end BusM

end Famicom.Cpu

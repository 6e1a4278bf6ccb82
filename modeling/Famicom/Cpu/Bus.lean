/-!
# Bus accesses

What the processor does to the outside is a finite tree of byte accesses: each read hands the
byte it got to the rest of the computation, each write is followed by the rest.  The tree says
which accesses are made without saying what answers them, so one definition of an instruction
serves every memory, and its footprint is a property of the tree.  `BusM.run` plays a tree
against a concrete bus; `BusM.record` also lists the accesses in order.
-/

namespace Famicom.Cpu

/-- A computation that reads and writes bytes at sixteen bit addresses. -/
inductive BusM (α : Type) where
  | done (value : α)
  | read (address : UInt16) (next : UInt8 → BusM α)
  | write (address : UInt16) (value : UInt8) (next : BusM α)

/-- One completed access, with the byte transferred. -/
inductive Access where
  | read (address : UInt16) (value : UInt8)
  | write (address : UInt16) (value : UInt8)
  deriving DecidableEq

/-- A memory that answers accesses; reading may change it. -/
class Bus (β : Type) where
  read : β → UInt16 → UInt8 × β
  write : β → UInt16 → UInt8 → β

namespace BusM

def bind {α γ : Type} : BusM α → (α → BusM γ) → BusM γ
  | .done value, f => f value
  | .read address next, f => .read address fun b => bind (next b) f
  | .write address value next, f => .write address value (bind next f)

instance : Monad BusM where
  pure := .done
  bind := BusM.bind

def get (address : UInt16) : BusM UInt8 :=
  .read address .done

def put (address : UInt16) (value : UInt8) : BusM Unit :=
  .write address value (.done ())

def run {α β : Type} [Bus β] : BusM α → β → α × β
  | .done value, bus => (value, bus)
  | .read address next, bus =>
    match Bus.read bus address with
    | (b, bus) => run (next b) bus
  | .write address value next, bus => run next (Bus.write bus address value)

/-- Plays a computation against a bus and appends its accesses to a log. -/
def record {α β : Type} [Bus β] : BusM α → β → Array Access → α × β × Array Access
  | .done value, bus, log => (value, bus, log)
  | .read address next, bus, log =>
    match Bus.read bus address with
    | (b, bus) => record (next b) bus (log.push (.read address b))
  | .write address value next, bus, log =>
    record next (Bus.write bus address value) (log.push (.write address value))

/-! ### Laws -/

@[simp] theorem run_done {α β : Type} [Bus β] (value : α) (bus : β) :
    (BusM.done value).run bus = (value, bus) := rfl

theorem bind_done {α : Type} (m : BusM α) : m.bind .done = m := by
  induction m with
  | done value => rfl
  | read address next ih => simp only [BusM.bind, ih]
  | write address value next ih => simp only [BusM.bind, ih]

theorem bind_assoc {α γ δ : Type} (m : BusM α) (f : α → BusM γ) (g : γ → BusM δ) :
    (m.bind f).bind g = m.bind fun a => (f a).bind g := by
  induction m with
  | done value => rfl
  | read address next ih => simp only [BusM.bind, ih]
  | write address value next ih => simp only [BusM.bind, ih]

instance : LawfulMonad BusM :=
  LawfulMonad.mk' BusM bind_done (fun _ _ => rfl) bind_assoc

theorem run_bind {α β γ : Type} [Bus β] (m : BusM α) (f : α → BusM γ) (bus : β) :
    (m.bind f).run bus = (f (m.run bus).1).run (m.run bus).2 := by
  induction m generalizing bus with
  | done value => rfl
  | read address next ih => simp only [BusM.bind, run, ih]
  | write address value next ih => simp only [BusM.bind, run, ih]

/-- Recording the accesses of a computation changes neither its result nor the bus. -/
theorem record_run {α β : Type} [Bus β] (m : BusM α) (bus : β) (log : Array Access) :
    (m.record bus log).1 = (m.run bus).1 ∧ (m.record bus log).2.1 = (m.run bus).2 := by
  induction m generalizing bus log with
  | done value => exact ⟨rfl, rfl⟩
  | read address next ih => simpa only [record, run] using ih _ _ _
  | write address value next ih => simpa only [record, run] using ih _ _

end BusM

/-! ### Flat memory -/

abbrev FlatMemory : Type :=
  Vector UInt8 0x10000

instance : Bus FlatMemory where
  read memory address := (memory.get address.toFin, memory)
  write memory address value := memory.set address.toNat value address.toNat_lt

end Famicom.Cpu

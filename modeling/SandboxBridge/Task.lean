import SandboxBridge.Machine.Lifecycle
import SandboxBridge.Machine.Strings
import SandboxBridge.Store.Facilities
import SandboxBridge.Store.Render

/-!
Work that calls out of the bridge. While the bridge waits for module code or host code, that code
may use the bridge again, so a task stops at each call and says how it goes on with the answer and
with whatever has become of the machine meanwhile. It also shows the machine at each milestone in
the life of a closure.
-/

namespace SandboxBridge

inductive Purpose where
  | asked
  | shim (closure : Nat)
  | destructor (closure : Nat)
  deriving DecidableEq, Repr

inductive Callee where
  /-- A function of the module's table. -/
  | exported (purpose : Purpose) (index : Nat) (args : List Word)
  | start
  /-- Host code of the embedder. -/
  | hosted (key : Nat) (receiver : Value) (args : List Value)
  /-- Code of the embedder behind an import. -/
  | imported (key : Nat) (args : List Word)
  /-- Any host function, as a value. -/
  | function (id : FunctionId) (receiver : Value) (args : List Value)

/-- How a call can end. Only host functions throw. -/
@[reducible] def Callee.Outcome : Callee → Type
  | .exported .. | .start | .imported .. => Except Error (List Word)
  | .hosted .. | .function .. => Except Fault Value

inductive Milestone where
  | made (closure : Nat) (word environment invoke destructor : UInt32)
  /-- A call of it has begun, which was lent the context word or nothing. -/
  | entered (closure : Nat) (lent : Option UInt32)
  | left (closure : Nat) (lent : Option UInt32)
  /-- The host's reference is gone. -/
  | dropped (closure : Nat)
  deriving DecidableEq, Repr

inductive Task (α : Type) : Type where
  | done (value : α) (m : Machine)
  | call (callee : Callee) (m : Machine) (resume : callee.Outcome → Machine → Task α)
  /-- Goes on by itself. -/
  | pass (milestone : Milestone) (m : Machine) (rest : Task α)
  /-- The process ends here: it is out of stack, or asks for more than memory can ever hold. -/
  | abort

namespace Task

variable {α β : Type}

def bind : Task α → (α → Machine → Task β) → Task β
  | .done value m, next => next value m
  | .call callee m resume, next => .call callee m fun outcome m => (resume outcome m).bind next
  | .pass milestone m rest, next => .pass milestone m (rest.bind next)
  | .abort, _ => .abort

theorem bind_done (t : Task α) : t.bind .done = t := by
  induction t with
  | done value m => rfl
  | call callee m resume ih => simp only [bind, ih]
  | pass milestone m rest ih => simp only [bind, ih]
  | abort => rfl

theorem bind_assoc {γ : Type} (t : Task α) (f : α → Machine → Task β) (g : β → Machine → Task γ) :
    (t.bind f).bind g = t.bind fun value m => (f value m).bind g := by
  induction t with
  | done value m => rfl
  | call callee m resume ih => simp only [bind, ih]
  | pass milestone m rest ih => simp only [bind, ih]
  | abort => rfl

end Task

def Run (α : Type) : Type :=
  Machine → Task α

namespace Run

variable {α β : Type}

instance : Monad Run where
  pure value := fun m => .done value m
  bind run next := fun m => (run m).bind next

instance : LawfulMonad Run :=
  .mk' Run (fun run => funext fun m => (run m).bind_done) (fun _ _ => rfl)
    fun run f g => funext fun m => (run m).bind_assoc f g

def ofState (work : StateM Machine α) : Run α := fun m =>
  let (value, m) := work.run m
  .done value m

instance : MonadLift (StateM Machine) Run := ⟨ofState⟩

def call (callee : Callee) : Run callee.Outcome := fun m =>
  .call callee m .done

def pass (milestone : Milestone) : Run Unit := fun m =>
  .pass milestone m (.done () m)

/-- A value that must be there for the process to go on. -/
def ofOption : Option α → Run α
  | some value => pure value
  | none => fun _ => .abort

end Run

/-- Work of the bridge that may end in an error. -/
abbrev Op (α : Type) :=
  ExceptT Error Run α

/-- Work of the host that may end in an exception or an error. -/
abbrev Host (α : Type) :=
  ExceptT Fault Run α

def trapped {α : Type} : Except Error α → Except Fault α
  | .ok value => .ok value
  | .error error => .error (.trap error)

def thrown {α : Type} : Except Value α → Except Fault α
  | .ok value => .ok value
  | .error exception => .error (.thrown exception)

instance : MonadLift (ExceptT Error (StateM Machine)) (ExceptT Error Run) where
  monadLift work := .mk (Run.ofState work.run)

instance : MonadLift (ExceptT Error Run) (ExceptT Fault Run) where
  monadLift work := .mk (trapped <$> work.run)

def attempt {α : Type} (work : Store.Completion α) : Host α :=
  .mk (thrown <$> (Machine.build work.run : Run (Except Value α)))

/-- Gives back how work ended, failures included. -/
def outcome {ε δ α : Type} (work : ExceptT ε Run α) : ExceptT δ Run (Except ε α) :=
  .mk (Except.ok <$> work.run)

end SandboxBridge

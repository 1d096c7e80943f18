import SandboxBridge.Adapter
import SandboxBridge.Proofs.Imports.Registration
import SandboxBridge.Proofs.Machine
import SandboxBridge.Proofs.Memory.Bytes
import SandboxBridge.Proofs.Task

/-!
What each import demands of its arguments. An import whose demands are not met fails at the first of
them that is not, before it has changed anything that a module or a host could see; only `error`
gives the memory of its message back all the same.
-/

namespace SandboxBridge

open Machine

def failure {α : Type} : Except Error α → Option Error
  | .ok _ => none
  | .error e => some e

theorem failure_map {α β : Type} (f : α → β) (result : Except Error α) :
    failure (result.map f) = failure result := by
  cases result <;> rfl

theorem error_of_failure {α : Type} {result : Except Error α} {e : Error}
    (failed : failure result = some e) : result = .error e := by
  cases result with
  | error reason => exact congrArg Except.error (Option.some.inj failed)
  | ok value => cases failed

/-- The text in a memory at a place that must lie inside and hold well-formed UTF-8. -/
def Memory.text (m : Memory) (start length : Nat) : Except Error String := do
  match String.fromUTF8? (← m.read start length) with
  | some s => return s
  | none => throw .malformedUtf8

theorem Transfer.run_decode (start length : Nat) (m : Memory) :
    (decode start length).run m = (m.text start length, (m.view .bytes).2) := by
  unfold decode Memory.readBytes Memory.fetch Memory.text Memory.read
  simp only [Work.run_bind, Work.run_get, Work.run_modifyGet, Work.run_liftExcept, Memory.readAt,
    Memory.view_bufferAt, Memory.view_buffer]
  cases (m.bufferAt m.current).read start length with
  | error e => rfl
  | ok bytes =>
    simp only [bind, Except.bind]
    cases String.fromUTF8? bytes <;> rfl

/-- What an import demands of its arguments, by their positions. -/
inductive Demand
  /-- An integer: a handle, an address, a length or a plain number. -/
  | word (index : Nat)
  | float (index : Nat)
  /-- The handle of a value. -/
  | live (index : Nat)
  /-- The handle of a value, which the import is to consume. -/
  | owned (index : Nat)
  /-- The place of a text, by the address and the length. -/
  | text (start length : Nat)
  | object (index : Nat)
  /-- The handle of an array, or of `undefined`. -/
  | arguments (index : Nat)
  | closure (index : Nat)

namespace Demand

/-- Whether a demand is for a word of the argument list, and not for what the word stands for. -/
def reads : Demand → Bool
  | .word _ | .float _ => true
  | _ => false

def value (m : Machine) (args : List Word) (index : Nat) : Except Error Value := do
  m.table.get (← Adapter.handle args index)

def refusal (m : Machine) (args : List Word) : Demand → Option Error
  | .word index => failure (Word.argUInt32 args index)
  | .float index => failure (Word.argFloat args index)
  | .live index => failure (value m args index)
  | .owned index => failure (do m.table.claim (← Adapter.handle args index))
  | .text start length => failure (do
      m.memory.text (← Adapter.number args start) (← Adapter.number args length))
  | .object index => failure (do
      match ← value m args index with
      | .object _ => return ()
      | _ => throw Error.arraySetTarget)
  | .arguments index => failure (do
      match ← value m args index with
      | .undefined => return ()
      | .object id => if (m.store.object id).isArray then return () else throw .argumentsNotArray
      | _ => throw Error.argumentsNotArray)
  | .closure index => failure (do
      match ← value m args index with
      | .function (.closure _) => return ()
      | _ => throw Error.notAClosure)

end Demand

namespace Import

open Demand

/-- What an import demands, in the order in which it looks: first the words of its arguments. -/
def demands : Import → List Demand
  | .numberNew => [.float 0]
  | .exnTake | .global | .objectNew => []
  | .arrayNew => [.word 0]
  | .numberGet | .boolGet | .objectCloneRef | .isUndefined | .isNull | .isObject | .isFunction =>
    [.word 0, .live 0]
  | .objectDropRef => [.word 0, .owned 0]
  | .cbDrop => [.word 0, .closure 0]
  | .stringGet | .debugString => [.word 0, .word 1, .live 1]
  | .stringNew | .throw | .log | .error => [.word 0, .word 1, .text 0 1]
  | .call | .dispatchEvent => [.word 0, .word 1, .live 0, .live 1]
  | .arraySet => [.word 0, .word 1, .word 2, .object 0, .owned 2]
  | .getProperty | .instanceOf => [.word 0, .word 1, .word 2, .live 0, .text 1 2]
  | .reflectSet => [.word 0, .word 1, .word 2, .live 0, .live 1, .live 2]
  | .customEventNew => [.word 0, .word 1, .word 2, .text 0 1, .live 2]
  | .closureWrapper => [.word 0, .word 1, .word 2, .word 3]
  | .setProperty | .addEventListener =>
    [.word 0, .word 1, .word 2, .word 3, .live 0, .text 1 2, .live 3]
  | .callMethod => [.word 0, .word 1, .word 2, .word 3, .live 0, .text 1 2, .arguments 3]
  | .storageGetItem => [.word 0, .word 1, .word 2, .word 3, .live 1, .text 2 3]
  | .storageSetItem =>
    [.word 0, .word 1, .word 2, .word 3, .word 4, .live 0, .text 1 2, .text 3 4]

def arity (i : Import) : Nat :=
  i.demands.countP reads

def refusal (m : Machine) (args : List Word) (i : Import) : Option Error :=
  i.demands.findSome? (·.refusal m args)

/-- The handle that an import consumes, if its arguments are not refused. -/
def consumed (args : List Word) : Import → Option Handle
  | .objectDropRef | .cbDrop => (Adapter.handle args 0).toOption
  | .arraySet => (Adapter.handle args 2).toOption
  | _ => none

end Import

/-- Nothing has changed but the log and the view that the bridge keeps of the memory. -/
structure Machine.Untouched (m m' : Machine) : Prop where
  table : m'.table = m.table
  pending : m'.pending = m.pending
  lastThrow : m'.lastThrow = m.lastThrow
  store : m'.store = m.store
  guest : m'.guest = m.guest
  buffers : m'.memory.buffers = m.memory.buffers
  current : m'.memory.current = m.memory.current
  pages : m'.memory.pages = m.memory.pages

namespace Machine.Untouched

variable {m m₁ m₂ : Machine}

theorem refl (m : Machine) : m.Untouched m :=
  ⟨rfl, rfl, rfl, rfl, rfl, rfl, rfl, rfl⟩

theorem symm (untouched : m.Untouched m₁) : m₁.Untouched m where
  table := untouched.table.symm
  pending := untouched.pending.symm
  lastThrow := untouched.lastThrow.symm
  store := untouched.store.symm
  guest := untouched.guest.symm
  buffers := untouched.buffers.symm
  current := untouched.current.symm
  pages := untouched.pages.symm

theorem trans (first : m.Untouched m₁) (second : m₁.Untouched m₂) : m.Untouched m₂ where
  table := second.table.trans first.table
  pending := second.pending.trans first.pending
  lastThrow := second.lastThrow.trans first.lastThrow
  store := second.store.trans first.store
  guest := second.guest.trans first.guest
  buffers := second.buffers.trans first.buffers
  current := second.current.trans first.current
  pages := second.pages.trans first.pages

theorem text_eq (untouched : m.Untouched m₁) (start length : Nat) :
    m₁.memory.text start length = m.memory.text start length := by
  simp only [Memory.text, Memory.read, Memory.readAt, Memory.bufferAt, untouched.buffers,
    untouched.current]

theorem refusal_eq (untouched : m.Untouched m₁) (args : List Word) (d : Demand) :
    d.refusal m₁ args = d.refusal m args := by
  cases d <;> simp only [Demand.refusal, Demand.value, untouched.table, untouched.store,
    untouched.text_eq]

end Machine.Untouched

theorem Import.refusal_eq {m m₁ : Machine} (untouched : m.Untouched m₁) (args : List Word)
    (i : Import) : i.refusal m₁ args = i.refusal m args := by
  unfold refusal
  simp only [untouched.refusal_eq]

variable {α β : Type} {args : List Word} {d : Demand} {ds : List Demand}

/-- Work that checks one demand: it fails for the reason why the demand is not met, if it is not,
and leaves everything untouched either way. -/
def Machine.Checks (args : List Word) (d : Demand) (work : Local α) : Prop :=
  ∀ m, m.Untouched (work.run m).2 ∧ failure (work.run m).1 = d.refusal m args

namespace Machine

theorem checks_object {index : Nat} {handle : Handle} (read : Adapter.handle args index = .ok handle) :
    Checks args (.live index) (object handle) := fun m => by
  simp only [Demand.refusal, Demand.value, read]
  exact ⟨.refl m, rfl⟩

theorem run_decode (start length : Nat) (m : Machine) :
    m.Untouched ((decode start length).run m).2 ∧
      ((decode start length).run m).1 = m.memory.text start length := by
  obtain ⟨journal, ran⟩ := run_onMemory (Transfer.decode start length) m
  rw [decode, ran, Transfer.run_decode]
  obtain ⟨buffers, current⟩ := Memory.view_buffers m.memory .bytes
  exact ⟨⟨rfl, rfl, rfl, rfl, rfl, buffers, current, Memory.view_pages m.memory .bytes⟩, rfl⟩

theorem checks_decode {start length first count : Nat}
    (readStart : Adapter.number args first = .ok start)
    (readLength : Adapter.number args count = .ok length) :
    Checks args (.text first count) (decode start length) := fun m => by
  obtain ⟨untouched, text⟩ := run_decode start length m
  simp only [Demand.refusal, readStart, readLength, text]
  exact ⟨untouched, rfl⟩

theorem checks_methodArguments {index : Nat} {handle : Handle}
    (read : Adapter.handle args index = .ok handle) :
    Checks args (.arguments index) (Adapter.methodArguments handle) := fun m => by
  unfold Adapter.methodArguments
  simp only [Demand.refusal, Demand.value, read, Work.run_bind, object, Work.run_get,
    Work.run_liftExcept]
  cases found : m.table.get handle with
  | error e => exact ⟨.refl m, by simp [found, bind, Except.bind, failure]⟩
  | ok value =>
    cases value with
    | object id =>
      by_cases array : (m.store.object id).isArray
      · simp only [Work.run_bind, Work.run_get, array]
        exact ⟨.refl m, by simp [found, bind, Except.bind, failure, array]; rfl⟩
      · simp only [Work.run_bind, Work.run_get, array]
        exact ⟨.refl m, by simp [found, bind, Except.bind, failure, array]; rfl⟩
    | _ => exact ⟨.refl m, by simp [found, bind, Except.bind, failure]; rfl⟩

end Machine

end SandboxBridge

import SandboxBridge.Dict
import SandboxBridge.Error
import SandboxBridge.Log
import SandboxBridge.Text.Quoted

/-!
The registry of import functions, by module and function name, with one slot for a logging callback,
and the builder that refuses to register a function twice.
-/

namespace SandboxBridge

/-- What the logging slot may hold. Only a handler takes log operations. -/
inductive LoggingCallback where
  | number (value : UInt32)
  | text (value : String)
  /-- A handler, known to the embedder by a key. -/
  | handler (key : Nat)
  deriving DecidableEq, Repr

structure Registry (α : Type) where
  logging : Option LoggingCallback
  modules : Dict (Dict α)

namespace Registry

variable {α : Type}

def empty : Registry α :=
  ⟨none, ∅⟩

def find? (r : Registry α) (module function : String) : Option α :=
  (r.modules.get? module).bind (·.get? function)

def contains (r : Registry α) (module function : String) : Bool :=
  (r.find? module function).isSome

def register (r : Registry α) (module function : String) (entry : α) : Registry α :=
  let functions := (r.modules.get? module).getD ∅
  { r with modules := r.modules.insert module (functions.insert function entry) }

def functions (r : Registry α) (module : String) : List String :=
  ((r.modules.get? module).getD ∅).keys

def registerEach (r : Registry α) (additions : List (String × String × α)) : Registry α :=
  additions.foldl (fun r (module, function, entry) => r.register module function entry) r

def entries (r : Registry α) : List (String × String × α) :=
  r.modules.entries.flatMap fun (module, functions) =>
    functions.entries.map fun (function, entry) => (module, function, entry)

/-- The same functions, registered anew, with nothing in the logging slot. -/
def clone (r : Registry α) : Registry α :=
  empty.registerEach r.entries

def key (module function : String) : String :=
  s!"{module}::{function}"

def call {m : Type → Type} [Monad m] {β : Type} (r : Registry α) (note : Level → String → m Unit)
    (run : α → ExceptT Error m β) (module function : String) : ExceptT Error m β := do
  match r.find? module function with
  | some entry =>
    note .trace s!"import {key module function}"
    run entry
  | none =>
    note .debug s!"import {key module function} is not registered"
    throw .unknownImport

/-- Hands an operation to the handler, if one is installed, and to the log otherwise. -/
def log (r : Registry α) (journal : Journal) (op : LogOperation) (target : String) : Journal :=
  match r.logging with
  | some (.handler key) => journal.handle key op
  | _ => journal.forward op target

def describe (r : Registry α) : String :=
  let callbacks := if r.logging.isSome then "Logging" else ""
  let modules := ", ".intercalate (r.modules.keys.map Text.quoted)
  "CallbackRegistry \x7b registered_callbacks: [" ++ callbacks ++ "], registered_modules: [" ++
    modules ++ "] \x7d"

end Registry

/-- Functions to build a registry from, in the order in which they were added. -/
structure RegistryBuilder (α : Type) where
  functions : List (String × String × α) := []
  /-- Name of the hosted module, for information only. -/
  moduleName : Option String := none

namespace RegistryBuilder

variable {α : Type}

def add (b : RegistryBuilder α) (module function : String) (entry : α) : RegistryBuilder α :=
  { b with functions := b.functions ++ [(module, function, entry)] }

def named (b : RegistryBuilder α) (name : String) : RegistryBuilder α :=
  { b with moduleName := some name }

def registerAll (r : Registry α) : List (String × String × α) → Except Error (Registry α)
  | [] => .ok r
  | (module, function, entry) :: rest =>
    if r.contains module function then .error .importedTwice
    else registerAll (r.register module function entry) rest

def build (b : RegistryBuilder α) : Except Error (Registry α) :=
  registerAll .empty b.functions

def report (b : RegistryBuilder α) : String :=
  s!"built import registry for module {Text.quotedOption b.moduleName}"

end RegistryBuilder

end SandboxBridge

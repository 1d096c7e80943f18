import SandboxBridge.Registry
import SandboxBridge.Word

/-!
The import functions that a bridge offers to module code, and the handlers that registries hold.
-/

namespace SandboxBridge

inductive Import where
  | stringNew
  | numberNew
  | numberGet
  | boolGet
  | stringGet
  | objectCloneRef
  | objectDropRef
  | isUndefined
  | isNull
  | isObject
  | isFunction
  | debugString
  | throw
  | log
  | error
  | closureWrapper
  | cbDrop
  | exnTake
  | global
  | objectNew
  | arrayNew
  | arraySet
  | getProperty
  | setProperty
  | reflectSet
  | instanceOf
  | call
  | callMethod
  | customEventNew
  | addEventListener
  | dispatchEvent
  | storageGetItem
  | storageSetItem
  deriving DecidableEq, Repr

namespace Import

def all : List Import :=
  [.stringNew, .numberNew, .numberGet, .boolGet, .stringGet, .objectCloneRef, .objectDropRef,
    .isUndefined, .isNull, .isObject, .isFunction, .debugString, .throw, .log, .error,
    .closureWrapper, .cbDrop, .exnTake, .global, .objectNew, .arrayNew, .arraySet, .getProperty,
    .setProperty, .reflectSet, .instanceOf, .call, .callMethod, .customEventNew, .addEventListener,
    .dispatchEvent, .storageGetItem, .storageSetItem]

def name : Import → String
  | .stringNew => "string_new"
  | .numberNew => "number_new"
  | .numberGet => "number_get"
  | .boolGet => "bool_get"
  | .stringGet => "string_get"
  | .objectCloneRef => "object_clone_ref"
  | .objectDropRef => "object_drop_ref"
  | .isUndefined => "is_undefined"
  | .isNull => "is_null"
  | .isObject => "is_object"
  | .isFunction => "is_function"
  | .debugString => "debug_string"
  | .throw => "throw"
  | .log => "log"
  | .error => "error"
  | .closureWrapper => "closure_wrapper"
  | .cbDrop => "cb_drop"
  | .exnTake => "exn_take"
  | .global => "global"
  | .objectNew => "object_new"
  | .arrayNew => "array_new"
  | .arraySet => "array_set"
  | .getProperty => "get_property"
  | .setProperty => "set_property"
  | .reflectSet => "reflect_set"
  | .instanceOf => "instance_of"
  | .call => "call"
  | .callMethod => "call_method"
  | .customEventNew => "custom_event_new"
  | .addEventListener => "add_event_listener"
  | .dispatchEvent => "dispatch_event"
  | .storageGetItem => "storage_get_item"
  | .storageSetItem => "storage_set_item"

theorem mem_all (i : Import) : i ∈ all := by
  cases i <;> decide

def names : List String :=
  all.map name

end Import

/-- A registered import function: one of the bridge's own, or code of the embedder, known to it by a
key. -/
inductive Handler where
  | adapter (i : Import)
  | hosted (key : Nat)
  deriving DecidableEq, Repr

def Registry.registerImports (r : Registry Handler) (module : String) : Registry Handler :=
  Import.all.foldl (fun r i => r.register module i.name (.adapter i)) r

def RegistryBuilder.install (b : RegistryBuilder Handler) (module : String) :
    RegistryBuilder Handler :=
  Import.all.foldl (fun b i => b.add module i.name (.adapter i)) b

/-- What a handler does on a target that is no bridge, where the embedder's code is `code`. -/
def Handler.runElsewhere {m : Type → Type} [Monad m]
    (code : Nat → List Word → ExceptT Error m (List Word)) (args : List Word) :
    Handler → ExceptT Error m (List Word)
  | .adapter _ => throw .noBridge
  | .hosted key => code key args

end SandboxBridge

import SandboxBridge.Proofs.Closure.Life
import SandboxBridge.Proofs.Discipline

/-!
What is asked of a bridge obeys a discipline, if calls out and the handling of closures do, and the
work with handles.
-/

namespace SandboxBridge

open Machine Work Run.Obeys Discipline

/-- A discipline that calls obey, of closures and of whoever is around the bridge. -/
class Discipline.AllowsCalls (d : Discipline) : Prop extends AllowsPlain d.rule where
  call : ∀ callee : Callee, callee.closure? = none → d.Allows (Run.call callee)
  invoke : ∀ index args, d.Allows (invokeClosure index args).run

class Discipline.AllowsHosts (d : Discipline) : Prop extends AllowsCalls d, AllowsAside d.rule

/-- A discipline that everything obeys that calls no function by its own account, leaves the slot for
exceptions alone and takes no handles from whoever owned them. -/
class Discipline.AllowsWork (d : Discipline) : Prop
    extends AllowsCalls d, AllowsHandles d.rule, AllowsGuest d.rule where
  wrap : ∀ word environment invoke destructor,
    d.Allows (wrapClosure word environment invoke destructor)
  drop : ∀ index, d.Allows (dropClosure index).run

/-- A discipline that everything obeys that takes no handles from whoever owned them. -/
class Discipline.AllowsService (d : Discipline) : Prop
    extends AllowsWork d, AllowsHosts d, AllowsSlot d.rule

/-- Whether a function changes what listens or is stored. -/
def Behaviour.edits : Behaviour → Bool
  | .addListener _ | .removeListener _ | .setItem _ | .removeItem _ | .clear _ => true
  | _ => false

/-- Whether an import calls a function of the host. -/
def Import.invokes : Import → Bool
  | .call | .callMethod | .addEventListener | .dispatchEvent | .storageGetItem
  | .storageSetItem => true
  | _ => false

def Request.invokes : Request → Bool
  | .callImport .. | .callFunction .. | .invokeMethod .. => true
  | _ => false

/-- Whether an import may park or take an exception. -/
def Import.excepts : Import → Bool
  | .exnTake | .getProperty | .setProperty | .reflectSet | .call | .callMethod | .customEventNew
  | .addEventListener | .dispatchEvent | .storageGetItem | .storageSetItem => true
  | _ => false

def Request.excepts : Request → Bool
  | .callImport .. | .park _ | .takePending | .reset | .guarded .. => true
  | _ => false

/-- Whether an import takes a handle from whoever owned it. -/
def Import.takes : Import → Bool
  | .objectDropRef | .arraySet | .cbDrop => true
  | _ => false

def Request.takes : Request → Bool
  | .callImport .. | .take _ | .release _ => true
  | _ => false

variable {d : Discipline}

instance (value : Value) : Run.Obeys d (displayed value) := by
  unfold displayed
  infer_instance

instance (value : Value) : Run.Obeys d (rendered value) := by
  unfold rendered
  infer_instance

instance (args : List Value) (index : Nat) : Run.Obeys d (argumentText args index) := by
  unfold argumentText
  infer_instance

section Calls

variable [AllowsCalls d]

theorem Run.Obeys.call {callee : Callee} (other : callee.closure? = none) :
    Obeys d (Run.call callee) :=
  ⟨AllowsCalls.call callee other⟩

instance (index : Nat) (args : List Value) : Run.Obeys d (invokeClosure index args).run :=
  ⟨AllowsCalls.invoke index args⟩

instance (target : Nat) (args : List Word) : Run.Obeys d (callExport target args).run := by
  unfold callExport callTable
  have : Run.Obeys d (Run.call (.exported .asked target args)) := .call rfl
  infer_instance

theorem setUp_eq : setUp.run = (do
    let m ← get
    if m.initialized then throw .alreadyInitialized
    (modify ({ · with initialized := true }) : StateM Machine Unit)
    if m.guest.hasStart then
      let _ ← ExceptT.mk (Run.call .start)
    note .info LogTarget.bridge "module initialized" : Op Unit).run := by
  funext m
  unfold setUp
  rw [Op.run_get_bind, Op.run_get_bind]
  dsimp only
  cases m.initialized <;> rfl

instance : Run.Obeys d setUp.run := by
  rw [setUp_eq]
  have : Run.Obeys d (Run.call .start) := .call rfl
  have : Follows plain (modify ({ · with initialized := true })) :=
    plain_modify (fun _ => rfl) fun _ => rfl
  apply Run.Obeys.bind inferInstance
  intro m
  dsimp only
  split <;> infer_instance

instance (id : ObjectId) (key : String) (value : Value) : Run.Obeys d (write id key value) := by
  have (o : Object) : Follows plain (modifyStore (·.modifyObject id fun _ => o)) :=
    plain_modifyStore (fun _ => rfl) fun _ => rfl
  unfold write
  infer_instance

instance (target : Value) (key : String) (value : Value) :
    Run.Obeys d (setProperty target key value).run := by
  unfold setProperty
  split <;> infer_instance

instance (id : FunctionId) (receiver : Value) (args : List Value) :
    Run.Obeys d (callListener id receiver args).run := by
  unfold callListener
  have : Run.Obeys d (Run.call (.function id receiver args)) := .call rfl
  infer_instance

instance (type : String) (receiver event : Value) (listeners : List FunctionId) :
    Run.Obeys d (deliver type receiver event listeners).run := by
  induction listeners with
  | nil =>
    unfold deliver
    infer_instance
  | cons listener rest ih =>
    unfold deliver
    apply Run.Obeys.bind inferInstance
    intro result
    split <;> infer_instance

instance (table : Nat) (receiver : Value) (args : List Value) :
    Run.Obeys d (dispatch table receiver args).run := by
  unfold dispatch
  have (event : ObjectId) :
      Follows plain (modifyStore (·.put event "target" receiver)) :=
    plain_modifyStore (fun _ => rfl) fun _ => rfl
  apply Run.Obeys.bind inferInstance
  intro event
  apply Run.Obeys.bind inferInstance
  intro m
  apply Run.Obeys.bind inferInstance
  intro type
  infer_instance

theorem obeys_runBehaviour (receiver : Value) (args : List Value) (behaviour : Behaviour)
    (keeps : behaviour.edits = false) :
    Run.Obeys d (runBehaviour receiver args behaviour).run := by
  cases behaviour with
  | addListener | removeListener | setItem | removeItem | clear => cases keeps
  | preventDefault =>
    have : Follows plain (modifyStore (·.preventDefault receiver)) :=
      plain_modifyStore (fun s => s.closures_preventDefault receiver) fun s =>
        s.registry_preventDefault receiver
    unfold runBehaviour
    infer_instance
  | hosted key =>
    have : Run.Obeys d (Run.call (.hosted key receiver args)) := .call rfl
    unfold runBehaviour
    infer_instance
  | _ =>
    unfold runBehaviour
    infer_instance

end Calls

section Hosts

variable [AllowsHosts d]

instance (receiver : Value) (args : List Value) (behaviour : Behaviour) :
    Run.Obeys d (runBehaviour receiver args behaviour).run := by
  cases keeps : behaviour.edits with
  | false => exact obeys_runBehaviour receiver args behaviour keeps
  | true =>
    cases behaviour <;> unfold runBehaviour
    case addListener table =>
      have (type : String) : Keeps frame (modifyStore (·.addListener table type args[1]?)) :=
        keeps_modifyStore fun s => s.closures_addListener table type args[1]?
      infer_instance
    case removeListener table =>
      have (type : String) : Keeps frame (modifyStore (·.removeListener table type args[1]?)) :=
        keeps_modifyStore fun s => s.closures_removeListener table type args[1]?
      infer_instance
    case setItem items => infer_instance
    case removeItem items =>
      have (key : String) : Keeps frame (modifyStore (·.modifyItems items (·.erase key))) :=
        keeps_modifyStore fun _ => rfl
      infer_instance
    case clear items =>
      have : Keeps frame (modifyStore (·.modifyItems items fun _ => ∅)) :=
        keeps_modifyStore fun _ => rfl
      infer_instance
    all_goals cases keeps

instance (id : FunctionId) (receiver : Value) (args : List Value) :
    Run.Obeys d (callFunction id receiver args).run := by
  unfold callFunction
  cases id <;> infer_instance

instance (target : Value) (name : String) (args : List Value) :
    Run.Obeys d (invokeMethod target name args).run := by
  unfold invokeMethod
  apply Run.Obeys.bind inferInstance
  intro found
  split <;> infer_instance

end Hosts

section Work

variable [AllowsWork d]

instance (word environment invoke destructor : UInt32) :
    Run.Obeys d (wrapClosure word environment invoke destructor) :=
  ⟨AllowsWork.wrap word environment invoke destructor⟩

instance (index : Nat) : Run.Obeys d (dropClosure index).run :=
  ⟨AllowsWork.drop index⟩

/-! Imports. -/

namespace Adapter

instance (word environment invoke destructor : UInt32) :
    Run.Obeys d (closureWrapper word environment invoke destructor).run := by
  unfold closureWrapper
  infer_instance

instance (slot : Nat) (handle : Handle) : Run.Obeys d (debugString slot handle).run := by
  unfold debugString
  infer_instance

theorem obeys_run_plain (args : List Word) (i : Import) (keeps : i.takes = false)
    (plain : i.excepts = false) : Run.Obeys d (run args i).run := by
  cases i with
  | objectDropRef | arraySet | cbDrop => cases keeps
  | exnTake | getProperty | setProperty | reflectSet | call | callMethod | customEventNew
  | addEventListener | dispatchEvent | storageGetItem | storageSetItem => cases plain
  | _ => unfold run; infer_instance

end Adapter

instance {α : Type} {work : Local α} [Follows d.rule work.run] :
    Run.Obeys d (Request.quietly work) :=
  inferInstanceAs (Run.Obeys d (Run.ofState work.run))

theorem Request.obeys_perform_plain (request : Request) (keeps : request.takes = false)
    (apart : request.invokes = false) (plain : request.excepts = false)
    (allows : ∀ access, request = .memory access → d.rule.Allows (onMemory access.perform).run) :
    Run.Obeys d request.perform := by
  cases request with
  | callImport | take | release => cases keeps
  | callFunction | invokeMethod => cases apart
  | park | takePending | reset | guarded => cases plain
  | memory access =>
    have : Follows d.rule (onMemory access.perform).run := ⟨allows access rfl⟩
    unfold Request.perform
    infer_instance
  | _ => unfold Request.perform; infer_instance

section Slot

variable [AllowsSlot d.rule]

instance {α : Type} (operation : String) (neutral : α) {work : Host α}
    [Run.Obeys d work.run] :
    Run.Obeys d (guarded operation neutral work).run := by
  unfold guarded
  apply Run.Obeys.bind inferInstance
  intro result
  split <;> infer_instance

namespace Adapter

instance (target : Handle) (start length : Nat) :
    Run.Obeys d (getProperty target start length).run := by
  unfold getProperty
  infer_instance

instance (target : Handle) (start length : Nat) (value : Handle) :
    Run.Obeys d (setProperty target start length value).run := by
  unfold setProperty
  infer_instance

instance (target key value : Handle) : Run.Obeys d (reflectSet target key value).run := by
  unfold reflectSet
  apply Run.Obeys.bind inferInstance
  intro target
  apply Run.Obeys.bind inferInstance
  intro key
  apply Run.Obeys.bind inferInstance
  intro name
  apply Run.Obeys.bind inferInstance
  intro value
  cases target <;> infer_instance

instance (start length : Nat) (init : Handle) :
    Run.Obeys d (customEventNew start length init).run := by
  unfold customEventNew
  infer_instance

theorem obeys_run_apart (args : List Word) (i : Import) (keeps : i.takes = false)
    (apart : i.invokes = false) : Run.Obeys d (run args i).run := by
  cases plain : i.excepts with
  | false => exact obeys_run_plain args i keeps plain
  | true =>
    cases i with
    | exnTake | getProperty | setProperty | reflectSet | customEventNew =>
      unfold run
      infer_instance
    | call | callMethod | addEventListener | dispatchEvent | storageGetItem | storageSetItem =>
      cases apart
    | _ => cases plain

end Adapter

theorem Request.obeys_perform_apart (request : Request) (keeps : request.takes = false)
    (apart : request.invokes = false)
    (allows : ∀ access, request = .memory access → d.rule.Allows (onMemory access.perform).run) :
    Run.Obeys d request.perform := by
  cases plain : request.excepts with
  | false => exact request.obeys_perform_plain keeps apart plain allows
  | true =>
    cases request with
    | park | takePending | reset | guarded => unfold Request.perform; infer_instance
    | callImport => cases keeps
    | _ => cases plain

end Slot

end Work

section Service

variable [AllowsService d]

namespace Adapter

instance (function receiver : Handle) : Run.Obeys d (call function receiver).run := by
  unfold call
  apply Run.Obeys.bind inferInstance
  intro function
  apply Run.Obeys.bind inferInstance
  intro receiver
  cases function <;> infer_instance

instance (target : Handle) (start length : Nat) (args : Handle) :
    Run.Obeys d (callMethod target start length args).run := by
  unfold callMethod
  infer_instance

instance (target : Handle) (start length : Nat) (listener : Handle) :
    Run.Obeys d (addEventListener target start length listener).run := by
  unfold addEventListener
  infer_instance

instance (target event : Handle) : Run.Obeys d (dispatchEvent target event).run := by
  unfold dispatchEvent
  infer_instance

instance (slot : Nat) (storage : Handle) (start length : Nat) :
    Run.Obeys d (storageGetItem slot storage start length).run := by
  unfold storageGetItem
  infer_instance

instance (storage : Handle) (keyStart keyLength valueStart valueLength : Nat) :
    Run.Obeys d (storageSetItem storage keyStart keyLength valueStart valueLength).run := by
  unfold storageSetItem
  infer_instance

theorem obeys_run (args : List Word) (i : Import) (keeps : i.takes = false) :
    Run.Obeys d (run args i).run := by
  cases apart : i.invokes with
  | false => exact obeys_run_apart args i keeps apart
  | true =>
    cases i with
    | call | callMethod | addEventListener | dispatchEvent | storageGetItem | storageSetItem =>
      unfold run
      infer_instance
    | _ => cases apart

end Adapter

theorem Request.obeys_perform (request : Request) (keeps : request.takes = false)
    (allows : ∀ access, request = .memory access → d.rule.Allows (onMemory access.perform).run) :
    Run.Obeys d request.perform := by
  cases apart : request.invokes with
  | false => exact request.obeys_perform_apart keeps apart allows
  | true =>
    cases request with
    | callFunction | invokeMethod => unfold Request.perform; infer_instance
    | callImport => cases keeps
    | _ => cases apart

end Service

/-! The same when handles may be taken. -/

section Taking

variable [AllowsTaking d.rule]

instance (results : List Word) : Run.Obeys d (takeResult results).run := by
  unfold takeResult
  split <;> infer_instance

section Work

variable [AllowsWork d]

namespace Adapter

instance (handle : Handle) : Run.Obeys d (cbDrop handle).run := by
  unfold cbDrop
  apply Run.Obeys.bind inferInstance
  intro found
  split <;> infer_instance

theorem obeys_run_taking (args : List Word) (i : Import) (takes : i.takes = true) :
    Run.Obeys d (run args i).run := by
  cases i with
  | objectDropRef | arraySet | cbDrop => unfold run; infer_instance
  | _ => cases takes

end Adapter

end Work

variable [AllowsService d]

instance (args : List Word) (i : Import) : Run.Obeys d (Adapter.run args i).run := by
  cases takes : i.takes with
  | false => exact Adapter.obeys_run args i takes
  | true => exact Adapter.obeys_run_taking args i takes

instance (args : List Word) (handler : Handler) : Run.Obeys d (handler.run args).run := by
  cases handler with
  | adapter i => exact inferInstanceAs (Run.Obeys d (Adapter.run args i).run)
  | hosted key => exact .call rfl

instance (name : String) (args : List Word) : Run.Obeys d (callImport name args).run := by
  unfold callImport
  apply Run.Obeys.bind inferInstance
  intro m
  unfold Registry.callOn Registry.call
  split <;> infer_instance

theorem Request.obeys_perform_taking (request : Request)
    (allows : ∀ access, request = .memory access → d.rule.Allows (onMemory access.perform).run) :
    Run.Obeys d request.perform := by
  cases keeps : request.takes with
  | false => exact request.obeys_perform keeps allows
  | true =>
    cases request with
    | callImport | take | release => unfold Request.perform; infer_instance
    | _ => cases keeps

instance [MindsCore d.rule] (request : Request) : Run.Obeys d request.perform :=
  request.obeys_perform_taking fun _ _ => MindsCore.aside inferInstance

end Taking

end SandboxBridge

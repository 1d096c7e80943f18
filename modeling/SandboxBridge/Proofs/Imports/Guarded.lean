import SandboxBridge.Proofs.Discipline.Requests
import SandboxBridge.Proofs.Imports.Refusal

/-!
Guarded calls: the imports that work under the guard. Each resolves its arguments to an errand, has
the host do it under the guard, and delivers what comes of it. An errand calls host code or module
code, and what is before it and after it calls nobody.
-/

namespace SandboxBridge

open Machine Work

/-- The work leaves everything untouched, and its result does not hang on what it could touch. -/
def Local.Looks {α : Type} (work : Local α) : Prop :=
  ∀ m, m.Untouched (work.run m).2 ∧
    ∀ m', m.Untouched m' → (work.run m').1 = (work.run m).1

namespace Local.Looks

variable {α β : Type}

theorem pure (value : α) : Looks (pure value : Local α) :=
  fun m => ⟨.refl m, fun _ _ => rfl⟩

theorem bind {work : Local α} {next : α → Local β} (first : work.Looks)
    (rest : ∀ value, (next value).Looks) : (work >>= next).Looks := by
  intro m
  obtain ⟨untouched, same⟩ := first m
  simp only [run_bind]
  cases ran : work.run m with
  | mk result m₁ =>
    rw [ran] at untouched same
    have again (m' : Machine) (beside : m.Untouched m') : ∃ m₂, work.run m' = (result, m₂) ∧
        m₁.Untouched m₂ :=
      ⟨(work.run m').2, Prod.ext (same m' beside) rfl,
        untouched.symm.trans (beside.trans (first m').1)⟩
    cases result with
    | error e =>
      refine ⟨untouched, fun m' beside => ?_⟩
      obtain ⟨m₂, ran, -⟩ := again m' beside
      rw [ran]
    | ok value =>
      obtain ⟨onward, equal⟩ := rest value m₁
      refine ⟨untouched.trans onward, fun m' beside => ?_⟩
      obtain ⟨m₂, ran, beside⟩ := again m' beside
      rw [ran]
      exact equal m₂ beside

theorem look {next : Machine → Local α} (rest : ∀ m, (next m).Looks)
    (same : ∀ m m', m.Untouched m' → next m' = next m) : Looks (get >>= next) := by
  intro m
  obtain ⟨untouched, equal⟩ := rest m m
  refine ⟨untouched, fun m' beside => ?_⟩
  change ((next m').run m').1 = _
  rw [same m m' beside]
  exact equal m' beside

theorem object (handle : Handle) : (object handle).Looks := fun m =>
  ⟨.refl m, fun _ beside => congrArg (HandleTable.get · handle) beside.table⟩

theorem decode (start length : Nat) : (decode start length).Looks := fun m => by
  obtain ⟨untouched, text⟩ := run_decode start length m
  refine ⟨untouched, fun m' beside => ?_⟩
  rw [text, (run_decode start length m').2, beside.text_eq]

theorem showing (value : Value) {next : String → Local (Option α)} (rest : ∀ text, (next text).Looks) :
    (showing value next).Looks := by
  unfold SandboxBridge.showing
  refine .look (fun m => ?_) fun m m' beside => by rw [beside.store]
  split
  · exact rest _
  · exact .pure none

theorem methodArguments (handle : Handle) : (Adapter.methodArguments handle).Looks := by
  unfold Adapter.methodArguments
  refine (object handle).bind fun found => ?_
  split
  next => exact .pure _
  next id =>
    refine .look (fun m => ?_) fun m m' beside => by rw [beside.store]
    dsimp only
    split
    · exact .pure _
    · exact fun m => ⟨.refl m, fun _ _ => rfl⟩
  next => exact fun m => ⟨.refl m, fun _ _ => rfl⟩

end Local.Looks

inductive Errand where
  | get (target : Value) (name : String)
  | set (target : Value) (name : String) (value : Value)
  | reflect (target : Value) (name : String) (value : Value)
  | call (function receiver : Value)
  | method (target : Value) (name : String) (args : List Value)
  | event (type : String) (init : Value)

namespace Errand

def perform : Errand → Host Value
  | .get target name => attempt (Store.getProperty target name)
  | .set target name value => do
    setProperty target name value
    return .undefined
  | .reflect (.object id) name value => do
    setProperty (.object id) name value
    return .undefined
  | .reflect _ _ _ => attempt (Store.throwTypeError "Reflect.set called on non-object")
  | .call (.function id) receiver => callFunction id receiver []
  | .call function _ =>
    attempt (Store.throwTypeError s!"{function.typeName} is not a function")
  | .method target name args => invokeMethod target name args
  | .event type init => do return .object (← attempt (Store.newCustomEvent type init))

instance {d : Discipline} [d.AllowsHosts] (errand : Errand) : Run.Obeys d errand.perform.run := by
  cases errand with
  | reflect target => cases target <;> unfold perform <;> infer_instance
  | call function => cases function <;> unfold perform <;> infer_instance
  | _ => unfold perform; infer_instance

end Errand

/-- An import that works under the guard, with its arguments. -/
inductive GuardedCall where
  | getProperty (target : Handle) (start length : Nat)
  | setProperty (target : Handle) (start length : Nat) (value : Handle)
  | reflectSet (target key value : Handle)
  | call (function receiver : Handle)
  | callMethod (target : Handle) (start length : Nat) (args : Handle)
  | customEventNew (start length : Nat) (init : Handle)
  | addEventListener (target : Handle) (start length : Nat) (listener : Handle)
  | dispatchEvent (target event : Handle)
  | storageGetItem (slot : Nat) (storage : Handle) (start length : Nat)
  | storageSetItem (storage : Handle) (keyStart keyLength valueStart valueLength : Nat)

namespace GuardedCall

@[reducible] def Answer : GuardedCall → Type
  | .getProperty .. | .call .. | .callMethod .. | .customEventNew .. => Handle
  | .reflectSet .. | .dispatchEvent .. => Bool
  | .setProperty .. | .addEventListener .. | .storageGetItem .. | .storageSetItem .. => Unit

def perform : (g : GuardedCall) → Op g.Answer
  | .getProperty target start length => Adapter.getProperty target start length
  | .setProperty target start length value => Adapter.setProperty target start length value
  | .reflectSet target key value => Adapter.reflectSet target key value
  | .call function receiver => Adapter.call function receiver
  | .callMethod target start length args => Adapter.callMethod target start length args
  | .customEventNew start length init => Adapter.customEventNew start length init
  | .addEventListener target start length listener =>
    Adapter.addEventListener target start length listener
  | .dispatchEvent target event => Adapter.dispatchEvent target event
  | .storageGetItem slot storage start length => Adapter.storageGetItem slot storage start length
  | .storageSetItem storage keyStart keyLength valueStart valueLength =>
    Adapter.storageSetItem storage keyStart keyLength valueStart valueLength

def operation : GuardedCall → String
  | .getProperty .. => "get_property"
  | .setProperty .. => "set_property"
  | .reflectSet .. => "reflect_set"
  | .call .. => "call"
  | .callMethod .. => "call_method"
  | .customEventNew .. => "custom_event_new"
  | .addEventListener .. => "add_event_listener"
  | .dispatchEvent .. => "dispatch_event"
  | .storageGetItem .. => "storage_get_item"
  | .storageSetItem .. => "storage_set_item"

/-- What stands in for the answer when the host throws: 0, `false` or nothing. -/
def neutral : (g : GuardedCall) → g.Answer
  | .getProperty .. | .call .. | .callMethod .. | .customEventNew .. => Handle.undefined
  | .reflectSet .. | .dispatchEvent .. => false
  | .setProperty .. | .addEventListener .. | .storageGetItem .. | .storageSetItem .. => ()

/-- The errand that the arguments stand for. There is none if a property is to be set whose key has
no text. -/
def resolve : GuardedCall → Local (Option Errand)
  | .getProperty target start length => do
    return some (.get (← object target) (← decode start length))
  | .setProperty target start length value => do
    return some (.set (← object target) (← decode start length) (← object value))
  | .reflectSet target key value => do
    let target ← object target
    let key ← object key
    showing key fun name => do return some (.reflect target name (← object value))
  | .call function receiver => do
    return some (.call (← object function) (← object receiver))
  | .callMethod target start length args => do
    return some
      (.method (← object target) (← decode start length) (← Adapter.methodArguments args))
  | .customEventNew start length init => do
    return some (.event (← decode start length) (← object init))
  | .addEventListener target start length listener => do
    return some (.method (← object target) "addEventListener"
      [.string (← decode start length), ← object listener])
  | .dispatchEvent target event => do
    return some (.method (← object target) "dispatchEvent" [← object event])
  | .storageGetItem _ storage start length => do
    return some (.method (← object storage) "getItem" [.string (← decode start length)])
  | .storageSetItem storage keyStart keyLength valueStart valueLength => do
    return some (.method (← object storage) "setItem"
      [.string (← decode keyStart keyLength), .string (← decode valueStart valueLength)])

/-- Makes an answer of what has come of the errand. There is none for an item without a text. -/
def deliver : (g : GuardedCall) → Value → Local (Option g.Answer)
  | .getProperty .., value | .callMethod .., value => some <$> allocateOptional value
  | .call .., value | .customEventNew .., value => some <$> allocate value
  | .reflectSet .., _ => return some true
  | .dispatchEvent .., value => return some (value.asBool?.getD false)
  | .storageGetItem slot .., item =>
    if item.isNullish then some <$> writeResult slot none
    else showing item fun text => some <$> writeResult slot (some text)
  | .setProperty .., _ | .addEventListener .., _ | .storageSetItem .., _ => return some ()

/-- Only the errand runs host code, and only it can throw. -/
theorem perform_eq (g : GuardedCall) : g.perform = (do
    let errand ← liftM g.resolve >>= present
    guarded g.operation g.neutral
      (errand.perform >>= fun value => liftM (g.deliver value) >>= present) : Op g.Answer) := by
  cases g <;> simp only [perform, resolve, operation, neutral, deliver, Op.lift_bind, Op.lift_pure,
    Op.present_showing, bind_assoc, pure_bind, present_some, Host.lift_some, Host.lift_pure]
  case reflectSet target key value =>
    unfold Adapter.reflectSet
    refine bind_congr fun target => bind_congr fun key => bind_congr fun name => ?_
    refine bind_congr fun value => ?_
    cases target <;>
      simp only [Errand.perform, bind_assoc, pure_bind, Host.throwTypeError_bind]
  case call function receiver =>
    unfold Adapter.call
    refine bind_congr fun function => bind_congr fun receiver => ?_
    cases function <;> rfl
  case setProperty target start length value =>
    simp only [Adapter.setProperty, Errand.perform, bind_assoc, pure_bind, bind_pure_unit]
  case customEventNew start length init =>
    simp only [Adapter.customEventNew, Errand.perform, bind_assoc, pure_bind]
  case storageGetItem slot storage start length =>
    unfold Adapter.storageGetItem
    refine bind_congr fun storage => bind_congr fun key => congrArg _ (bind_congr fun item => ?_)
    cases item.isNullish with
    | true => exact (Host.lift_some (writeResult slot none)).symm
    | false =>
      rw [if_neg Bool.false_ne_true, if_neg Bool.false_ne_true, Host.present_showing,
        map_eq_pure_bind, bind_assoc]
      simp only [pure_bind, Host.lift_some]
  all_goals rfl

theorem looks_resolve (g : GuardedCall) : g.resolve.Looks := by
  cases g <;> unfold resolve
  case reflectSet target key value =>
    exact .bind (.object target) fun _ => .bind (.object key) fun _ =>
      .showing _ fun _ => .bind (.object value) fun _ => .pure _
  case callMethod target start length args =>
    exact .bind (.object target) fun _ => .bind (.decode start length) fun _ =>
      .bind (.methodArguments args) fun _ => .pure _
  case setProperty target start length last | addEventListener target start length last =>
    exact .bind (.object target) fun _ => .bind (.decode start length) fun _ =>
      .bind (.object last) fun _ => .pure _
  case getProperty target start length | storageGetItem _ target start length =>
    exact .bind (.object target) fun _ => .bind (.decode start length) fun _ => .pure _
  case call target other | dispatchEvent target other =>
    exact .bind (.object target) fun _ => .bind (.object other) fun _ => .pure _
  case customEventNew start length init =>
    exact .bind (.decode start length) fun _ => .bind (.object init) fun _ => .pure _
  case storageSetItem storage keyStart keyLength valueStart valueLength =>
    exact .bind (.object storage) fun _ => .bind (.decode keyStart keyLength) fun _ =>
      .bind (.decode valueStart valueLength) fun _ => .pure _

instance {rule : Rule Machine} {α : Type} (value : Value) {next : String → Local (Option α)}
    [∀ text, Follows rule (next text).run] : Follows rule (showing value next).run := by
  unfold showing
  apply Follows.bind inferInstance
  intro m
  split <;> infer_instance

instance {rule : Rule Machine} [AllowsPlain rule] [AllowsGuest rule] (g : GuardedCall) :
    Follows rule g.resolve.run := by
  cases g <;> unfold resolve <;> infer_instance

instance {rule : Rule Machine} [AllowsHandles rule] [AllowsGuest rule] (g : GuardedCall)
    (value : Value) : Follows rule (g.deliver value).run := by
  cases g <;> dsimp only [deliver] <;> infer_instance

theorem run_perform (g : GuardedCall) (m : Machine) :
    g.perform.run m = match g.resolve.run m with
      | (.ok (some errand), m) => (guarded g.operation g.neutral
          (errand.perform >>= fun value => liftM (g.deliver value) >>= present)).run m
      | (.ok none, _) => .abort
      | (.error e, m) => .done (.error e) m := by
  rw [perform_eq, bind_assoc, Op.run_local_bind]
  rcases g.resolve.run m with ⟨e | _ | errand, m⟩ <;> rfl

/-! What the guard makes of how the host's work has ended. -/

def catchFault {α : Type} (operation : String) (neutral : α) : Fault → Local (Option α)
  | .trap error => throw error
  | .thrown exception => showing exception fun text => do
    note .debug LogTarget.bridge s!"{operation}: host threw {text}"
    park exception
    return some neutral

def notingThrow (operation text : String) (m : Machine) : Machine :=
  { m with
    journal := m.journal.note .debug LogTarget.bridge s!"{operation}: host threw {text}" }

theorem run_catchFault_thrown {α : Type} (operation : String) (neutral : α) (exception : Value)
    (m : Machine) :
    (catchFault operation neutral (.thrown exception)).run m =
      match m.store.display? exception with
      | some text =>
        let parked := (park exception).run (notingThrow operation text m)
        (parked.1.map fun _ => some neutral, parked.2)
      | none => (.ok none, m) := by
  unfold catchFault
  rw [run_showing]
  cases m.store.display? exception with
  | none => rfl
  | some text =>
    exact run_bind_pure (park exception) (fun _ => some neutral) (notingThrow operation text m)

theorem run_guarded {α : Type} (operation : String) (neutral : α) (work : Host α) (m : Machine) :
    (guarded operation neutral work).run m = (work.run m).bind fun result =>
      match result with
      | .ok value => .done (.ok value)
      | .error fault => (liftM (catchFault operation neutral fault) >>= present : Op α).run := by
  unfold guarded
  rw [Op.run_outcome_bind]
  refine congrArg (Task.bind _) (funext fun result => ?_)
  match result with
  | .ok value => rfl
  | .error (.trap e) => rfl
  | .error (.thrown exception) =>
    simp only [catchFault, Op.present_showing, Op.lift_bind, Op.lift_pure, bind_assoc, pure_bind,
      present_some]
    rfl

/-- Makes an answer of what the errand has ended with. -/
def settle (g : GuardedCall) : Except Fault Value → Local (Option g.Answer)
  | .ok value => g.deliver value
  | .error fault => catchFault g.operation g.neutral fault

def conclude (g : GuardedCall) (result : Except Fault Value) : Op g.Answer :=
  liftM (g.settle result) >>= present

theorem run_conclude_thrown {g : GuardedCall} {m m' : Machine} {exception : Value} {text : String}
    (shown : m.store.display? exception = some text)
    (parked : (park exception).run (notingThrow g.operation text m) = (.ok (), m')) :
    (g.conclude (.error (.thrown exception))).run m = .done (.ok g.neutral) m' := by
  have settled : (g.settle (.error (.thrown exception))).run m = (.ok (some g.neutral), m') := by
    change (catchFault g.operation g.neutral (.thrown exception)).run m = _
    rw [run_catchFault_thrown, shown]
    dsimp only
    rw [parked]
    rfl
  unfold conclude
  rw [Op.run_present, settled]

theorem run_guarded_errand (g : GuardedCall) (errand : Errand) (m : Machine) :
    (guarded g.operation g.neutral
      (errand.perform >>= fun value => liftM (g.deliver value) >>= present)).run m =
      (errand.perform.run m).bind fun result => (g.conclude result).run := by
  rw [run_guarded]
  refine (Task.bind_assoc (errand.perform.run m) _ _).trans ?_
  refine congrArg (Task.bind _) (funext fun result => funext fun m => ?_)
  cases result with
  | error fault => rfl
  | ok value =>
    change Task.bind ((liftM (g.deliver value) >>= present : Host g.Answer).run m) _ =
      (liftM (g.deliver value) >>= present : Op g.Answer).run m
    rw [Host.run_local_bind, Op.run_local_bind]
    rcases (g.deliver value).run m with ⟨e | _ | answer, m'⟩ <;> rfl

open Adapter (handle number) in
/-- The guarded call that an import stands for with its words, if it is one that works under the
guard. -/
def read (args : List Word) : Import → Option (Except Error GuardedCall)
  | .getProperty => some do
    return .getProperty (← handle args 0) (← number args 1) (← number args 2)
  | .setProperty => some do
    return .setProperty (← handle args 0) (← number args 1) (← number args 2) (← handle args 3)
  | .reflectSet => some do
    return .reflectSet (← handle args 0) (← handle args 1) (← handle args 2)
  | .call => some do return .call (← handle args 0) (← handle args 1)
  | .callMethod => some do
    return .callMethod (← handle args 0) (← number args 1) (← number args 2) (← handle args 3)
  | .customEventNew => some do
    return .customEventNew (← number args 0) (← number args 1) (← handle args 2)
  | .addEventListener => some do
    return .addEventListener (← handle args 0) (← number args 1) (← number args 2)
      (← handle args 3)
  | .dispatchEvent => some do return .dispatchEvent (← handle args 0) (← handle args 1)
  | .storageGetItem => some do
    return .storageGetItem (← number args 0) (← handle args 1) (← number args 2)
      (← number args 3)
  | .storageSetItem => some do
    return .storageSetItem (← handle args 0) (← number args 1) (← number args 2)
      (← number args 3) (← number args 4)
  | _ => none

def words : (g : GuardedCall) → g.Answer → List Word
  | .getProperty .., handle | .call .., handle | .callMethod .., handle
  | .customEventNew .., handle => Adapter.handleResult handle
  | .reflectSet .., flag | .dispatchEvent .., flag => Adapter.flagResult flag
  | .setProperty .., _ | .addEventListener .., _ | .storageGetItem .., _
  | .storageSetItem .., _ => []

theorem run_of_read {args : List Word} {i : Import} {read : Except Error GuardedCall}
    (reads : GuardedCall.read args i = some read) : Adapter.run args i = (do
      let g ← read
      return g.words (← g.perform) : Op (List Word)) := by
  cases i <;> cases reads <;>
    simp only [Op.liftExcept_bind, Op.liftExcept_pure, bind_assoc, pure_bind] <;> rfl

end GuardedCall

end SandboxBridge

import SandboxBridge.Proofs.Exceptions.Guard
import SandboxBridge.Proofs.Storage

/-!
Calls of functions by requests. A request of the bridge, an import among them, comes down to at most
one call of a host function or of a closure: before it nothing is touched, and what the call results
in becomes the answer without any further call.
-/

namespace SandboxBridge

open Machine Work

structure HostCall where
  function : FunctionId
  receiver : Value
  args : List Value

def HostCall.run (call : HostCall) : Run (Except Fault Value) :=
  (callFunction call.function call.receiver call.args).run

namespace Store

variable {s s' : Store} {target value : Value} {name : String}

theorem getProperty_eq_ok (got : (getProperty target name).run s = (.ok value, s')) : s' = s := by
  unfold getProperty at got
  rw [run_bind, run_get] at got
  dsimp only at got
  cases target with
  | undefined | null => cases got
  | object id =>
    dsimp only at got
    split at got
    · split at got
      · cases got
        rfl
      · split at got <;> cases got <;> rfl
    · cases got
      rfl
  | _ =>
    cases got
    rfl

def method? (s : Store) (target : Value) (name : String) : Option FunctionId :=
  match (getProperty target name).run s with
  | (.ok (.function id), _) => some id
  | _ => none

theorem method?_eq_some {id : FunctionId} (found : s.method? target name = some id) :
    (getProperty target name).run s = (.ok (.function id), s) := by
  unfold method? at found
  split at found
  next got =>
    cases found
    rw [got, getProperty_eq_ok got]
  next => cases found

def behaviour? (s : Store) : FunctionId → Option Behaviour
  | .native index => some (s.native index).behaviour
  | .closure _ => none

theorem Offers.method? {id : ObjectId} {behaviour : Behaviour}
    (offers : s.Offers id name behaviour) (unindexed : arrayIndex? name = none)
    (other : name ≠ "length") :
    ∃ function, s.method? (.object id) name = some function ∧
      s.behaviour? function = some behaviour := by
  obtain ⟨index, -, found, rfl⟩ := offers
  refine ⟨.native index, ?_, rfl⟩
  have named : ((s.object id).get? name).getD .undefined = .function (.native index) := by
    rw [found, Option.getD_some]
  unfold Store.method? getProperty
  rw [run_bind, run_get]
  dsimp only
  rw [if_neg other, unindexed, named]
  cases (s.object id).isArray <;> rfl

end Store

instance : IgnoresGuest Machine.store where
  ignores _ _ _ _ := rfl
  guest _ _ := rfl

instance : IgnoresHandles Machine.store :=
  ⟨fun _ _ _ _ => rfl⟩

def Errand.call? (s : Store) : Errand → Option HostCall
  | .call (.function id) receiver => some ⟨id, receiver, []⟩
  | .method target name args => (s.method? target name).map (⟨·, target, args⟩)
  | _ => none

def GuardedCall.call? (m : Machine) (g : GuardedCall) : Option HostCall :=
  match (g.resolve.run m).1 with
  | .ok (some errand) => errand.call? m.store
  | _ => none

def Import.call? (m : Machine) (args : List Word) (i : Import) : Option HostCall :=
  match GuardedCall.read args i with
  | some (.ok g) => g.call? m
  | _ => none

/-- The call that a request comes down to, if it comes to one. -/
def Request.call? (m : Machine) : Request → Option HostCall
  | .callFunction id receiver args => some ⟨id, receiver, args⟩
  | .invokeMethod target name args => (m.store.method? target name).map (⟨·, target, args⟩)
  | .callImport name args =>
    match m.imports.find? m.settings.importModule name with
    | some (.adapter i) => i.call? m args
    | _ => none
  | _ => none

/-- The request invokes a method, itself or by an import under the guard. -/
inductive Request.Invokes (m : Machine) (target : Value) (name : String) (args : List Value) :
    Request → Prop
  | method : Invokes m target name args (.invokeMethod target name args)
  | guarded {registered : String} {words : List Word} {i : Import} {g : GuardedCall}
    (found : m.imports.find? m.settings.importModule registered = some (.adapter i))
    (reads : GuardedCall.read words i = some (.ok g))
    (resolved : (g.resolve.run m).1 = .ok (some (.method target name args))) :
    Invokes m target name args (.callImport registered words)

/-- How a request goes on when the call that it comes down to has a result. -/
inductive Request.Relays (m : Machine) :
    (request : Request) → (Except Fault Value → Run request.Answer) → Prop
  | function {id : FunctionId} {receiver : Value} {args : List Value} :
    Relays m (.callFunction id receiver args) Task.done
  | method {target : Value} {name : String} {args : List Value} :
    Relays m (.invokeMethod target name args) Task.done
  | guarded {name : String} {args : List Word} {i : Import} {g : GuardedCall}
    (registered : m.imports.find? m.settings.importModule name = some (.adapter i))
    (reads : GuardedCall.read args i = some (.ok g)) :
    Relays m (.callImport name args) fun result reached =>
      ((g.conclude result).run reached).bind fun answer last => .done (answer.map g.words) last

def Request.Yields (request : Request) (m : Machine) (result : Except Fault Value)
    (reached : Machine) (answer : request.Answer) (last : Machine) : Prop :=
  ∃ next, request.Relays m next ∧ next result reached = .done answer last

variable {m m₁ : Machine} {call : HostCall}

theorem HostCall.run_of_behaviour? {behaviour : Behaviour}
    (behaves : m.store.behaviour? call.function = some behaviour) :
    call.run m = (runBehaviour call.receiver call.args behaviour).run m := by
  obtain ⟨function, receiver, args⟩ := call
  cases function with
  | native index =>
    change (runBehaviour receiver args (m.store.native index).behaviour).run m = _
    rw [Option.some.inj behaves]
  | closure => cases behaves

theorem run_invokeMethod {target : Value} {name : String} {id : FunctionId}
    (found : m.store.method? target name = some id) (args : List Value) :
    ∃ m₁, m.Untouched m₁ ∧
      (invokeMethod target name args).run m = (callFunction id target args).run m₁ := by
  unfold invokeMethod
  rw [Host.run_attempt_bind, Store.method?_eq_some found]
  exact ⟨{ m with
    journal := m.journal.note .trace LogTarget.objects
      ("" ++ "invoking " ++ name ++ " on " ++ target.typeName) },
    ⟨rfl, rfl, rfl, rfl, rfl, rfl, rfl, rfl⟩, rfl⟩

theorem Errand.run_of_call? {errand : Errand} (called : errand.call? m.store = some call) :
    ∃ m₁, m.Untouched m₁ ∧ errand.perform.run m = call.run m₁ := by
  cases errand with
  | call function receiver =>
    cases function with
    | function id =>
      cases called
      exact ⟨m, .refl m, rfl⟩
    | _ => cases called
  | method target name args =>
    obtain ⟨id, found, rfl⟩ := Option.map_eq_some_iff.mp called
    exact run_invokeMethod found args
  | _ => cases called

namespace GuardedCall

theorem call?_eq (untouched : m.Untouched m₁) (g : GuardedCall) : g.call? m₁ = g.call? m := by
  rw [call?, (g.looks_resolve m).2 m₁ untouched, untouched.store, call?]

theorem run_of_call? {g : GuardedCall} (called : g.call? m = some call) :
    ∃ m₁, m.Untouched m₁ ∧ g.perform.run m =
      (call.run m₁).bind fun result => (g.conclude result).run := by
  have untouched := (g.looks_resolve m).1
  rw [run_perform]
  unfold call? at called
  cases resolved : g.resolve.run m with
  | mk result m₁ =>
    rw [resolved] at untouched called
    match result with
    | .error e => cases called
    | .ok none => cases called
    | .ok (some errand) =>
      dsimp only at called ⊢
      rw [← untouched.store] at called
      obtain ⟨m₂, onward, ran⟩ := Errand.run_of_call? called
      refine ⟨m₂, untouched.trans onward, ?_⟩
      rw [run_guarded_errand, ran]

theorem keeps_settle {τ : Type} {part : Machine → τ} [IgnoresGuest part] [IgnoresHandles part]
    (g : GuardedCall) (result : Except Fault Value) : Keeps part (g.settle result).run := by
  have allocates (value : Value) : Keeps part (allocate value).run := keeps_allocate value
  have parks (exception : Value) : Keeps part (park exception).run := keeps_park exception
  match result with
  | .ok value =>
    cases g <;> dsimp only [settle, deliver, allocateOptional] <;> infer_instance
  | .error (.trap e) =>
    dsimp only [settle, catchFault]
    infer_instance
  | .error (.thrown exception) =>
    dsimp only [settle, catchFault]
    infer_instance

theorem run_conclude_texted {g : GuardedCall} {result : Except Fault Value}
    (texted : ∀ value, result = .ok value ∨ result = .error (.thrown value) →
      m.store.display? value ≠ none) :
    ∃ answer last, (g.conclude result).run m = .done answer last := by
  have settled : ∃ answer last, (g.settle result).run m = (Except.map some answer, last) := by
    match result with
    | .ok value =>
      obtain ⟨text, shown⟩ := Option.ne_none_iff_exists'.mp (texted value (.inl rfl))
      cases g
      case setProperty | reflectSet | addEventListener | dispatchEvent | storageSetItem =>
        exact ⟨.ok _, m, rfl⟩
      case storageGetItem slot storage start length =>
        dsimp only [settle, deliver]
        cases value.isNullish with
        | true => exact ⟨_, _, run_bind_pure (writeResult slot none) some m⟩
        | false =>
          rw [if_neg Bool.false_ne_true, run_showing, shown]
          exact ⟨_, _, run_bind_pure (writeResult slot (some text)) some m⟩
      case getProperty | callMethod =>
        exact ⟨_, _, run_bind_pure (allocateOptional value) some m⟩
      case call | customEventNew => exact ⟨_, _, run_bind_pure (allocate value) some m⟩
    | .error (.trap e) => exact ⟨.error e, m, rfl⟩
    | .error (.thrown exception) =>
      obtain ⟨text, shown⟩ := Option.ne_none_iff_exists'.mp (texted exception (.inr rfl))
      dsimp only [settle]
      rw [run_catchFault_thrown, shown]
      let parked := (park exception).run (notingThrow g.operation text m)
      refine ⟨parked.1.map fun _ => g.neutral, parked.2, Prod.ext ?_ rfl⟩
      change parked.1.map (fun _ => some g.neutral) = _
      cases parked.1 <;> rfl
  obtain ⟨answer, last, settled⟩ := settled
  rw [conclude, Op.run_present, settled]
  cases answer <;> exact ⟨_, _, rfl⟩

theorem keeps_conclude {τ : Type} {part : Machine → τ} [IgnoresGuest part] [IgnoresHandles part]
    {g : GuardedCall} {result : Except Fault Value} {answer : Except Error g.Answer}
    {last : Machine} (done : (g.conclude result).run m = .done answer last) : part last = part m := by
  have kept := (g.keeps_settle result : Keeps part (g.settle result).run).same m
  change part ((g.settle result).run m).2 = _ at kept
  rw [conclude, Op.run_present] at done
  revert done kept
  rcases (g.settle result).run m with ⟨e | _ | answer, m'⟩ <;> rintro ⟨⟩ kept
  · exact kept
  · exact kept

theorem run_import {args : List Word} {i : Import} {g : GuardedCall}
    (reads : read args i = some (.ok g)) (m : Machine) : (Adapter.run args i).run m =
      (g.perform.run m).bind fun answer last => .done (answer.map g.words) last := by
  rw [run_of_read reads]
  exact congrArg (Task.bind (g.perform.run m)) (funext fun answer => by cases answer <;> rfl)

end GuardedCall

theorem Import.call?_eq (untouched : m.Untouched m₁) (args : List Word) (i : Import) :
    i.call? m₁ args = i.call? m args := by
  unfold call?
  split
  · exact GuardedCall.call?_eq untouched _
  · rfl

namespace Request

variable {request : Request}

theorem Invokes.call? {id : ObjectId} {name : String} {args : List Value} {behaviour : Behaviour}
    (invokes : Invokes m (.object id) name args request)
    (offers : m.store.Offers id name behaviour) (unindexed : Store.arrayIndex? name = none)
    (other : name ≠ "length") :
    ∃ function, request.call? m = some ⟨function, .object id, args⟩ ∧
      m.store.behaviour? function = some behaviour := by
  obtain ⟨function, found, behaves⟩ := offers.method? unindexed other
  refine ⟨function, ?_, behaves⟩
  cases invokes with
  | method => rw [Request.call?, found, Option.map_some]
  | guarded registered reads resolved =>
    simp only [Request.call?, registered, Import.call?, reads, GuardedCall.call?, resolved,
      Errand.call?, found, Option.map_some]

/-- Before the call nothing is touched, and after it the answer is made. -/
theorem perform_of_call? (called : request.call? m = some call) : ∃ next m₁,
    request.Relays m next ∧ m.Untouched m₁ ∧ request.perform m = (call.run m₁).bind next := by
  cases request with
  | callFunction id receiver args =>
    cases called
    exact ⟨_, m, .function, .refl m, (Task.bind_done _).symm⟩
  | invokeMethod target name args =>
    obtain ⟨id, found, rfl⟩ := Option.map_eq_some_iff.mp called
    obtain ⟨m₁, untouched, ran⟩ := run_invokeMethod found args
    exact ⟨_, m₁, .method, untouched, ran.trans (Task.bind_done _).symm⟩
  | callImport name args =>
    simp only [call?] at called
    split at called
    next i registered =>
      unfold Import.call? at called
      split at called
      next g reads =>
        have beside := m.untouched_noting name
        rw [← GuardedCall.call?_eq beside] at called
        obtain ⟨m₁, untouched, ran⟩ := GuardedCall.run_of_call? called
        refine ⟨_, m₁, .guarded registered reads, beside.trans untouched, ?_⟩
        refine (run_callImport_noting registered args).trans ?_
        refine (GuardedCall.run_import reads (m.noting name)).trans ?_
        rw [ran]
        exact Task.bind_assoc ..
      next => cases called
    next => cases called
  | _ => cases called

theorem Relays.quiet {next : Except Fault Value → Run request.Answer}
    (relays : request.Relays m next) {result : Except Fault Value} {reached last : Machine}
    {may : Exchange → Prop} {exchanges : List Exchange} {answer : request.Answer}
    (ends : (next result reached).Ends may exchanges answer last) :
    exchanges = [] ∧ next result reached = .done answer last := by
  have quiet : next result reached = .abort ∨
      ∃ answer last, next result reached = .done answer last := by
    cases relays with
    | function | method => exact .inr ⟨_, _, rfl⟩
    | @guarded _ _ _ g =>
      dsimp only [GuardedCall.conclude]
      rw [Op.run_present]
      rcases (g.settle result).run reached with ⟨e | _ | answer, m'⟩
      · exact .inr ⟨_, _, rfl⟩
      · exact .inl rfl
      · exact .inr ⟨_, _, rfl⟩
  obtain aborts | ⟨answer', last', done⟩ := quiet
  · rw [aborts] at ends
    cases ends
  · rw [done] at ends ⊢
    obtain ⟨rfl, rfl, rfl⟩ := Task.ends_done.mp ends
    exact ⟨rfl, rfl⟩

theorem Relays.done_of_texted {next : Except Fault Value → Run request.Answer}
    (relays : request.Relays m next) {result : Except Fault Value} {reached : Machine}
    (texted : ∀ value, result = .ok value ∨ result = .error (.thrown value) →
      reached.store.display? value ≠ none) :
    ∃ answer last, next result reached = .done answer last ∧ last.store = reached.store := by
  cases relays with
  | function | method => exact ⟨_, _, rfl, rfl⟩
  | @guarded _ _ _ g =>
    obtain ⟨answer, last, done⟩ := GuardedCall.run_conclude_texted (g := g) texted
    have kept : last.store = reached.store := GuardedCall.keeps_conclude done
    refine ⟨answer.map g.words, last, ?_, kept⟩
    dsimp only
    rw [done]
    rfl

end Request

end SandboxBridge

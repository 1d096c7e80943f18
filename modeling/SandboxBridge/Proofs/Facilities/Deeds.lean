import SandboxBridge.Proofs.Facilities.Calls

/-!
Deeds: what calls ask of listener tables and storages. A request comes down to at most one deed, which
is done before any code around the bridge runs, and nothing else that the bridge does changes what
listens and what is stored. So every execution has a chronicle of its deeds, and listeners and items
are at any time what the deeds have made of them.
-/

namespace SandboxBridge

open Machine Work Contract

/-- A change of a listener table or of a storage, as a call asks for it. -/
inductive Deed where
  | listen (table : Nat) (type : String) (listener : FunctionId)
  | unlisten (table : Nat) (type : String) (listener : FunctionId)
  | store (items : Nat) (key value : String)
  | remove (items : Nat) (key : String)
  | clear (items : Nat)

namespace Deed

def reaches (s : Store) : Deed → Bool
  | .listen table .. | .unlisten table .. => table < s.listeners.size
  | .store items .. | .remove items _ | .clear items => items < s.storages.size

/-- Listeners for a type of event in a table, after a deed. -/
def listeners (table : Nat) (type : String) (before : List FunctionId) : Deed → List FunctionId
  | .listen other name listener =>
    if other = table ∧ name = type ∧ listener ∉ before then before ++ [listener] else before
  | .unlisten other name listener =>
    if other = table ∧ name = type then before.filter (· ≠ listener) else before
  | _ => before

def Fits (before : Storage) (key value : String) : Prop :=
  Store.entryBytes (before.items.erase key).entries + key.utf8ByteSize + value.utf8ByteSize ≤
    before.quota

instance (before : Storage) (key value : String) : Decidable (Fits before key value) := by
  unfold Fits
  infer_instance

/-- Items of a storage, after a deed. -/
def items (index : Nat) (before : Storage) : Deed → Dict String
  | .store other key value =>
    if other = index ∧ Fits before key value then before.items.insert key value else before.items
  | .remove other key => if other = index then before.items.erase key else before.items
  | .clear other => if other = index then ∅ else before.items
  | _ => before.items

end Deed

def Store.argument? (s : Store) (args : List Value) (index : Nat) : Option String :=
  s.display? (args[index]?.getD .undefined)

/-- What a function of the given behaviour is asked for by the arguments of a call. -/
def Behaviour.deed? (s : Store) (args : List Value) : Behaviour → Option Deed
  | .addListener table => do
    return .listen table (← s.argument? args 0) (← args[1]?.bind Value.asFunction?)
  | .removeListener table => do
    return .unlisten table (← s.argument? args 0) (← args[1]?.bind Value.asFunction?)
  | .setItem items => do return .store items (← s.argument? args 0) (← s.argument? args 1)
  | .removeItem items => do return .remove items (← s.argument? args 0)
  | .clear items => some (.clear items)
  | _ => none

namespace Store

variable {s s₁ s₂ : Store} {deed : Option Deed}

/-- A deed on what the store has, and no deed otherwise. -/
def feasible (s : Store) (asked : Option Deed) : Option Deed :=
  asked.filter (·.reaches s)

theorem feasible_of_reaches {d : Deed} (reaches : d.reaches s) : s.feasible (some d) = some d := by
  rw [feasible, Option.filter_some, if_pos reaches]

theorem feasible_of_not_reaches {d : Deed} (misses : ¬d.reaches s) : s.feasible (some d) = none := by
  rw [feasible, Option.filter_some, if_neg misses]

def callDeed? (s : Store) (call : HostCall) : Option Deed :=
  (s.behaviour? call.function).bind fun behaviour => s.feasible (behaviour.deed? s call.args)

/-- From `s` to `s'`, a deed has been done, or none, and nothing else has changed of what listens and
is stored. Functions, listener tables and storages without contents may have come. -/
structure Does (s : Store) (deed : Option Deed) (s' : Store) : Prop where
  natives : s.natives.toList <+: s'.natives.toList
  tables : s.listeners.size ≤ s'.listeners.size
  storages : s.storages.size ≤ s'.storages.size
  listeners : ∀ table type, s'.listenersOf table type =
    deed.elim (s.listenersOf table type) (Deed.listeners table type (s.listenersOf table type))
  items : ∀ index, (s'.storage index).items =
    deed.elim (s.storage index).items (Deed.items index (s.storage index))
  quota : ∀ index < s.storages.size, (s'.storage index).quota = (s.storage index).quota

theorem Extends.does (extension : s.Extends s₁) : s.Does none s₁ where
  natives := extension.natives
  tables := extension.tables
  storages := extension.storages
  listeners := extension.listeners
  items := extension.items
  quota := extension.quota

theorem Does.extends (does : s.Does deed s₁) (extension : s₁.Extends s₂) : s.Does deed s₂ where
  natives := does.natives.trans extension.natives
  tables := Nat.le_trans does.tables extension.tables
  storages := Nat.le_trans does.storages extension.storages
  listeners table type := (extension.listeners table type).trans (does.listeners table type)
  items index := (extension.items index).trans (does.items index)
  quota index inside := (extension.quota index (Nat.lt_of_lt_of_le inside does.storages)).trans
    (does.quota index inside)

theorem listenersOf_setListeners (s : Store) (table other : Nat) (type name : String)
    (functions : List FunctionId) :
    (s.setListeners table type functions).listenersOf other name =
      if table = other ∧ type = name ∧ table < s.listeners.size then functions
      else s.listenersOf other name := by
  change (((s.listeners.modify table (·.insert type functions)).getD other ∅).get? name).getD [] = _
  rw [listenersOf, Array.getD_eq_getD_getElem?, Array.getD_eq_getD_getElem?, Array.getElem?_modify]
  by_cases here : table = other
  · subst here
    by_cases inside : table < s.listeners.size
    · rw [if_pos rfl, Array.getElem?_eq_getElem inside]
      simp only [Option.map_some, Option.getD_some, Dict.get?_insert, true_and, inside, and_true]
      by_cases same : type = name
      · rw [if_pos same.symm, if_pos same, Option.getD_some]
      · rw [if_neg (Ne.symm same), if_neg same]
    · rw [if_pos rfl, Array.getElem?_eq_none (Nat.le_of_not_lt inside),
        if_neg fun both => inside both.2.2]
      rfl
  · rw [if_neg here, if_neg fun both => here both.1]

theorem storage_modifyItems (s : Store) (index other : Nat) (f : Dict String → Dict String) :
    (s.modifyItems index f).storage other =
      if index = other ∧ index < s.storages.size then
        { s.storage other with items := f (s.storage other).items }
      else s.storage other := by
  change (s.storages.modify index fun storage => { storage with items := f storage.items }).getD
    other default = _
  rw [storage, Array.getD_eq_getD_getElem?, Array.getD_eq_getD_getElem?, Array.getElem?_modify]
  by_cases here : index = other
  · subst here
    by_cases inside : index < s.storages.size
    · rw [if_pos rfl, if_pos ⟨rfl, inside⟩, Array.getElem?_eq_getElem inside]
      rfl
    · rw [if_pos rfl, if_neg fun both => inside both.2,
        Array.getElem?_eq_none (Nat.le_of_not_lt inside)]
      rfl
  · rw [if_neg here, if_neg fun both => here both.1]

theorem does_setListeners {table : Nat} {type : String} {functions : List FunctionId}
    (listeners : ∀ other name,
      (if table = other ∧ type = name ∧ table < s.listeners.size then functions
        else s.listenersOf other name) =
      deed.elim (s.listenersOf other name) (Deed.listeners other name (s.listenersOf other name)))
    (items : ∀ index, (s.storage index).items =
      deed.elim (s.storage index).items (Deed.items index (s.storage index))) :
    s.Does deed (s.setListeners table type functions) where
  natives := List.prefix_refl _
  tables := Nat.le_of_eq Array.size_modify.symm
  storages := Nat.le_refl _
  listeners other name := (s.listenersOf_setListeners ..).trans (listeners other name)
  items := items
  quota _ _ := rfl

theorem does_modifyItems {index : Nat} {f : Dict String → Dict String}
    (listeners : ∀ table type, s.listenersOf table type =
      deed.elim (s.listenersOf table type) (Deed.listeners table type (s.listenersOf table type)))
    (items : ∀ other,
      (if index = other ∧ index < s.storages.size then f (s.storage other).items
        else (s.storage other).items) =
      deed.elim (s.storage other).items (Deed.items other (s.storage other))) :
    s.Does deed (s.modifyItems index f) where
  natives := List.prefix_refl _
  tables := Nat.le_refl _
  storages := Nat.le_of_eq Array.size_modify.symm
  listeners := listeners
  items other := by
    rw [storage_modifyItems, ← items other]
    split <;> rfl
  quota other _ := by
    rw [storage_modifyItems]
    split <;> rfl

theorem does_unlisted {table : Nat} {type : String} {functions : List FunctionId}
    (outside : ¬table < s.listeners.size) : s.Does none (s.setListeners table type functions) :=
  does_setListeners (fun _ _ => if_neg fun both => outside both.2.2) fun _ => rfl

theorem does_addListener (s : Store) (table : Nat) (type : String) (listener : Option Value) :
    s.Does (s.feasible do return .listen table type (← listener.bind Value.asFunction?))
      (s.addListener table type listener) := by
  unfold addListener
  cases listener.bind Value.asFunction? with
  | none => exact (Extends.refl s).does
  | some listener =>
    change s.Does (s.feasible (some (.listen table type listener)))
      (if listener ∈ s.listenersOf table type then s
        else s.setListeners table type (s.listenersOf table type ++ [listener]))
    by_cases inside : table < s.listeners.size
    · rw [feasible_of_reaches (by simpa [Deed.reaches] using inside)]
      split
      next member =>
        have kept (other : Nat) (name : String) : s.listenersOf other name =
            Deed.listeners other name (s.listenersOf other name) (.listen table type listener) := by
          refine (if_neg ?_).symm
          rintro ⟨rfl, rfl, absent⟩
          exact absent member
        exact { (Extends.refl s).does with listeners := kept, items := fun _ => rfl }
      next absent =>
        refine does_setListeners (fun other name => ?_) fun _ => rfl
        dsimp only [Option.elim_some, Deed.listeners]
        by_cases here : table = other ∧ type = name
        · obtain ⟨rfl, rfl⟩ := here
          rw [if_pos ⟨rfl, rfl, inside⟩, if_pos ⟨rfl, rfl, absent⟩]
        · rw [if_neg fun all => here ⟨all.1, all.2.1⟩, if_neg fun all => here ⟨all.1, all.2.1⟩]
    · rw [feasible_of_not_reaches (by simpa [Deed.reaches] using inside)]
      split
      · exact (Extends.refl s).does
      · exact does_unlisted inside

theorem does_removeListener (s : Store) (table : Nat) (type : String) (listener : Option Value) :
    s.Does (s.feasible do return .unlisten table type (← listener.bind Value.asFunction?))
      (s.removeListener table type listener) := by
  unfold removeListener
  cases listener.bind Value.asFunction? with
  | none => exact (Extends.refl s).does
  | some listener =>
    change s.Does (s.feasible (some (.unlisten table type listener))) _
    by_cases inside : table < s.listeners.size
    · rw [feasible_of_reaches (by simpa [Deed.reaches] using inside)]
      refine does_setListeners (fun other name => ?_) fun _ => rfl
      dsimp only [Option.elim_some, Deed.listeners]
      by_cases here : table = other ∧ type = name
      · obtain ⟨rfl, rfl⟩ := here
        rw [if_pos ⟨rfl, rfl, inside⟩, if_pos ⟨rfl, rfl⟩]
      · rw [if_neg fun all => here ⟨all.1, all.2.1⟩, if_neg here]
    · rw [feasible_of_not_reaches (by simpa [Deed.reaches] using inside)]
      exact does_unlisted inside

theorem does_items (s : Store) (f : Dict String → Dict String) {d : Deed} {index : Nat}
    (reaches : d.reaches s = decide (index < s.storages.size))
    (listeners : ∀ table type before, d.listeners table type before = before)
    (items : ∀ other, (if index = other then f (s.storage other).items
      else (s.storage other).items) = d.items other (s.storage other)) :
    s.Does (s.feasible (some d)) (s.modifyItems index f) := by
  by_cases inside : index < s.storages.size
  · rw [feasible_of_reaches (reaches.trans (decide_eq_true inside))]
    refine does_modifyItems (fun table type => (listeners table type _).symm) fun other => ?_
    simp only [inside, and_true]
    exact items other
  · rw [feasible_of_not_reaches (by simpa [reaches] using inside)]
    exact does_modifyItems (fun _ _ => rfl) fun other => if_neg fun both => inside both.2

theorem run_setItem (index : Nat) (key value : String) (s : Store) :
    (setItem index key value).run s =
      if Deed.Fits (s.storage index) key value then
        (.ok (), s.modifyItems index (·.insert key value))
      else
        (.error ((newError "QuotaExceededError" "The quota has been exceeded.").run s).1,
          ((newError "QuotaExceededError" "The quota has been exceeded.").run s).2) := by
  unfold setItem
  rw [run_bind, run_get]
  dsimp only
  by_cases fits : Deed.Fits (s.storage index) key value
  · rw [if_pos fits, if_neg (Nat.not_lt.mpr fits)]
    rfl
  · rw [if_neg fits, if_pos (Nat.not_le.mp fits)]
    rfl

theorem does_setItem (s : Store) (index : Nat) (key value : String) :
    s.Does (s.feasible (some (.store index key value))) ((setItem index key value).run s).2 := by
  rw [run_setItem]
  split
  next fits =>
    refine s.does_items (·.insert key value) rfl (fun _ _ _ => rfl) fun other => ?_
    by_cases here : index = other
    · subst here
      rw [if_pos rfl, Deed.items, if_pos ⟨rfl, fits⟩]
    · rw [if_neg here, Deed.items, if_neg fun both => here both.1]
  next exceeds =>
    have follows : Follows extending (newError "QuotaExceededError" "The quota has been exceeded.") :=
      inferInstance
    have extension := (follows.allowed s).2
    by_cases inside : index < s.storages.size
    · have kept (other : Nat) : (s.storage other).items =
          Deed.items other (s.storage other) (.store index key value) := by
        refine (if_neg ?_).symm
        rintro ⟨rfl, fits⟩
        exact exceeds fits
      have does : s.Does (s.feasible (some (.store index key value))) s := by
        rw [feasible_of_reaches (by simpa [Deed.reaches] using inside)]
        exact { (Extends.refl s).does with listeners := fun _ _ => rfl, items := kept }
      exact does.extends extension
    · rw [feasible_of_not_reaches (by simpa [Deed.reaches] using inside)]
      exact extension.does

end Store

/-! Requests. -/

def Contract.leaving : Contract where
  Sound _ := True
  Leads m m' := m.store.Extends m'.store
  Asks _ _ := True
  Answers _ _ _ := True
  refl m := .refl m.store
  trans := .trans
  sound _ _ := trivial

theorem leaving_of_keeps {α : Type} {work : StateM Machine α} (keeps : Keeps Machine.store work) :
    leaving.discipline.rule.Allows work :=
  allows_of_leads fun m _ => by
    have same := keeps.same m
    exact .of_registry (congrArg Store.registry same)

instance : AllowsGuest leaving.discipline.rule :=
  .of_keeping leaving_of_keeps

instance : AllowsPlain leaving.discipline.rule :=
  ⟨fun follows => allows_of_leads fun m _ => (follows.allowed m).2⟩

instance : AllowsTaking leaving.discipline.rule :=
  .of_keeping leaving_of_keeps ⟨fun _ => rfl⟩

instance : AllowsClosures leaving :=
  .of_taking fun keeps m _ => .of_registry
    (congrArg (fun (holdings : _ × Memory × Guest × _) => holdings.2.2.2) (keeps.same m))

/-- The task does a deed, and then leaves alone what listens and what is stored. -/
def Task.Does {α : Type} (task : Task α) (deed : Option Deed) (m : Machine) : Prop :=
  ∃ m₁, m.store.Does deed m₁.store ∧ task.Fulfils leaving m₁

namespace Task.Does

variable {α β : Type} {deed : Option Deed} {m : Machine}

theorem of_obeys {run : Run α} (obeys : Run.Obeys leaving.discipline run) (m : Machine) :
    (run m).Does none m :=
  ⟨m, (Store.Extends.refl m.store).does, obeys.allowed m trivial⟩

theorem bind {task : Task α} {next : α → Run β} (does : task.Does deed m)
    (rest : ∀ value, Run.Obeys leaving.discipline (next value)) :
    (task.bind next).Does deed m := by
  obtain ⟨m₁, first, fulfils⟩ := does
  exact ⟨m₁, first, fulfils.bind trivial fun value m' _ => (rest value).allowed m' trivial⟩

theorem of_store {task : Task α} {m' : Machine} (does : task.Does deed m')
    (same : m'.store = m.store) : task.Does deed m := by
  obtain ⟨m₁, first, fulfils⟩ := does
  exact ⟨m₁, same ▸ first, fulfils⟩

end Task.Does

variable {m : Machine}

theorem Task.Does.argument {α : Type} {args : List Value} {index : Nat} {next : String → Host α}
    {f : String → Option Deed}
    (rest : ∀ text, ((next text).run m).Does (m.store.feasible (f text)) m) :
    ((liftM (argumentText args index) >>= next : Host α).run m).Does
      (m.store.feasible ((m.store.argument? args index).bind f)) m := by
  have followed := Host.run_displayed_bind (args[index]?.getD .undefined) next m
  change (liftM (argumentText args index) >>= next : Host α).run m = _ at followed
  rw [followed]
  unfold Store.argument?
  cases m.store.display? (args[index]?.getD .undefined) with
  | none => exact ⟨m, (Store.Extends.refl m.store).does, trivial⟩
  | some text => exact rest text

theorem runBehaviour_does (receiver : Value) (args : List Value) (behaviour : Behaviour)
    (m : Machine) : ((runBehaviour receiver args behaviour).run m).Does
      (m.store.feasible (behaviour.deed? m.store args)) m := by
  cases edits : behaviour.edits with
  | false =>
    have none : behaviour.deed? m.store args = none := by
      cases behaviour with
      | addListener | removeListener | setItem | removeItem | clear => cases edits
      | _ => rfl
    rw [none]
    exact .of_obeys (obeys_runBehaviour receiver args behaviour edits) m
  | true =>
    cases behaviour with
    | addListener table =>
      exact .argument fun type => ⟨_, m.store.does_addListener table type args[1]?, leaving.refl _⟩
    | removeListener table =>
      exact .argument fun type =>
        ⟨_, m.store.does_removeListener table type args[1]?, leaving.refl _⟩
    | removeItem index =>
      refine .argument fun key => ⟨{ m with store := m.store.modifyItems index (·.erase key) }, ?_,
        leaving.refl _⟩
      exact m.store.does_items (·.erase key) rfl (fun _ _ _ => rfl) fun _ => rfl
    | clear index =>
      exact ⟨{ m with store := m.store.modifyItems index fun _ => ∅ },
        m.store.does_items (fun _ => ∅) rfl (fun _ _ _ => rfl) fun _ => rfl, leaving.refl _⟩
    | setItem index =>
      refine .argument fun key => .argument fun value =>
        ⟨{ m with store := ((Store.setItem index key value).run m.store).2 },
          m.store.does_setItem index key value, ?_⟩
      rw [Host.run_attempt_bind]
      rcases (Store.setItem index key value).run m.store with ⟨e | _, s⟩ <;> exact leaving.refl _
    | _ => cases edits

theorem HostCall.does (call : HostCall) (m : Machine) :
    (call.run m).Does (m.store.callDeed? call) m := by
  obtain ⟨function, receiver, args⟩ := call
  cases function with
  | native index => exact runBehaviour_does receiver args _ m
  | closure index =>
    have obeys : Run.Obeys leaving.discipline (invokeClosure index args).run := inferInstance
    exact .of_obeys obeys m

theorem fulfils_invokeMethod {target : Value} {name : String}
    (lost : m.store.method? target name = none) (args : List Value) :
    ((invokeMethod target name args).run m).Fulfils leaving m := by
  unfold Store.method? at lost
  unfold invokeMethod
  rw [Host.run_attempt_bind]
  have follows : Follows Store.extending (Store.getProperty target name).run := inferInstance
  have extension : m.store.Extends ((Store.getProperty target name).run m.store).2 :=
    (follows.allowed m.store).2
  revert lost extension
  rcases (Store.getProperty target name).run m.store with ⟨exception | value, s⟩ <;>
    intro lost extension
  · exact extension
  · have obeys : Run.Obeys leaving.discipline
        (attempt (Store.throwTypeError s!"{name} is not a function") : Host Value).run :=
      inferInstance
    have thrown := (obeys.allowed { m with store := s } trivial).since extension
    cases value with
    | function id => cases lost
    | _ => exact thrown

theorem Errand.fulfils_perform {errand : Errand} (uncalled : errand.call? m.store = none) :
    (errand.perform.run m).Fulfils leaving m := by
  have apart (obeys : Run.Obeys leaving.discipline errand.perform.run) := obeys.allowed m trivial
  cases errand with
  | call function receiver =>
    cases function with
    | function id => cases uncalled
    | _ => exact apart (by unfold perform; infer_instance)
  | method target name args =>
    exact fulfils_invokeMethod (Option.map_eq_none_iff.mp uncalled) args
  | reflect target => exact apart (by cases target <;> unfold perform <;> infer_instance)
  | _ => exact apart (by unfold perform; infer_instance)

namespace GuardedCall

instance (g : GuardedCall) (result : Except Fault Value) :
    Run.Obeys leaving.discipline (g.conclude result).run := by
  have : Follows leaving.discipline.rule (g.settle result).run :=
    ⟨leaving_of_keeps (g.keeps_settle result)⟩
  unfold conclude
  infer_instance

theorem fulfils_perform {g : GuardedCall} (uncalled : g.call? m = none) :
    (g.perform.run m).Fulfils leaving m := by
  have untouched := (g.looks_resolve m).1
  rw [run_perform]
  unfold call? at uncalled
  cases resolved : g.resolve.run m with
  | mk result m₁ =>
    rw [resolved] at untouched uncalled
    have extension : m.store.Extends m₁.store := untouched.store ▸ .refl m₁.store
    match result with
    | .error e => exact extension
    | .ok none => exact trivial
    | .ok (some errand) =>
      dsimp only at uncalled ⊢
      rw [← untouched.store] at uncalled
      rw [run_guarded_errand]
      refine ((Errand.fulfils_perform uncalled).bind trivial ?_).since extension
      intro result m' _
      have obeys : Run.Obeys leaving.discipline (g.conclude result).run := inferInstance
      exact obeys.allowed m' trivial

theorem invokes_of_read {args : List Word} {i : Import} (unread : read args i = none) :
    i.invokes = false := by
  cases i <;> first | rfl | cases unread

end GuardedCall

theorem Import.fulfils_run {args : List Word} {i : Import} (uncalled : i.call? m args = none) :
    ((Adapter.run args i).run m).Fulfils leaving m := by
  unfold call? at uncalled
  cases reads : GuardedCall.read args i with
  | none =>
    have obeys : Run.Obeys leaving.discipline (Adapter.run args i).run := by
      cases takes : i.takes with
      | true => exact Adapter.obeys_run_taking args i takes
      | false => exact Adapter.obeys_run_apart args i takes (GuardedCall.invokes_of_read reads)
    exact obeys.allowed m trivial
  | some read =>
    rw [reads] at uncalled
    cases read with
    | error e =>
      rw [GuardedCall.run_of_read reads]
      exact leaving.refl m
    | ok g =>
      rw [GuardedCall.run_import reads]
      exact (GuardedCall.fulfils_perform uncalled).bind trivial fun _ last _ => leaving.refl last

theorem fulfils_callImport_uncalled {name : String} {args : List Word}
    (uncalled : (Request.callImport name args).call? m = none) :
    ((callImport name args).run m).Fulfils leaving m := by
  simp only [Request.call?] at uncalled
  cases registered : m.imports.find? m.settings.importModule name with
  | none =>
    unfold callImport Registry.callOn Registry.call
    rw [Op.run_get_bind, registered]
    have obeys : Run.Obeys leaving.discipline (do
        note .debug LogTarget.registry
          s!"import {Registry.key m.settings.importModule name} is not registered"
        throw .unknownImport : Op (List Word)).run := inferInstance
    exact obeys.allowed m trivial
  | some handler =>
    cases handler with
    | hosted key =>
      unfold callImport Registry.callOn Registry.call
      rw [Op.run_get_bind, registered]
      have : Run.Obeys leaving.discipline (Handler.run args (.hosted key)).run :=
        Run.Obeys.call rfl
      have obeys : Run.Obeys leaving.discipline (do
          note .trace LogTarget.registry s!"import {Registry.key m.settings.importModule name}"
          Handler.run args (.hosted key) : Op (List Word)).run := inferInstance
      exact obeys.allowed m trivial
    | adapter i =>
      rw [registered] at uncalled
      rw [run_callImport_noting registered]
      have untouched := m.untouched_noting name
      have fulfils : ((Adapter.run args i).run (m.noting name)).Fulfils leaving (m.noting name) :=
        Import.fulfils_run (uncalled ▸ i.call?_eq untouched args)
      have leads : leaving.Leads m (m.noting name) := Store.Extends.refl m.store
      exact fulfils.since leads

namespace Request

variable {request : Request}

theorem fulfils_perform (uncalled : request.call? m = none) :
    (request.perform m).Fulfils leaving m := by
  have apart (obeys : Run.Obeys leaving.discipline request.perform) := obeys.allowed m trivial
  cases request with
  | callFunction => cases uncalled
  | invokeMethod => exact fulfils_invokeMethod (Option.map_eq_none_iff.mp uncalled) _
  | callImport => exact fulfils_callImport_uncalled uncalled
  | take | release => exact apart (by unfold perform; infer_instance)
  | _ =>
    exact apart (obeys_perform_apart _ rfl rfl fun access _ => leaving_of_keeps inferInstance)

theorem Relays.obeys {next : Except Fault Value → Run request.Answer}
    (relays : request.Relays m next) (result : Except Fault Value) :
    Run.Obeys leaving.discipline (next result) := by
  cases relays with
  | function | method => exact inferInstanceAs (Run.Obeys leaving.discipline (pure result))
  | @guarded _ _ _ g =>
    have obeys : Run.Obeys leaving.discipline (g.conclude result).run := inferInstance
    exact ⟨fun reached _ => (obeys.allowed reached trivial).bind trivial fun _ last _ =>
      leaving.refl last⟩

def deed? (m : Machine) (request : Request) : Option Deed :=
  (request.call? m).bind m.store.callDeed?

/-- Every request does its deed first, and nothing but that to what listens and what is stored. -/
theorem does (request : Request) (m : Machine) :
    (request.perform m).Does (request.deed? m) m := by
  unfold deed?
  cases called : request.call? m with
  | none => exact ⟨m, (Store.Extends.refl m.store).does, fulfils_perform called⟩
  | some call =>
    obtain ⟨next, m₁, relays, untouched, performed⟩ := perform_of_call? called
    rw [performed]
    have does := (call.does m₁).bind relays.obeys
    rw [untouched.store] at does
    exact does.of_store untouched.store

end Request

end SandboxBridge

import SandboxBridge.Embedding
import SandboxBridge.Proofs.Machine

/-!
Work that calls nobody, by what it may touch. Most of it touches neither handles nor closures; what
is left stores values under handles, parks exceptions, or takes handles from whoever owned them.
-/

namespace SandboxBridge

open Work

namespace Store

/-- From `s` to `s'`, functions, listener tables and storages may have come, all of them without
contents, and what was there is as it was. -/
structure Extends (s s' : Store) : Prop where
  natives : s.natives.toList <+: s'.natives.toList
  tables : s.listeners.size ≤ s'.listeners.size
  storages : s.storages.size ≤ s'.storages.size
  listeners : ∀ table type, s'.listenersOf table type = s.listenersOf table type
  items : ∀ items, (s'.storage items).items = (s.storage items).items
  quota : ∀ items < s.storages.size, (s'.storage items).quota = (s.storage items).quota

def registry (s : Store) :
    Array NativeFunction × Array (Dict (List FunctionId)) × Array Storage :=
  (s.natives, s.listeners, s.storages)

theorem Extends.of_registry {s s' : Store} (same : s'.registry = s.registry) : s.Extends s' := by
  obtain ⟨natives, both⟩ := Prod.mk.inj same
  obtain ⟨listeners, storages⟩ := Prod.mk.inj both
  unfold registry at *
  exact {
    natives := natives ▸ List.prefix_refl _
    tables := Nat.le_of_eq (congrArg Array.size listeners.symm)
    storages := Nat.le_of_eq (congrArg Array.size storages.symm)
    listeners := fun table type => by rw [listenersOf, listeners, listenersOf]
    items := fun items => by rw [storage, storages, storage]
    quota := fun items _ => by rw [storage, storages, storage] }

theorem Extends.refl (s : Store) : s.Extends s :=
  .of_registry rfl

theorem Extends.trans {s s₁ s₂ : Store} (first : s.Extends s₁) (second : s₁.Extends s₂) :
    s.Extends s₂ where
  natives := first.natives.trans second.natives
  tables := Nat.le_trans first.tables second.tables
  storages := Nat.le_trans first.storages second.storages
  listeners table type := (second.listeners table type).trans (first.listeners table type)
  items items := (second.items items).trans (first.items items)
  quota items inside := (second.quota items (Nat.lt_of_lt_of_le inside first.storages)).trans
    (first.quota items inside)

/-- Work on the store that only makes things and changes objects. -/
def extending : Rule Store where
  Allows work := ∀ s, (work.run s).2.closures = s.closures ∧ s.Extends (work.run s).2
  pure _ s := ⟨rfl, .refl s⟩
  bind first rest s :=
    have before := first s
    have after := rest _ _
    ⟨after.1.trans before.1, before.2.trans after.2⟩
  look s := ⟨rfl, .refl s⟩

instance (o : Object) : Follows extending (newObject o) :=
  ⟨fun _ => ⟨rfl, .of_registry rfl⟩⟩

instance (name : String) (behaviour : Behaviour) : Follows extending (newNative name behaviour) where
  allowed s := by
    refine ⟨rfl, { Extends.refl s with natives := ?_ }⟩
    change s.natives.toList <+: (s.natives.push ⟨name, behaviour⟩).toList
    rw [Array.toList_push]
    exact List.prefix_append _ _

instance : Follows extending newListeners where
  allowed s := by
    have pushed : (s.listeners.push ∅).size = s.listeners.size + 1 := Array.size_push _
    refine ⟨rfl, { Extends.refl s with
      tables := pushed ▸ Nat.le_succ _
      listeners := fun table type => ?_ }⟩
    change (((s.listeners.push ∅).getD table ∅).get? type).getD [] = _
    rw [listenersOf, Array.getD_eq_getD_getElem?, Array.getD_eq_getD_getElem?, Array.getElem?_push]
    split
    next last =>
      rw [last, Array.getElem?_eq_none (Nat.le_refl _)]
      rfl
    next => rfl

instance (quota : Nat) : Follows extending (newItems quota) where
  allowed s := by
    have pushed : (s.storages.push ⟨quota, ∅⟩).size = s.storages.size + 1 := Array.size_push _
    have found (items : Nat) : (s.storages.push ⟨quota, ∅⟩).getD items default =
        if items = s.storages.size then ⟨quota, ∅⟩ else s.storage items := by
      rw [storage, Array.getD_eq_getD_getElem?, Array.getD_eq_getD_getElem?, Array.getElem?_push]
      split <;> rfl
    refine ⟨rfl, { Extends.refl s with
      storages := pushed ▸ Nat.le_succ _
      items := fun items => ?_
      quota := fun items inside => ?_ }⟩
    · change ((s.storages.push ⟨quota, ∅⟩).getD items default).items = _
      rw [found]
      split
      next last =>
        rw [last, storage, Array.getD_eq_getD_getElem?, Array.getElem?_eq_none (Nat.le_refl _)]
        rfl
      next => rfl
    · change ((s.storages.push ⟨quota, ∅⟩).getD items default).quota = _
      rw [found, if_neg (Nat.ne_of_lt inside)]

instance (id : ObjectId) (key : String) (value : Value) :
    Follows extending (modify (·.put id key value)) :=
  ⟨fun _ => ⟨rfl, .of_registry rfl⟩⟩

instance (id : ObjectId) (name : String) (behaviour : Behaviour) :
    Follows extending (defineMethod id name behaviour) := by
  unfold defineMethod
  infer_instance

instance (name message : String) : Follows extending (newError name message) := by
  unfold newError
  infer_instance

instance {α : Type} (message : String) :
    Follows extending (throwTypeError message : Completion α).run := by
  unfold throwTypeError
  infer_instance

instance (id : ObjectId) : Follows extending (installEventTarget id) := by
  unfold installEventTarget
  infer_instance

instance : Follows extending newEventTarget := by
  unfold newEventTarget
  infer_instance

instance (quota : Nat) : Follows extending (newStorage quota) := by
  unfold newStorage
  infer_instance

instance (quota : Nat) : Follows extending (newWindow quota) := by
  unfold newWindow
  infer_instance

instance (elements : Array Value) : Follows extending (newArray elements) := by
  unfold newArray
  infer_instance

instance : Follows extending newPlain := by
  unfold newPlain
  infer_instance

instance (s : Store) (init : Value) : Follows extending (s.eventDetail init).run := by
  unfold eventDetail
  split <;> infer_instance

instance (type : String) (init : Value) : Follows extending (newCustomEvent type init).run := by
  unfold newCustomEvent
  infer_instance

instance (args : List Value) : Follows extending (eventArgument args).run := by
  unfold eventArgument
  apply Follows.bind inferInstance
  intro s
  split <;> infer_instance

instance (target : Value) (key : String) : Follows extending (getProperty target key).run := by
  unfold getProperty
  apply Follows.bind inferInstance
  intro s
  split
  case h_3 id =>
    dsimp only
    split
    · split
      · infer_instance
      · split <;> infer_instance
    · infer_instance
  all_goals infer_instance

instance (id : ObjectId) (index : Position) (value : Value) :
    Follows extending (modify (·.setElement id index value)) :=
  ⟨fun _ => ⟨rfl, .of_registry rfl⟩⟩

instance (edit : Edit) : Follows extending edit.perform := by
  cases edit
  case erase id key => exact ⟨fun _ => ⟨rfl, .of_registry rfl⟩⟩
  all_goals
    unfold Edit.perform
    infer_instance

theorem keeps_closures {α : Type} {work : Build α} (grows : Follows extending work) :
    Keeps closures work :=
  ⟨fun s => (grows.allowed s).1⟩

/-! What the built-in functions change of what listens and is stored. -/

instance (items : Nat) (key value : String) : Keeps closures (setItem items key value).run := by
  unfold setItem
  refine .of_look fun s => ?_
  dsimp only
  split
  · have error : Keeps closures (newError "QuotaExceededError" "The quota has been exceeded.") :=
      keeps_closures inferInstance
    exact error.same s
  · rfl

theorem closures_addListener (s : Store) (table : Nat) (type : String) (listener : Option Value) :
    (s.addListener table type listener).closures = s.closures := by
  unfold addListener
  split
  · dsimp only
    split <;> rfl
  · rfl

theorem closures_removeListener (s : Store) (table : Nat) (type : String)
    (listener : Option Value) : (s.removeListener table type listener).closures = s.closures := by
  unfold removeListener
  split <;> rfl

theorem closures_preventDefault (s : Store) (receiver : Value) :
    (s.preventDefault receiver).closures = s.closures := by
  unfold preventDefault
  split
  · split <;> rfl
  · rfl

theorem registry_preventDefault (s : Store) (receiver : Value) :
    (s.preventDefault receiver).registry = s.registry := by
  unfold preventDefault
  split
  · split <;> rfl
  · rfl

end Store

namespace Machine

variable {α τ : Type}

/-- What the log and the contents of the memory do not show in. -/
class IgnoresMemory (part : Machine → τ) : Prop where
  ignores : ∀ m journal memory allocator,
    part { m with journal, memory, guest := { m.guest with allocator } } = part m

/-- What the module's side of the machine does not show in. -/
class IgnoresGuest (part : Machine → τ) : Prop extends IgnoresMemory part where
  guest : ∀ m guest, part { m with guest } = part m

section Memory

variable {part : Machine → τ} [IgnoresMemory part]

instance (level : Level) (target message : String) : Keeps part (note level target message) :=
  .of_modify fun m => IgnoresMemory.ignores m _ m.memory m.guest.allocator

instance {rule : Rule Machine} {work : Local α} [follows : Follows rule work.run] :
    Follows rule (settle work).run :=
  inferInstanceAs (Follows rule (work.run >>= fun result => pure (Except.ok result)))

instance (work : Memory.Action α) : Keeps part (onMemory work).run where
  allowed m := by
    obtain ⟨journal, ran⟩ := run_onMemory work m
    change part ((onMemory work).run m).2 = part m
    rw [ran]
    exact IgnoresMemory.ignores m journal _ m.guest.allocator

instance (work : Allocator.Action α) : Keeps part (onAllocator work).run where
  allowed m := by
    obtain ⟨journal, ran⟩ := run_onAllocator work m
    change part ((onAllocator work).run m).2 = part m
    rw [ran]
    exact IgnoresMemory.ignores m journal _ _

instance (pages : Nat) : Keeps part (grow pages).run := by
  unfold grow
  infer_instance

instance (data : ByteArray) : Keeps part (place data).run := by
  unfold place
  infer_instance

instance (start length : Nat) : Keeps part (decode start length).run := by
  unfold decode
  infer_instance

end Memory

instance {rule : Rule Machine} {work : Local Nat} [∀ pages, Follows rule (grow pages).run]
    [Follows rule work.run] (override : Override) :
    Follows rule (overridden work override).run := by
  cases override <;> unfold overridden <;> infer_instance

/-- A rule that minds neither the log nor what the bridge does to the memory and asks of the module's
allocator. -/
class AllowsGuest (rule : Rule Machine) : Prop where
  note : ∀ level target message, rule.Allows (note level target message)
  grow : ∀ pages, rule.Allows (grow pages).run
  decode : ∀ start length, rule.Allows (decode start length).run
  write : ∀ start data, rule.Allows (onMemory (Memory.writeBytes start data)).run
  writePair : ∀ slot first second,
    rule.Allows (onMemory (Memory.writePair slot first second)).run
  malloc : ∀ size, rule.Allows (onAllocator (Allocator.malloc size)).run
  realloc : ∀ start oldSize newSize,
    rule.Allows (onAllocator (Allocator.realloc start oldSize newSize)).run
  free : rule.Allows (onAllocator Allocator.free).run
  place : ∀ data, rule.Allows (place data).run
  nextOverride : ∀ entry, rule.Allows (nextOverride entry)
  recordCall : ∀ call, rule.Allows (recordCall call)

instance {part : Machine → τ} [IgnoresGuest part] : AllowsGuest (.keeping part) where
  note _ _ _ := Keeps.same inferInstance
  grow _ := Keeps.same inferInstance
  decode _ _ := Keeps.same inferInstance
  write _ _ := Keeps.same inferInstance
  writePair _ _ _ := Keeps.same inferInstance
  malloc _ := Keeps.same inferInstance
  realloc _ _ _ := Keeps.same inferInstance
  free := Keeps.same inferInstance
  place _ := Keeps.same inferInstance
  nextOverride entry := by
    refine Keeps.same (.of_modifyGet fun m => ?_)
    split
    next => rfl
    next => exact IgnoresGuest.guest m _
  recordCall _ := Keeps.same (.of_modify fun m => IgnoresGuest.guest m _)

theorem AllowsGuest.of_keeping {rule : Rule Machine} {part : Machine → τ} [IgnoresGuest part]
    (allows : ∀ {α : Type} {work : StateM Machine α}, Keeps part work → rule.Allows work) :
    AllowsGuest rule where
  note level target message := allows ⟨AllowsGuest.note level target message⟩
  grow pages := allows ⟨AllowsGuest.grow pages⟩
  decode start length := allows ⟨AllowsGuest.decode start length⟩
  write start data := allows ⟨AllowsGuest.write start data⟩
  writePair slot first second := allows ⟨AllowsGuest.writePair slot first second⟩
  malloc size := allows ⟨AllowsGuest.malloc size⟩
  realloc start oldSize newSize := allows ⟨AllowsGuest.realloc start oldSize newSize⟩
  free := allows ⟨AllowsGuest.free⟩
  place data := allows ⟨AllowsGuest.place data⟩
  nextOverride entry := allows ⟨AllowsGuest.nextOverride entry⟩
  recordCall call := allows ⟨AllowsGuest.recordCall call⟩

section Guest

variable {rule : Rule Machine} [AllowsGuest rule]

instance (level : Level) (target message : String) : Follows rule (note level target message) :=
  ⟨AllowsGuest.note level target message⟩

instance (pages : Nat) : Follows rule (grow pages).run :=
  ⟨AllowsGuest.grow pages⟩

instance (start length : Nat) : Follows rule (decode start length).run :=
  ⟨AllowsGuest.decode start length⟩

instance (start : Nat) (data : ByteArray) :
    Follows rule (onMemory (Memory.writeBytes start data)).run :=
  ⟨AllowsGuest.write start data⟩

instance (slot : Nat) (first second : UInt32) :
    Follows rule (onMemory (Memory.writePair slot first second)).run :=
  ⟨AllowsGuest.writePair slot first second⟩

instance (size : Nat) : Follows rule (onAllocator (Allocator.malloc size)).run :=
  ⟨AllowsGuest.malloc size⟩

instance (start oldSize newSize : Nat) :
    Follows rule (onAllocator (Allocator.realloc start oldSize newSize)).run :=
  ⟨AllowsGuest.realloc start oldSize newSize⟩

instance : Follows rule (onAllocator Allocator.free).run :=
  ⟨AllowsGuest.free⟩

instance (data : ByteArray) : Follows rule (place data).run :=
  ⟨AllowsGuest.place data⟩

instance (entry : AllocatorEntry) : Follows rule (nextOverride entry) :=
  ⟨AllowsGuest.nextOverride entry⟩

instance (call : AllocatorCall) : Follows rule (recordCall call) :=
  ⟨AllowsGuest.recordCall call⟩

instance {work : Local Nat} [Follows rule work.run] (entry : AllocatorEntry) (args : List Nat) :
    Follows rule (callAllocator entry args work).run := by
  unfold callAllocator
  infer_instance

instance (size : Nat) : Follows rule (malloc size).run := by
  unfold malloc
  infer_instance

instance (start oldSize newSize : Nat) : Follows rule (realloc start oldSize newSize).run := by
  unfold realloc
  dsimp only
  infer_instance

instance (start size : Nat) : Follows rule (free start size).run := by
  unfold free
  infer_instance

instance (offersRealloc asciiFirst : Bool) (s : String) :
    Follows rule (Transfer.encode (provider offersRealloc) asciiFirst s).run := by
  have exact : Follows rule (Transfer.encodeExact (provider offersRealloc) s).run := by
    unfold Transfer.encodeExact provider
    infer_instance
  have growing (ascii : Nat) :
      Follows rule (Transfer.encodeGrowing (provider offersRealloc) realloc s ascii).run := by
    unfold Transfer.encodeGrowing provider
    dsimp only
    apply Follows.bind inferInstance
    intro written
    apply Follows.bind inferInstance
    intro remaining
    apply Follows.bind inferInstance
    intro capacity
    apply Follows.bind inferInstance
    intro start
    apply Follows.bind inferInstance
    intro _
    apply Follows.bind inferInstance
    intro worst
    apply Follows.bind inferInstance
    intro _
    apply Follows.bind inferInstance
    intro moved
    infer_instance
  cases offersRealloc with
  | false => exact exact
  | true =>
    change Follows rule (if asciiFirst then
      if Transfer.asciiLength s = s.utf8ByteSize then _ else _ else _ : Local Transfer.Extent).run
    infer_instance

instance (s : String) : Follows rule (encode s).run := by
  unfold encode
  infer_instance

instance (slot : Nat) (s : Option String) : Follows rule (writeResult slot s).run := by
  unfold writeResult
  cases s <;> infer_instance

end Guest

/-! Log, store and settings. -/

/-- Handles, closures, and what imports are looked up by. -/
def core (m : Machine) : HandleTable × ExceptionSlot × Array Closure × Settings × Registry Handler :=
  (m.table, m.pending, m.store.closures, m.settings, m.imports)

instance : IgnoresGuest core where
  ignores _ _ _ _ := rfl
  guest _ _ := rfl

def frame (m : Machine) :
    (HandleTable × ExceptionSlot × Array Closure × Settings × Registry Handler) × Memory × Guest :=
  (m.core, m.memory, m.guest)

theorem keeps_core {work : StateM Machine α} (keeps : Keeps frame work) : Keeps core work :=
  ⟨fun m => congrArg Prod.fst (keeps.same m)⟩

/-- A rule that minds only handles and closures, what imports are looked up by, the memory and the
module's side. -/
class AllowsAside (rule : Rule Machine) : Prop where
  aside : ∀ {α : Type} {work : StateM Machine α}, Keeps frame work → rule.Allows work

/-- A rule that minds only handles and closures, and what imports are looked up by. -/
class MindsCore (rule : Rule Machine) : Prop where
  aside : ∀ {α : Type} {work : StateM Machine α}, Keeps core work → rule.Allows work

section MindsCore

variable {rule : Rule Machine} [minds : MindsCore rule]

instance : AllowsAside rule where
  aside keeps := minds.aside (keeps_core keeps)

instance : AllowsGuest rule :=
  .of_keeping minds.aside

end MindsCore

instance : MindsCore (.keeping core) :=
  ⟨fun keeps => keeps.allowed⟩

/-- Plain work does nothing but make things and change objects, and writes to the log. -/
def plain : Rule Machine where
  Allows work := ∀ m, (work.run m).2.frame = m.frame ∧ m.store.Extends (work.run m).2.store
  pure _ m := ⟨rfl, .refl m.store⟩
  bind first rest m :=
    have before := first m
    have after := rest _ _
    ⟨after.1.trans before.1, before.2.trans after.2⟩
  look m := ⟨rfl, .refl m.store⟩

theorem keeps_frame {work : StateM Machine α} (follows : Follows plain work) : Keeps frame work :=
  ⟨fun m => (follows.allowed m).1⟩

/-- A rule that does not mind plain work. -/
class AllowsPlain (rule : Rule Machine) : Prop where
  plain : ∀ {α : Type} {work : StateM Machine α}, Follows plain work → rule.Allows work

instance {rule : Rule Machine} [AllowsAside rule] : AllowsPlain rule :=
  ⟨fun follows => AllowsAside.aside (keeps_frame follows)⟩

theorem frame_of_closures {m : Machine} {store : Store} (same : store.closures = m.store.closures) :
    frame { m with store } = m.frame :=
  congrArg (fun closures =>
    ((m.table, m.pending, closures, m.settings, m.imports), m.memory, m.guest)) same

instance {work : Store.Build α} [keeps : Keeps Store.closures work] : Keeps frame (build work) :=
  .of_modifyGet fun m => frame_of_closures (keeps.same m.store)

instance {work : Store.Build α} [grows : Follows Store.extending work] :
    Follows plain (build work) :=
  ⟨fun m => ⟨frame_of_closures (grows.allowed m.store).1, (grows.allowed m.store).2⟩⟩

theorem keeps_modifyStore {f : Store → Store} (same : ∀ s, (f s).closures = s.closures) :
    Keeps frame (modifyStore f) :=
  .of_modify fun m => frame_of_closures (same m.store)

theorem plain_modifyStore {f : Store → Store} (closures : ∀ s, (f s).closures = s.closures)
    (registry : ∀ s, (f s).registry = s.registry) : Follows plain (modifyStore f) :=
  ⟨fun m => ⟨frame_of_closures (closures m.store), .of_registry (registry m.store)⟩⟩

theorem plain_modify {f : Machine → Machine} (frame : ∀ m, (f m).frame = m.frame)
    (store : ∀ m, (f m).store = m.store) : Follows plain (modify f : StateM Machine PUnit) where
  allowed m := by
    have kept := store m
    refine ⟨frame m, ?_⟩
    change m.store.Extends (f m).store
    rw [kept]
    exact .refl _

instance (handle : Handle) : Follows plain (object handle).run := by
  unfold object
  infer_instance

instance (level : Level) (target message : String) : Follows plain (note level target message) :=
  plain_modify (fun _ => rfl) fun _ => rfl

instance (level : Level) (message : String) : Follows plain (logModule level message) where
  allowed m := by
    unfold logModule
    change frame ((ite _ _ _ : StateM Machine Unit).run m).2 = _ ∧
      m.store.Extends ((ite _ _ _ : StateM Machine Unit).run m).2.store
    split <;> exact ⟨rfl, .refl _⟩

section Starting

variable {rule : Rule Machine} [∀ level target message, Follows rule (note level target message)]

instance (settings : Settings) : Follows rule (readThreshold settings).run := by
  unfold readThreshold
  split <;> infer_instance

theorem follows_settled
    (sets : ∀ level, Follows rule (modify ({ · with threshold := level }) : StateM Machine Unit))
    (named : String) (result : Except Error Level) :
    Follows rule (match result with
      | .ok level => modify ({ · with threshold := level })
      | .error _ => note .warn LogTarget.bridge
        s!"unknown minimum log level '{named}', keeping all module messages" :
        StateM Machine Unit) := by
  cases result <;> infer_instance

theorem follows_start
    (sets : ∀ level, Follows rule (modify ({ · with threshold := level }) : StateM Machine Unit)) :
    Follows rule start := by
  unfold start
  have settled := follows_settled sets
  dsimp only
  infer_instance

end Starting

theorem frame_create (settings : Settings) (memory : Memory) (guest : Guest) (store : Store)
    (global : ObjectId) :
    (create settings memory guest store global).frame =
      (bare settings memory guest store global).frame := by
  have keeps : Keeps frame start :=
    keeps_frame (follows_start fun _ => plain_modify (fun _ => rfl) fun _ => rfl)
  exact keeps.same _

theorem core_create (settings : Settings) (memory : Memory) (guest : Guest) (store : Store)
    (global : ObjectId) :
    (create settings memory guest store global).core =
      (bare settings memory guest store global).core :=
  congrArg Prod.fst (frame_create settings memory guest store global)

theorem store_create (settings : Settings) (memory : Memory) (guest : Guest) (store : Store)
    (global : ObjectId) : (create settings memory guest store global).store = store := by
  have (level : Level) (target message : String) : Keeps Machine.store (note level target message) :=
    .of_modify fun _ => rfl
  have keeps : Keeps Machine.store start := follows_start fun _ => Keeps.of_modify fun _ => rfl
  exact keeps.same _

/-! Handles. -/

/-- What handles and the log do not show in. -/
class IgnoresHandles (part : Machine → τ) : Prop where
  ignores : ∀ m table pending journal, part { m with table, pending, journal } = part m

section Handles

variable {part : Machine → τ} [ignoring : IgnoresHandles part]

instance (level : Level) (target message : String) : Keeps part (note level target message) :=
  .of_modify fun m => ignoring.ignores m m.table m.pending _

theorem keeps_take (handle : Handle) : Keeps part (take handle).run := by
  unfold take
  have : Keeps part (modify fun m => { m with table := m.table.vacate handle } : Local PUnit).run :=
    .of_change fun m => ignoring.ignores m (m.table.vacate handle) m.pending m.journal
  dsimp only
  infer_instance

theorem keeps_allocate (value : Value) : Keeps part (allocate value).run := by
  unfold allocate
  have : Keeps part (modify fun m => { m with table := m.table.occupy value } : Local PUnit).run :=
    .of_change fun m => ignoring.ignores m (m.table.occupy value) m.pending m.journal
  infer_instance

theorem keeps_park (exception : Value) : Keeps part (park exception).run := by
  have allocated : Keeps part (allocate exception).run := keeps_allocate exception
  unfold park
  refine .bind inferInstance fun handle => Keeps.of_look fun m => ?_
  have stored : part { m with pending := (m.pending.store handle).2 } = part m :=
    ignoring.ignores m m.table _ m.journal
  dsimp only
  cases (m.pending.store handle).1 with
  | none => exact stored
  | some previous =>
    have taken : Keeps part (take previous).run := keeps_take previous
    have released : Keeps part (do
        note .warn LogTarget.bridge s!"exception {previous.display} was never taken; discarding it"
        release previous : Local Unit).run := by
      unfold release
      infer_instance
    exact (released.same { m with pending := (m.pending.store handle).2 }).trans stored

end Handles

/-- A rule under which the bridge may put values behind handles. -/
class AllowsHandles (rule : Rule Machine) : Prop extends AllowsPlain rule where
  allocate : ∀ value, rule.Allows (allocate value).run

/-- A rule under which the bridge may also work with the slot for exceptions. -/
class AllowsSlot (rule : Rule Machine) : Prop extends AllowsHandles rule where
  park : ∀ exception, rule.Allows (park exception).run
  takePending : rule.Allows takePending
  reset : rule.Allows reset

/-- A rule under which handles may be taken from whoever owned them. -/
class AllowsTaking (rule : Rule Machine) : Prop extends AllowsSlot rule where
  take : ∀ handle, rule.Allows (take handle).run

theorem AllowsTaking.of_keeping {rule : Rule Machine} [AllowsPlain rule] {part : Machine → τ}
    [ignoring : IgnoresHandles part]
    (allows : ∀ {α : Type} {work : StateM Machine α}, Keeps part work → rule.Allows work)
    (resets : Keeps part reset) : AllowsTaking rule where
  plain := AllowsPlain.plain
  allocate value := allows (keeps_allocate value)
  park exception := allows (keeps_park exception)
  takePending := allows (.of_modifyGet fun m =>
    ignoring.ignores m m.table m.pending.take.2 m.journal)
  reset := allows resets
  take handle := allows (keeps_take handle)

section Rules

variable {rule : Rule Machine}

instance {work : StateM Machine α} [AllowsAside rule] [keeps : Keeps frame work] :
    Follows rule work :=
  ⟨AllowsAside.aside keeps⟩

instance {work : StateM Machine α} [AllowsPlain rule] [follows : Follows plain work] :
    Follows rule work :=
  ⟨AllowsPlain.plain follows⟩

instance {work : Store.Build α} [AllowsPlain rule] [Follows Store.extending work] :
    Follows rule (construct work).run := by
  unfold construct
  infer_instance

variable [AllowsHandles rule]

instance (value : Value) : Follows rule (allocate value).run :=
  ⟨AllowsHandles.allocate value⟩

instance (value : Value) : Follows rule (allocateOptional value).run := by
  unfold allocateOptional
  infer_instance

instance (handle : Handle) : Follows rule (duplicate handle).run := by
  unfold duplicate
  infer_instance

end Rules

section Slot

variable {rule : Rule Machine} [AllowsSlot rule]

instance (exception : Value) : Follows rule (park exception).run :=
  ⟨AllowsSlot.park exception⟩

instance : Follows rule takePending :=
  ⟨AllowsSlot.takePending⟩

instance : Follows rule reset :=
  ⟨AllowsSlot.reset⟩

end Slot

section Taking

variable {rule : Rule Machine} [AllowsTaking rule]

instance (handle : Handle) : Follows rule (take handle).run :=
  ⟨AllowsTaking.take handle⟩

instance (handle : Handle) : Follows rule (release handle).run := by
  unfold release
  infer_instance

instance (handles : List Handle) : Follows rule (releaseAll handles).run := by
  induction handles with
  | nil =>
    unfold releaseAll
    infer_instance
  | cons handle rest ih =>
    unfold releaseAll
    infer_instance

instance (placed : List Handle) (args : List Value) :
    Follows rule (allocateAll placed args).run := by
  induction args generalizing placed with
  | nil =>
    unfold allocateAll
    infer_instance
  | cons arg rest ih =>
    unfold allocateAll
    apply Follows.bind inferInstance
    intro result
    split <;> infer_instance

end Taking

end Machine

/-! Imports that call nobody. -/

namespace Adapter

open Machine

section Plain

variable {rule : Rule Machine} [AllowsPlain rule]

instance (handle : Handle) : Follows rule (numberGet handle).run := by
  unfold numberGet
  infer_instance

instance (handle : Handle) : Follows rule (boolGet handle).run := by
  unfold boolGet
  apply Follows.bind inferInstance
  intro value
  split <;> infer_instance

instance (handle : Handle) : Follows rule (methodArguments handle).run := by
  unfold methodArguments
  apply Follows.bind inferInstance
  intro found
  split
  next => infer_instance
  next =>
    dsimp only
    infer_instance
  next => infer_instance

variable [AllowsGuest rule]

instance (slot : Nat) (handle : Handle) : Follows rule (stringGet slot handle).run := by
  unfold stringGet
  infer_instance

instance (start length : Nat) : Follows rule (raise start length).run := by
  unfold raise
  have (message : String) :
      Follows plain (modify ({ · with lastThrow := some message }) : Local PUnit).run :=
    ⟨fun _ => ⟨rfl, .refl _⟩⟩
  infer_instance

instance (start length : Nat) : Follows rule (logInfo start length).run := by
  unfold logInfo
  infer_instance

instance (start length : Nat) : Follows rule (logError start length).run := by
  unfold logError
  infer_instance

instance (handle : Handle) (start length : Nat) :
    Follows rule (instanceOf handle start length).run := by
  unfold instanceOf
  infer_instance

end Plain

section Rules

variable {rule : Rule Machine} [AllowsHandles rule]

instance [AllowsGuest rule] (start length : Nat) : Follows rule (stringNew start length).run := by
  unfold stringNew
  infer_instance

instance (x : Float) : Follows rule (numberNew x).run := by
  unfold numberNew
  infer_instance

instance : Follows rule global.run := by
  unfold global
  infer_instance

instance : Follows rule objectNew.run := by
  unfold objectNew
  infer_instance

instance (length : Nat) : Follows rule (arrayNew length).run := by
  unfold arrayNew
  infer_instance

end Rules

instance {rule : Rule Machine} [AllowsSlot rule] : Follows rule exnTake := by
  unfold exnTake
  infer_instance

instance {rule : Rule Machine} [AllowsTaking rule] (array : Handle) (index : Position)
    (value : Handle) : Follows rule (arraySet array index value).run := by
  unfold arraySet
  apply Follows.bind inferInstance
  intro found
  split
  next id =>
    have (element : Value) : Follows plain (modifyStore (·.setElement id index element)) :=
      plain_modifyStore (fun _ => rfl) fun _ => rfl
    infer_instance
  next => infer_instance

end Adapter

end SandboxBridge

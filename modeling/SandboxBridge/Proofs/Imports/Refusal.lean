import SandboxBridge.Proofs.Frame
import SandboxBridge.Proofs.Imports.Demands

/-!
An import is refused for the first of its demands that is not met, before it calls anyone and before
anything has changed but the log and the bridge's view of the memory. `error` has the memory of its
message freed all the same. Words past those that an import reads do not matter.
-/

namespace SandboxBridge

open Machine

variable {α β : Type} {args : List Word} {d : Demand} {ds : List Demand}

theorem findSome?_refusal {m m₁ : Machine} {e : Error} (untouched : m.Untouched m₁)
    (refused : (d :: ds).findSome? (·.refusal m args) = some e) :
    d.refusal m args = some e ∨
      d.refusal m args = none ∧ ds.findSome? (·.refusal m₁ args) = some e := by
  simp only [untouched.refusal_eq]
  rw [List.findSome?_cons] at refused
  cases first : d.refusal m args with
  | some reason =>
    rw [first] at refused
    exact .inl refused
  | none =>
    rw [first] at refused
    exact .inr ⟨rfl, refused⟩

/-- Work that checks the first demand is refused for it, or the first that is refused comes later. -/
theorem Machine.Checks.decides {work : Local α} (checks : Checks args d work) {m : Machine} {e : Error}
    (refused : (d :: ds).findSome? (·.refusal m args) = some e) : ∃ m₁, m.Untouched m₁ ∧
      (work.run m = (.error e, m₁) ∨ ∃ value, work.run m = (.ok value, m₁) ∧
        ds.findSome? (·.refusal m₁ args) = some e) := by
  obtain ⟨untouched, same⟩ := checks m
  revert untouched same
  rcases work.run m with ⟨reason | value, m₁⟩ <;> intro untouched same <;>
    rcases findSome?_refusal untouched refused with first | ⟨met, later⟩
  · obtain rfl : reason = e := Option.some.inj (same.trans first)
    exact ⟨m₁, untouched, .inl rfl⟩
  · cases same.trans met
  · cases same.trans first
  · exact ⟨m₁, untouched, .inr ⟨value, rfl, later⟩⟩

namespace Local

/-- The work is refused for the first demand that is not met. -/
def Refuses (args : List Word) (ds : List Demand) (work : Local α) : Prop :=
  ∀ m e, ds.findSome? (·.refusal m args) = some e →
    ∃ m', work.run m = (.error e, m') ∧ m.Untouched m'

theorem Refuses.met (work : Local α) : Refuses args [] work :=
  fun _ _ refused => nomatch refused

theorem Refuses.check {work : Local α} {next : α → Local β} (checks : Checks args d work)
    (rest : ∀ value, Refuses args ds (next value)) : Refuses args (d :: ds) (work >>= next) := by
  intro m e refused
  rw [Work.run_bind]
  obtain ⟨m₁, untouched, ran | ⟨value, ran, later⟩⟩ := checks.decides refused
  · rw [ran]
    exact ⟨m₁, rfl, untouched⟩
  · rw [ran]
    obtain ⟨m', ran, after⟩ := rest value m₁ e later
    exact ⟨m', ran, untouched.trans after⟩

end Local

namespace Op

@[inherit_doc Local.Refuses]
def Refuses (args : List Word) (ds : List Demand) (work : Op α) : Prop :=
  ∀ m e, ds.findSome? (·.refusal m args) = some e →
    ∃ m', work.run m = .done (.error e) m' ∧ m.Untouched m'

namespace Refuses

theorem met (work : Op α) : Refuses args [] work :=
  fun _ _ refused => nomatch refused

theorem quiet {work : Local α} (refuses : work.Refuses args ds) :
    Refuses args ds (liftM work : Op α) := by
  intro m e refused
  obtain ⟨m', ran, untouched⟩ := refuses m e refused
  refine ⟨m', ?_, untouched⟩
  change Run.ofState work.run m = _
  unfold Run.ofState
  exact congrArg (fun done : Except Error α × Machine => Task.done done.1 done.2) ran

theorem andThen {work : Op α} {next : α → Op β} (refuses : Refuses args ds work) :
    Refuses args ds (work >>= next) := by
  intro m e refused
  obtain ⟨m', ran, untouched⟩ := refuses m e refused
  refine ⟨m', ?_, untouched⟩
  change (work.run m).bind _ = _
  rw [ran]
  rfl

theorem check {work : Local α} {next : α → Op β} (checks : Checks args d work)
    (rest : ∀ value, Refuses args ds (next value)) :
    Refuses args (d :: ds) (liftM work >>= next : Op β) := by
  intro m e refused
  rw [run_local_bind]
  obtain ⟨m₁, untouched, ran | ⟨value, ran, later⟩⟩ := checks.decides refused
  · rw [ran]
    exact ⟨m₁, rfl, untouched⟩
  · rw [ran]
    obtain ⟨m', ran, after⟩ := rest value m₁ e later
    exact ⟨m', ran, untouched.trans after⟩

theorem read {result : Except Error α} {next : α → Op β}
    (same : ∀ m, failure result = d.refusal m args)
    (rest : ∀ value, result = .ok value → Refuses args ds (next value)) :
    Refuses args (d :: ds) (liftM result >>= next : Op β) := by
  intro m e refused
  have decides := findSome?_refusal (.refl m) refused
  rw [← same m] at decides
  cases result with
  | error reason =>
    rcases decides with first | ⟨met, _⟩
    · obtain rfl : reason = e := Option.some.inj first
      exact ⟨m, rfl, .refl m⟩
    · cases met
  | ok value =>
    rcases decides with first | ⟨_, later⟩
    · cases first
    · exact rest value rfl m e later

theorem word {index : Nat} {next : UInt32 → Op β}
    (rest : ∀ value, Refuses args ds (next value)) :
    Refuses args (.word index :: ds) (liftM (Word.argUInt32 args index) >>= next : Op β) :=
  read (fun _ => rfl) fun value _ => rest value

theorem number {index : Nat} {next : Nat → Op β}
    (rest : ∀ value, Adapter.number args index = .ok value → Refuses args ds (next value)) :
    Refuses args (.word index :: ds) (liftM (Adapter.number args index) >>= next : Op β) :=
  read (fun _ => failure_map _ _) rest

theorem position {index : Nat} {next : Position → Op β}
    (rest : ∀ value, Refuses args ds (next value)) :
    Refuses args (.word index :: ds) (liftM (Adapter.position args index) >>= next : Op β) :=
  read (fun _ => failure_map _ _) fun value _ => rest value

theorem handle {index : Nat} {next : Handle → Op β}
    (rest : ∀ value, Adapter.handle args index = .ok value → Refuses args ds (next value)) :
    Refuses args (.word index :: ds) (liftM (Adapter.handle args index) >>= next : Op β) :=
  read (fun _ => failure_map _ _) rest

end Refuses

end Op

namespace Adapter

open Local.Refuses

theorem arraySet_refuses {array value : Handle} {index : Position}
    (readArray : handle args 0 = .ok array) (readValue : handle args 2 = .ok value) :
    (arraySet array index value).Refuses args [.object 0, .owned 2] := by
  intro m e refused
  unfold arraySet
  simp only [Work.run_bind, object, Work.run_get, Work.run_liftExcept, take]
  simp only [List.findSome?_cons, List.findSome?_nil, Demand.refusal, Demand.value, readArray,
    readValue, bind, Except.bind] at refused
  cases found : m.table.get array with
  | error reason =>
    simp only [found, failure, Option.some.injEq] at refused
    exact ⟨m, by rw [refused], .refl m⟩
  | ok target =>
    rw [found] at refused
    cases target with
    | object id =>
      simp only [Work.run_bind, Work.run_get, Work.run_liftExcept]
      cases claimed : m.table.claim value with
      | error reason =>
        simp only [claimed, failure, pure, Except.pure, Option.some.injEq] at refused
        exact ⟨m, by rw [refused], .refl m⟩
      | ok element => simp [claimed, failure, pure, Except.pure] at refused
    | _ =>
      cases refused
      exact ⟨m, rfl, .refl m⟩

theorem cbDrop_refuses {closure : Handle} (read : handle args 0 = .ok closure) :
    (cbDrop closure).Refuses args [.closure 0] := by
  intro m e refused
  unfold cbDrop
  rw [Op.run_local_bind]
  simp only [List.findSome?_cons, List.findSome?_nil, Demand.refusal, Demand.value, read,
    bind, Except.bind] at refused
  simp only [object, Work.run_bind, Work.run_get, Work.run_liftExcept]
  cases found : m.table.get closure with
  | error reason =>
    simp only [found, failure, Option.some.injEq] at refused
    exact ⟨m, by rw [refused], .refl m⟩
  | ok value =>
    rw [found] at refused
    rcases value with _ | _ | _ | _ | _ | _ | native | closure
    case function.closure => cases refused
    all_goals
      cases refused
      exact ⟨m, rfl, .refl m⟩

theorem release_refuses {handle : Handle} (read : Adapter.handle args 0 = .ok handle) :
    (release handle).Refuses args [.owned 0] := by
  intro m e refused
  simp only [List.findSome?_cons, List.findSome?_nil, Demand.refusal, read, bind,
    Except.bind] at refused
  simp only [release, take, Work.run_bind, Work.run_get, Work.run_liftExcept]
  cases claimed : m.table.claim handle with
  | error reason =>
    simp only [claimed, failure, Option.some.injEq] at refused
    exact ⟨m, by rw [refused], .refl m⟩
  | ok value => simp [claimed, failure] at refused

open Op.Refuses in
/-- Whatever an import does, it looks at its arguments first, and at all of them. -/
theorem run_refuses (i : Import) (logs : i ≠ .error) (reflects : i ≠ .reflectSet) :
    (run args i).Refuses args i.demands := by
  -- Every case is the order in which the adapter looks at its arguments: all the words first, then what
  -- stands behind handles and in memory.
  cases i with
  | error => exact absurd rfl logs
  | reflectSet => exact absurd rfl reflects
  | numberNew => exact .read (fun _ => rfl) fun _ _ => .met _
  | exnTake | global | objectNew => exact .met _
  | arrayNew => exact .number fun _ _ => .met _
  | closureWrapper => exact .word fun _ => .word fun _ => .word fun _ => .word fun _ => .met _
  | numberGet | boolGet | objectCloneRef =>
    exact .handle fun _ value =>
      .andThen (.quiet (.check (checks_object value) fun _ => .met _))
  | isUndefined | isNull | isObject | isFunction =>
    exact .handle fun _ value => .check (checks_object value) fun _ => .met _
  | stringGet =>
    exact .number fun _ _ => .handle fun _ value =>
      .andThen (.quiet (.check (checks_object value) fun _ => .met _))
  | debugString =>
    exact .number fun _ _ => .handle fun _ value =>
      .andThen (.check (checks_object value) fun _ => .met _)
  | stringNew | log =>
    exact .number fun _ start => .number fun _ length =>
      .andThen (.quiet (.check (checks_decode start length) fun _ => .met _))
  | throw =>
    exact .number fun _ start => .number fun _ length =>
      .quiet (.check (checks_decode start length) fun _ => .met _)
  | objectDropRef => exact .handle fun _ value => .andThen (.quiet (release_refuses value))
  | cbDrop => exact .handle fun _ closure => .andThen (cbDrop_refuses closure)
  | arraySet =>
    exact .handle fun _ array => .position fun _ => .handle fun _ value =>
      .andThen (.quiet (arraySet_refuses array value))
  | instanceOf =>
    exact .handle fun _ value => .number fun _ start => .number fun _ length =>
      .andThen (.quiet (.check (checks_object value) fun _ =>
        .check (checks_decode start length) fun _ => .met _))
  | getProperty =>
    exact .handle fun _ target => .number fun _ start => .number fun _ length =>
      .andThen (.check (checks_object target) fun _ =>
        .check (checks_decode start length) fun _ => .met _)
  | setProperty | addEventListener =>
    exact .handle fun _ target => .number fun _ start => .number fun _ length =>
      .handle fun _ value =>
        .andThen (.check (checks_object target) fun _ =>
          .check (checks_decode start length) fun _ => .check (checks_object value) fun _ => .met _)
  | call | dispatchEvent =>
    exact .handle fun _ first => .handle fun _ second =>
      .andThen (.check (checks_object first) fun _ => .check (checks_object second) fun _ => .met _)
  | callMethod =>
    exact .handle fun _ target => .number fun _ start => .number fun _ length =>
      .handle fun _ list =>
        .andThen (.check (checks_object target) fun _ =>
          .check (checks_decode start length) fun _ =>
            .check (checks_methodArguments list) fun _ => .met _)
  | customEventNew =>
    exact .number fun _ start => .number fun _ length => .handle fun _ init =>
      .andThen (.check (checks_decode start length) fun _ =>
        .check (checks_object init) fun _ => .met _)
  | storageGetItem =>
    exact .number fun _ _ => .handle fun _ storage => .number fun _ start => .number fun _ length =>
      .andThen (.check (checks_object storage) fun _ =>
        .check (checks_decode start length) fun _ => .met _)
  | storageSetItem =>
    exact .handle fun _ storage => .number fun _ keyStart => .number fun _ keyLength =>
      .number fun _ start => .number fun _ length =>
        .andThen (.check (checks_object storage) fun _ =>
          .check (checks_decode keyStart keyLength) fun _ =>
            .check (checks_decode start length) fun _ => .met _)

end Adapter

/-- `reflect_set` has all that it asks of its target and its key, but the key is an array or an error
inside itself. The text of such a key has no end, and the value is never looked at. -/
def Import.Unshown (m : Machine) (args : List Word) (i : Import) : Prop :=
  i = .reflectSet ∧
    (∀ d ∈ [Demand.word 0, .word 1, .word 2, .live 0, .live 1], d.refusal m args = none) ∧
    ∃ key, Demand.value m args 1 = .ok key ∧ m.store.display? key = none

namespace Adapter

/-! `reflect_set`, which needs a text for its key before it looks at its value. -/

open Op.Refuses in
theorem reflectSet_refuses :
    (run args .reflectSet).Refuses args [.word 0, .word 1, .word 2, .live 0, .live 1] :=
  .handle fun _ target => .handle fun _ key => .handle fun _ _ =>
    .andThen (.check (checks_object target) fun _ => .check (checks_object key) fun _ => .met _)

theorem handle_of_met {m : Machine} {index : Nat} (met : (Demand.word index).refusal m args = none) :
    ∃ h, handle args index = .ok h := by
  change failure (Word.argUInt32 args index) = none at met
  unfold handle
  cases read : Word.argUInt32 args index with
  | error reason =>
    rw [read] at met
    cases met
  | ok value => exact ⟨.ofWord value, rfl⟩

theorem value_of_met {m : Machine} {index : Nat} {h : Handle} (read : handle args index = .ok h)
    (met : (Demand.live index).refusal m args = none) : ∃ value, m.table.get h = .ok value := by
  simp only [Demand.refusal, Demand.value, read, bind, Except.bind] at met
  cases found : m.table.get h with
  | error reason =>
    rw [found] at met
    cases met
  | ok value => exact ⟨value, rfl⟩

theorem run_reflectSet {m : Machine} {target key value : Handle} {owner name : Value}
    (readTarget : handle args 0 = .ok target) (readKey : handle args 1 = .ok key)
    (readValue : handle args 2 = .ok value) (found : m.table.get target = .ok owner)
    (named : m.table.get key = .ok name) (e : Error) (dead : m.table.get value = .error e) :
    (run args .reflectSet).run m =
      (m.store.display? name).elim .abort fun _ => .done (.error e) m := by
  have looked {h : Handle} {result : Except Error Value} (found : m.table.get h = result) :
      (object h).run m = (result, m) := by
    rw [← found]
    rfl
  unfold run
  rw [readTarget, readKey, readValue]
  change (reflectSet target key value >>= fun flag => pure (flagResult flag) :
    Op (List Word)).run m = _
  unfold reflectSet
  rw [bind_assoc, Op.run_local_bind, looked found]
  dsimp only
  rw [bind_assoc, Op.run_local_bind, looked named]
  dsimp only
  rw [bind_assoc, Op.run_displayed_bind]
  cases m.store.display? name with
  | none => rfl
  | some text =>
    dsimp only
    rw [bind_assoc, Op.run_local_bind, looked dead]
    rfl

theorem reflectSet_refused {m : Machine} {e : Error}
    (refused : Import.reflectSet.refusal m args = some e) :
    (∃ m', (run args .reflectSet).run m = .done (.error e) m' ∧ m.Untouched m') ∨
      Import.reflectSet.Unshown m args ∧ (run args .reflectSet).run m = .abort := by
  change ([Demand.word 0, .word 1, .word 2, .live 0, .live 1] ++ [Demand.live 2]).findSome? _ = _
    at refused
  rw [List.findSome?_append] at refused
  cases early : [Demand.word 0, .word 1, .word 2, .live 0, .live 1].findSome?
      (·.refusal m args) with
  | some reason =>
    rw [early] at refused
    obtain rfl : reason = e := Option.some.inj refused
    exact .inl (reflectSet_refuses m reason early)
  | none =>
    rw [early] at refused
    have met := List.findSome?_eq_none_iff.mp early
    obtain ⟨target, readTarget⟩ := handle_of_met (met (.word 0) (by simp))
    obtain ⟨key, readKey⟩ := handle_of_met (met (.word 1) (by simp))
    obtain ⟨value, readValue⟩ := handle_of_met (met (.word 2) (by simp))
    obtain ⟨owner, found⟩ := value_of_met readTarget (met (.live 0) (by simp))
    obtain ⟨name, named⟩ := value_of_met readKey (met (.live 1) (by simp))
    have dead : m.table.get value = .error e := by
      rcases findSome?_refusal (.refl m) refused with dead | ⟨-, ⟨⟩⟩
      simp only [Demand.refusal, Demand.value, readValue, bind, Except.bind] at dead
      exact error_of_failure dead
    have ran := run_reflectSet readTarget readKey readValue found named e dead
    cases shown : m.store.display? name with
    | some text =>
      rw [shown] at ran
      exact .inl ⟨m, ran, .refl m⟩
    | none =>
      rw [shown] at ran
      refine .inr ⟨⟨rfl, met, name, ?_, shown⟩, ran⟩
      simp only [Demand.value, readKey, bind, Except.bind, named]

end Adapter

/-- A block of the module's has been freed, and nothing else has happened but for the log and the
bridge's view of the memory. What freeing does to the memory is up to the module; its own allocator
only counts it. -/
structure Machine.Freed (start length : Nat) (m m' : Machine) : Prop where
  table : m'.table = m.table
  pending : m'.pending = m.pending
  lastThrow : m'.lastThrow = m.lastThrow
  store : m'.store = m.store
  calls : ∃ result, m'.guest.calls = m.guest.calls.push ⟨.free, [start, length], result⟩
  counted : m.guest.overrides .free = [] →
    m'.guest.allocator = { m.guest.allocator with frees := m.guest.allocator.frees + 1 } ∧
    m'.memory.buffers = m.memory.buffers ∧ m'.memory.current = m.memory.current ∧
    m'.memory.pages = m.memory.pages

namespace Machine

open Work

def hostSide (m : Machine) : HandleTable × ExceptionSlot × Option String × Store :=
  (m.table, m.pending, m.lastThrow, m.store)

instance : IgnoresGuest hostSide where
  ignores _ _ _ _ := rfl
  guest _ _ := rfl

def allocatorCalls (m : Machine) : Array AllocatorCall :=
  m.guest.calls

instance : IgnoresMemory allocatorCalls :=
  ⟨fun _ _ _ _ => rfl⟩

instance (entry : AllocatorEntry) : Keeps allocatorCalls (nextOverride entry) := by
  refine .of_modifyGet fun m => ?_
  split <;> rfl

instance {entry : AllocatorEntry} {work : Local Nat} [Keeps allocatorCalls work.run] :
    Keeps allocatorCalls (answering entry work).run := by
  unfold answering
  infer_instance

theorem calls_callAllocator (entry : AllocatorEntry) (args : List Nat) {work : Local Nat}
    [Keeps allocatorCalls work.run] (m : Machine) : ∃ result,
    ((callAllocator entry args work).run m).2.allocatorCalls =
      m.allocatorCalls.push ⟨entry, args, result⟩ := by
  have looked : Keeps allocatorCalls (nextOverride entry) := inferInstance
  have answered (next : Override) : Keeps allocatorCalls (answering entry (overridden work next)).run :=
    inferInstance
  rw [run_callAllocator, ← looked.same m]
  generalize (nextOverride entry).run m = found
  obtain ⟨next, m₁⟩ := found
  refine ⟨((answering entry (overridden work next)).run m₁).1, ?_⟩
  exact congrArg (Array.push · _) ((answered next).same m₁)

def freeing (start size : Nat) : Local Nat := do
  onAllocator Allocator.free
  note .trace LogTarget.guest s!"native module: free({start}, {size})"
  return 0

theorem run_free_snd (start size : Nat) (m : Machine) :
    ((free start size).run m).2 =
      ((callAllocator .free [start, size] (freeing start size)).run m).2 := by
  change ((callAllocator .free [start, size] (freeing start size) >>= fun _ => pure () :
    Local Unit).run m).2 = _
  rw [run_bind]
  rcases (callAllocator .free [start, size] (freeing start size)).run m with ⟨_ | _, _⟩ <;> rfl

theorem freed_free (start length : Nat) (m : Machine) :
    m.Freed start length ((free start length).run m).2 := by
  have kept : Keeps hostSide (free start length).run := inferInstance
  have same := kept.same m
  simp only [hostSide, Prod.mk.injEq] at same
  obtain ⟨table, pending, lastThrow, store⟩ := same
  refine ⟨table, pending, lastThrow, store, ?_, fun normal => ?_⟩
  · rw [run_free_snd]
    have : Keeps allocatorCalls (freeing start length).run := by
      unfold freeing
      infer_instance
    exact calls_callAllocator .free [start, length] m
  · obtain ⟨journal, ran⟩ := run_onAllocator Allocator.free m
    rw [run_free_snd, run_callAllocator_normal _ _ normal, answering, freeing]
    simp only [run_bind, ran]
    exact ⟨rfl, rfl, rfl, rfl⟩

theorem Untouched.freed {m m₁ m₂ : Machine} {start length : Nat} (untouched : m.Untouched m₁)
    (freed : m₁.Freed start length m₂) : m.Freed start length m₂ where
  table := freed.table.trans untouched.table
  pending := freed.pending.trans untouched.pending
  lastThrow := freed.lastThrow.trans untouched.lastThrow
  store := freed.store.trans untouched.store
  calls := untouched.guest ▸ freed.calls
  counted normal := by
    obtain ⟨allocator, buffers, current, pages⟩ := freed.counted (untouched.guest ▸ normal)
    exact ⟨untouched.guest ▸ allocator, buffers.trans untouched.buffers,
      current.trans untouched.current, pages.trans untouched.pages⟩

end Machine

/-- What a refusal leaves behind. -/
def Import.Aftermath (args : List Word) (i : Import) (m m' : Machine) : Prop :=
  match i, Adapter.number args 0, Adapter.number args 1 with
  | .error, .ok start, .ok length => m.Freed start length m'
  | _, _, _ => m.Untouched m'

theorem Import.aftermath_of_untouched {i : Import} (other : i ≠ .error) {m m' : Machine}
    (untouched : m.Untouched m') : i.Aftermath args m m' := by
  cases i with
  | error => exact absurd rfl other
  | _ => exact untouched

theorem Machine.Untouched.unshown {m m₁ : Machine} (untouched : m.Untouched m₁) {i : Import}
    (unshown : i.Unshown m₁ args) : i.Unshown m args := by
  obtain ⟨reflects, met, key, named, endless⟩ := unshown
  refine ⟨reflects, fun d member => ?_, key, ?_, ?_⟩
  · rw [← untouched.refusal_eq]
    exact met d member
  · rw [← named, Demand.value, Demand.value, untouched.table]
  · rw [← endless, untouched.store]

theorem Machine.Untouched.aftermath {m m₁ m₂ : Machine} (untouched : m.Untouched m₁) {i : Import}
    (later : i.Aftermath args m₁ m₂) : i.Aftermath args m m₂ := by
  cases i with
  | error =>
    unfold Import.Aftermath at later ⊢
    revert later
    cases Adapter.number args 0 with
    | error e => exact untouched.trans
    | ok start =>
      cases Adapter.number args 1 with
      | error e => exact untouched.trans
      | ok length => exact untouched.freed
  | _ => exact untouched.trans later

namespace Adapter

theorem number_of_refusal {m : Machine} {index : Nat} {e : Error}
    (refused : (Demand.word index).refusal m args = some e) : number args index = .error e :=
  error_of_failure ((failure_map _ _).trans refused)

theorem number_of_met {m : Machine} {index : Nat} (met : (Demand.word index).refusal m args = none) :
    ∃ value, number args index = .ok value := by
  change failure (Word.argUInt32 args index) = none at met
  unfold number
  cases read : Word.argUInt32 args index with
  | error reason =>
    rw [read] at met
    cases met
  | ok value => exact ⟨value.toNat, rfl⟩

theorem run_logError {start length : Nat} {m : Machine} {e : Error}
    (unread : m.memory.text start length = .error e) :
    ∃ m', (logError start length).run m = (.error e, m') ∧ m.Freed start length m' := by
  obtain ⟨untouched, text⟩ := run_decode start length m
  rw [unread] at text
  refine ⟨((free start length).run ((decode start length).run m).2).2, ?_,
    untouched.freed (freed_free start length _)⟩
  have logged : (do logModule .error (← decode start length) : Local Unit).run m =
      (.error e, ((decode start length).run m).2) := by
    rw [Work.run_bind]
    generalize (decode start length).run m = decoded at text
    obtain ⟨_, m₁⟩ := decoded
    subst text
    rfl
  unfold logError
  rw [Work.run_bind, run_settle, logged]
  rfl

theorem run_error {m : Machine} {e : Error} (refused : Import.error.refusal m args = some e) :
    ∃ m', (run args .error).run m = .done (.error e) m' ∧ Import.error.Aftermath args m m' := by
  unfold Import.Aftermath run
  rcases findSome?_refusal (.refl m) refused with unread | ⟨start, refused⟩
  · have unread : number args 0 = .error e := number_of_refusal unread
    rw [unread]
    exact ⟨m, rfl, .refl m⟩
  obtain ⟨start, readStart⟩ := number_of_met start
  rw [readStart]
  rcases findSome?_refusal (.refl m) refused with unread | ⟨length, refused⟩
  · have unread : number args 1 = .error e := number_of_refusal unread
    rw [unread]
    exact ⟨m, rfl, .refl m⟩
  obtain ⟨length, readLength⟩ := number_of_met length
  rw [readLength]
  have unread : m.memory.text start length = .error e := by
    rcases findSome?_refusal (.refl m) refused with unread | ⟨_, refused⟩
    · simp only [Demand.refusal, readStart, readLength, bind, Except.bind] at unread
      exact error_of_failure unread
    · cases refused
  obtain ⟨m', ran, freed⟩ := run_logError unread
  refine ⟨m', ?_, freed⟩
  change ((liftM (logError start length) : Op Unit) >>= fun _ => pure [] : Op (List Word)).run m = _
  rw [Op.run_local_bind, ran]

theorem run_refused {m : Machine} {i : Import} {e : Error} (refused : i.refusal m args = some e) :
    (∃ m', (run args i).run m = .done (.error e) m' ∧ i.Aftermath args m m') ∨
      i.Unshown m args ∧ (run args i).run m = .abort := by
  by_cases logs : i = .error
  · subst logs
    exact .inl (run_error refused)
  by_cases reflects : i = .reflectSet
  · subst reflects
    exact reflectSet_refused refused
  · obtain ⟨m', ran, untouched⟩ := run_refuses i logs reflects m e refused
    exact .inl ⟨m', ran, i.aftermath_of_untouched logs untouched⟩

/-! Words past those that an import reads. -/

theorem argUInt32_take {index count : Nat} (read : index < count) :
    Word.argUInt32 (args.take count) index = Word.argUInt32 args index := by
  rw [Word.argUInt32, List.getElem?_take_of_lt read, Word.argUInt32]

theorem argFloat_take {index count : Nat} (read : index < count) :
    Word.argFloat (args.take count) index = Word.argFloat args index := by
  rw [Word.argFloat, List.getElem?_take_of_lt read, Word.argFloat]

theorem run_take (args : List Word) (i : Import) : run (args.take i.arity) i = run args i := by
  cases i <;> simp (disch := decide) only [run, number, position, handle, argUInt32_take, argFloat_take]

end Adapter

def Machine.noting (m : Machine) (name : String) : Machine :=
  { m with
    journal := m.journal.note .trace LogTarget.registry
      s!"import {Registry.key m.settings.importModule name}" }

variable {m : Machine}

theorem Machine.untouched_noting (m : Machine) (name : String) : m.Untouched (m.noting name) :=
  ⟨rfl, rfl, rfl, rfl, rfl, rfl, rfl, rfl⟩

theorem run_callImport_noting {name : String} {i : Import}
    (registered : m.imports.find? m.settings.importModule name = some (.adapter i))
    (args : List Word) : (callImport name args).run m = (Adapter.run args i).run (m.noting name) := by
  unfold callImport Registry.callOn Registry.call
  rw [Op.run_get_bind, registered]
  rfl

theorem run_callImport (offers : m.OffersImports) (args : List Word) (i : Import) :
    ∃ journal, (callImport i.name args).run m = (Adapter.run args i).run { m with journal } :=
  ⟨_, run_callImport_noting (offers i) args⟩

/-- An import fails for the first of its demands that its arguments do not meet, and then nothing
has happened, but that `error` gives the memory of its message back. Only `reflect_set` may come to
no end before it finds that its value is dead. Words past those that it reads do not matter. -/
theorem callImport_refused (offers : m.OffersImports) (args : List Word) (i : Import) :
    (callImport i.name (args.take i.arity)).run m = (callImport i.name args).run m ∧
    ∀ d ∈ i.demands, d.refusal m args ≠ none →
      (∃ e m', i.refusal m args = some e ∧ (callImport i.name args).run m = .done (.error e) m' ∧
        i.Aftermath args m m') ∨
      i.Unshown m args ∧ (callImport i.name args).run m = .abort := by
  constructor
  · have same := Adapter.run_take args i
    unfold callImport Registry.callOn Registry.call
    rw [Op.run_get_bind, Op.run_get_bind, offers i]
    dsimp only [Handler.run]
    rw [same]
  · intro d demanded unmet
    obtain ⟨reason, unmet⟩ := Option.ne_none_iff_exists'.mp unmet
    obtain ⟨e, refused⟩ : ∃ e, i.refusal m args = some e :=
      Option.isSome_iff_exists.mp
        (List.findSome?_isSome_iff.mpr ⟨d, demanded, by rw [unmet]; rfl⟩)
    obtain ⟨journal, called⟩ := run_callImport offers args i
    have noted : m.Untouched { m with journal } := ⟨rfl, rfl, rfl, rfl, rfl, rfl, rfl, rfl⟩
    rcases Adapter.run_refused ((i.refusal_eq noted args).trans refused) with
      ⟨m', ran, aftermath⟩ | ⟨unshown, ran⟩
    · exact .inl ⟨e, m', refused, called.trans ran, noted.aftermath aftermath⟩
    · exact .inr ⟨noted.unshown unshown, called.trans ran⟩

/-- A message outside the memory is not logged, but freed. -/
theorem callImport_refused_message :
    ∃ m m' : Machine, m.OffersImports ∧ (Demand.text 0 1).refusal m [.i32 5, .i32 3] ≠ none ∧
      (callImport "error" [.i32 5, .i32 3]).run m = .done (.error .outOfBounds) m' ∧
      m.Freed 5 3 m' := by
  have offers : (bare {} (.ofBytes .empty) {} {} ⟨0⟩).OffersImports :=
    Registry.empty.find?_registerImports _
  have refused : Import.error.refusal (bare {} (.ofBytes .empty) {} {} ⟨0⟩) [.i32 5, .i32 3] =
    some .outOfBounds := by
    rfl
  have unread : (Demand.text 0 1).refusal (bare {} (.ofBytes .empty) {} {} ⟨0⟩)
      [.i32 5, .i32 3] ≠ none := by
    rintro ⟨⟩
  obtain ⟨e, m', reason, ran, freed⟩ | ⟨⟨⟨⟩, -⟩, -⟩ :=
    (callImport_refused offers [.i32 5, .i32 3] .error).2 (.text 0 1) (.tail _ (.tail _ (.head _)))
      unread
  obtain rfl : e = .outOfBounds := Option.some.inj (reason.symm.trans refused)
  exact ⟨_, m', offers, unread, ran, freed⟩

end SandboxBridge

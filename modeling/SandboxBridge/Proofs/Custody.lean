import SandboxBridge.Proofs.Discipline.Requests
import SandboxBridge.Proofs.HandleTable.Exchange

/-!
Work of a machine with handles: what storing, taking and parking do to the table and to the slot for
exceptions, and that nothing else touches either.
-/

namespace SandboxBridge.Machine

open Work

variable {α : Type} {m : Machine} {h : Handle} {value : Value} {e : Error}

/-- Whatever handles are kept in, and what imports are looked up by. -/
def custody (m : Machine) : HandleTable × ExceptionSlot × Settings × Registry Handler :=
  (m.table, m.pending, m.settings, m.imports)

theorem keeps_custody {work : StateM Machine α} (keeps : Keeps core work) : Keeps custody work :=
  ⟨fun m => congrArg (fun core => (core.1, core.2.1, core.2.2.2)) (keeps.same m)⟩

/-- The same together with the memory, the module's side, what functions do, and all that listens
and is stored. -/
def holdings (m : Machine) :
    (HandleTable × ExceptionSlot × Settings × Registry Handler) × Memory × Guest ×
      Array NativeFunction × Array (Dict (List FunctionId)) × Array Storage :=
  (m.custody, m.memory, m.guest, m.store.registry)

theorem custody_of_holdings {work : StateM Machine α} (keeps : Keeps holdings work) :
    Keeps custody work :=
  ⟨fun m => congrArg Prod.fst (keeps.same m)⟩

instance (level : Level) (target message : String) : Keeps holdings (note level target message) :=
  .of_modify fun _ => rfl

instance (word environment invoke destructor : UInt32) :
    Keeps holdings (build (Store.newClosure word environment invoke destructor)) :=
  .of_modifyGet fun _ => rfl

instance (index : Nat) (c : Closure) : Keeps holdings (setClosure index c) :=
  .of_modify fun _ => rfl

instance (index : Nat) : Keeps holdings (enterClosure index).run := by
  unfold enterClosure
  infer_instance

theorem custody_create (settings : Settings) (memory : Memory) (guest : Guest) (store : Store)
    (global : ObjectId) :
    (create settings memory guest store global).custody =
      (bare settings memory guest store global).custody :=
  congrArg (fun core => (core.1, core.2.1, core.2.2.2))
    (core_create settings memory guest store global)

theorem run_allocate_error (value : Value) (none : m.table.next = .error e) :
    (allocate value).run m = (.error e, m) := by
  unfold allocate
  rw [run_bind, run_get]
  simp only [run_bind, none, run_liftExcept]

theorem run_allocate_ok (value : Value) (next : m.table.next = .ok h) : ∃ journal,
    (allocate value).run m = (.ok h, { m with table := m.table.occupy value, journal }) := by
  refine ⟨m.journal.note .trace LogTarget.table s!"heap: allocated {h.display}", ?_⟩
  unfold allocate
  rw [run_bind, run_get]
  simp only [run_bind, next, run_liftExcept]
  rfl

theorem run_take_error (refused : m.table.claim h = .error e) :
    (take h).run m = (.error e, m) := by
  unfold take
  rw [run_bind, run_get]
  simp only [run_bind, refused, run_liftExcept]

theorem run_take_ok (claimed : m.table.claim h = .ok value) : ∃ journal,
    (take h).run m = (.ok value, { m with table := m.table.vacate h, journal }) := by
  unfold take
  rw [run_bind, run_get]
  simp only [run_bind, claimed, run_liftExcept, run_modify]
  by_cases low : h.isReserved
  · exact ⟨m.journal, by simp [low]⟩
  · exact ⟨m.journal.note .trace LogTarget.table s!"heap: released {h.display}", by
      simp only [low]; rfl⟩

theorem run_park_error (exception : Value) (none : m.table.next = .error e) :
    (park exception).run m = (.error e, m) := by
  unfold park
  rw [run_bind, run_allocate_error exception none]

theorem run_park_empty (exception : Value) (next : m.table.next = .ok h)
    (empty : m.pending.current = none) : ∃ journal, (park exception).run m =
      (.ok (), { m with table := m.table.occupy exception, pending := ⟨some h⟩, journal }) := by
  obtain ⟨journal, ran⟩ := run_allocate_ok exception next
  refine ⟨journal, ?_⟩
  unfold park
  rw [run_bind, ran]
  simp only [run_bind, run_get, ExceptionSlot.store, empty]
  rfl

theorem run_release_snd (h : Handle) (m : Machine) :
    ((release h).run m).2 = ((take h).run m).2 := by
  unfold release
  rw [run_bind]
  rcases (take h).run m with ⟨_ | _, _⟩ <;> rfl

theorem run_release_ok (claimed : m.table.claim h = .ok value) : ∃ journal,
    (release h).run m = (.ok (), { m with table := m.table.vacate h, journal }) := by
  obtain ⟨journal, ran⟩ := run_take_ok claimed
  refine ⟨journal, ?_⟩
  unfold release
  rw [run_bind, ran]
  rfl

theorem run_release_error (refused : m.table.claim h = .error e) :
    (release h).run m = (.error e, m) := by
  unfold release
  rw [run_bind, run_take_error refused]

theorem run_park_over (exception : Value) (next : m.table.next = .ok h) {old : Handle}
    (pending : m.pending.current = some old) : ∃ journal,
    (park exception).run m = (release old).run
      { m with table := m.table.occupy exception, pending := ⟨some h⟩, journal } := by
  obtain ⟨noted, ran⟩ := run_allocate_ok exception next
  refine ⟨noted.note .warn LogTarget.bridge
    s!"exception {old.display} was never taken; discarding it", ?_⟩
  unfold park
  rw [run_bind, ran]
  simp only [run_bind, run_get, ExceptionSlot.store, pending]
  rfl

theorem run_park_superseding (exception : Value) (next : m.table.next = .ok h) {old : Handle}
    (pending : m.pending.current = some old)
    (claimed : (m.table.occupy exception).claim old = .ok value) : ∃ journal,
    (park exception).run m = (.ok (), { m with
      table := (m.table.occupy exception).vacate old, pending := ⟨some h⟩, journal }) := by
  obtain ⟨noted, ran⟩ := run_park_over exception next pending
  obtain ⟨journal, released⟩ := run_release_ok (m := { m with
    table := m.table.occupy exception, pending := ⟨some h⟩, journal := noted }) claimed
  exact ⟨journal, ran.trans released⟩

/-- How parking ends: in the slot under a fresh handle, with the handle released that was there, or
without any effect. -/
inductive Parks (exception : Value) (m : Machine) : Except Error Unit × Machine → Prop
  | full (none : m.table.Full) : Parks exception m (.error .tableFull, m)
  | empty {h : Handle} {t : HandleTable} {journal : Journal} (none : m.pending.current = none)
    (formed : t.WellFormed) (gains : m.table.Gains h exception t) :
    Parks exception m (.ok (), { m with table := t, pending := ⟨some h⟩, journal })
  | superseding {h old : Handle} {t t' : HandleTable} {journal : Journal}
    (pending : m.pending.current = some old) (formed : t'.WellFormed)
    (gains : m.table.Gains h exception t) (loses : t.Loses old t') :
    Parks exception m (.ok (), { m with table := t', pending := ⟨some h⟩, journal })

theorem parks (exception : Value) (formed : m.table.WellFormed)
    (live : ∀ old, m.pending.current = some old →
      Handle.reserved ≤ old.index ∧ m.table.isLive old) :
    Parks exception m ((park exception).run m) := by
  cases next : m.table.next with
  | error e =>
    obtain ⟨rfl, full⟩ := (formed.next_error_iff e).mp next
    rw [run_park_error exception next]
    exact .full full
  | ok h =>
    obtain ⟨after, gains⟩ := formed.occupy next exception
    cases pending : m.pending.current with
    | none =>
      obtain ⟨journal, ran⟩ := run_park_empty exception next pending
      rw [ran]
      exact .empty pending after gains
    | some old =>
      obtain ⟨high, before⟩ := live old pending
      have different : old ≠ h := by
        rintro rfl
        rw [gains.fresh] at before
        cases before
      have kept := gains.others old different
      obtain ⟨value, found⟩ := HandleTable.exists_of_isLive before
      have found := kept.trans found
      obtain ⟨released, loses⟩ := after.vacate high (HandleTable.isLive_of_get found)
      obtain ⟨journal, ran⟩ :=
        run_park_superseding exception next pending (HandleTable.claim_ok_iff.mpr found)
      rw [ran]
      exact .superseding pending released gains loses

end SandboxBridge.Machine

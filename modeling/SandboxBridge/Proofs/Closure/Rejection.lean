import SandboxBridge.Proofs.Closure.Destruction
import SandboxBridge.Proofs.Custody
import SandboxBridge.Proofs.HandleTable.Exchange

/-!
Dropping through a handle, where the drop is refused. A handle that stands for no closure is refused
before anything is done. One whose closure has been dropped before is released all the same, as the
handle goes before the closure is asked.
-/

namespace SandboxBridge

open Machine

variable {m m' : Machine} {handle : Handle} {index : Nat} {e : Error}

def Machine.IsSpent (m : Machine) (handle : Handle) : Prop :=
  ∃ index, m.table.get handle = .ok (.function (.closure index)) ∧ (m.closure index).alive = false

inductive Machine.Lacks (m : Machine) (handle : Handle) : Error → Prop
  | dead {e : Error} (dead : m.table.get handle = .error e) : Lacks m handle e
  | other {value : Value} (live : m.table.get handle = .ok value)
    (other : ∀ index, value ≠ .function (.closure index)) : Lacks m handle .notAClosure

theorem HandleTable.category_of_get {t : HandleTable} (dead : t.get handle = .error e) :
    e.category = .contract := by
  unfold get at dead
  split at dead <;> cases dead <;> rfl

theorem Machine.Lacks.category (lacks : m.Lacks handle e) :
    e.category = .contract ∨ e.category = .type := by
  cases lacks with
  | dead dead => exact .inl (HandleTable.category_of_get dead)
  | other => exact .inr rfl

theorem cbDrop_lacking (lacks : m.Lacks handle e) :
    (Adapter.cbDrop handle).run m = .done (.error e) m := by
  unfold Adapter.cbDrop
  rw [Op.run_local_bind]
  simp only [object, Work.run_bind, Work.run_get, Work.run_liftExcept]
  cases lacks with
  | dead dead => rw [dead]
  | @other value live other =>
    rw [live]
    rcases value with _ | _ | _ | _ | _ | _ | native | closure
    case function.closure => exact absurd rfl (other closure)
    all_goals rfl

theorem Machine.withClosure_closure (m : Machine) (index : Nat) :
    m.withClosure index (m.closure index) = m := by
  cases found : m.closures[index]? with
  | some c =>
    rw [closure_eq found]
    exact withClosure_stored found
  | none =>
    have outside : m.store.closures.size ≤ index := Array.getElem?_eq_none_iff.mp found
    rw [withClosure, Array.set!_eq_setIfInBounds, Array.setIfInBounds_eq_of_size_le outside]

theorem dropClosure_gone (gone : (m.closure index).alive = false) :
    (dropClosure index).run m = .done (.error .droppedTwice) m := by
  have refused : (m.closure index).drop = (.error .droppedTwice, m.closure index) := by
    unfold Closure.drop
    rw [gone]
    rfl
  rw [dropClosure_eq, refused]
  simp only [withClosure_closure]

/-- The handle of a dropped closure is released before the closure refuses to be dropped again. -/
theorem cbDrop_spent (spent : m.IsSpent handle) :
    ∃ m', (Adapter.cbDrop handle).run m = .done (.error .droppedTwice) m' ∧
      m'.table = m.table.vacate handle ∧ m'.store = m.store := by
  obtain ⟨index, live, gone⟩ := spent
  obtain ⟨journal, released⟩ := run_release_ok (HandleTable.claim_eq_get live)
  refine ⟨{ m with table := m.table.vacate handle, journal }, ?_, rfl, rfl⟩
  unfold Adapter.cbDrop
  rw [Op.run_local_bind]
  simp only [object, Work.run_bind, Work.run_get, Work.run_liftExcept, live]
  rw [Op.run_local_bind, released]
  exact dropClosure_gone gone

theorem table_create (memory : Memory) (guest : Guest) (store : Store) (global : ObjectId) :
    (create {} memory guest store global).table = .empty none :=
  congrArg Prod.fst (core_create ..)

theorem next_create (memory : Memory) (guest : Guest) (store : Store) (global : ObjectId) :
    (create {} memory guest store global).table.next = .ok ⟨4⟩ := by
  rw [table_create]
  rfl

namespace Execution

theorem Sound.cbDrop_passes {x : Execution} (sound : Sound index x)
    (live : x.machine.table.get handle = .ok (.function (.closure index)))
    (alive : (x.machine.closure index).alive = true) :
    ∃ dropped rest,
      (Adapter.cbDrop handle).run x.machine = .pass (.dropped index) dropped rest := by
  cases found : x.machine.closures[index]? with
  | none =>
    rw [closure_eq_missing found] at alive
    cases alive
  | some c =>
    rw [closure_eq found] at alive
    have agrees := sound.agrees
    rw [found] at agrees
    obtain ⟨w, t⟩ := agrees
    have stands : (x.life index).dropped = false := by simpa [alive] using t.alive
    by_cases idle : (x.life index).loans = []
    · obtain ⟨dropped, m', drops⟩ := cbDrop_idle t found live stands idle
      exact ⟨dropped, _, drops⟩
    · obtain ⟨dropped, m', drops⟩ := cbDrop_busy t found live stands idle
      exact ⟨dropped, _, drops⟩

theorem reaches_spent {m : Machine} (fresh : m.closures.size = 0) {handle : Handle}
    (next : m.table.next = .ok handle) :
    ∃ x, Reaches (start m) x ∧ x.machine.IsSpent handle ∧
      x.machine.table = m.table.occupy (.function (.closure 0)) := by
  let c : Closure := .wrap 1 2 3 4
  let made : Machine := { m with store := { m.store with closures := m.closures.push c } }
  have wrapped : Reaches (start m)
      ⟨made, .outside, [], [.passed (.made m.closures.size 1 2 3 4)]⟩ :=
    .tail (.tail (.single (.ask (.newClosure 1 2 3 4))) .pass) .finish
  obtain ⟨journal, ran⟩ := run_allocate_ok (m := made) (.function (.closure 0)) next
  let placed : Machine :=
    { made with table := m.table.occupy (.function (.closure 0)), journal }
  have placing : (Request.allocate (.function (.closure 0))).perform made =
      .done (.ok handle) placed := by
    change Task.done ((allocate _).run made).1 ((allocate _).run made).2 = _
    rw [ran]
  have allocated := wrapped.tail (.ask (.allocate (.function (.closure 0))))
  rw [placing] at allocated
  have found : placed.closures[0]? = some c := by
    rw [← fresh]
    exact Array.getElem?_push_size
  let dropped : Closure := { c with alive := false, references := 0, context := .released }
  have drops : (Request.dropClosure 0).perform placed =
      .pass (.dropped 0) (placed.withClosure 0 dropped)
        (((destroyClosure 0 1).run (placed.withClosure 0 dropped)).bind fun result m =>
          .done (result.map fun _ => true) m) := by
    change (dropClosure 0).run placed = _
    rw [dropClosure_eq, closure_eq found]
    rfl
  rw [destroyClosure_eq] at drops
  have asked := (allocated.tail .finish).tail (.ask (.dropClosure 0))
  rw [drops] at asked
  have called := (asked.tail .pass).tail .call
  have returned := called.tail (.resume (Except.ok [] : Except Error (List Word)))
  refine ⟨_, returned.tail .finish, ⟨0, ?_, ?_⟩, ?_⟩
  · exact HandleTable.get_occupy next _
  · exact congrArg Closure.alive (closure_eq (withClosure_own found dropped))
  · rfl

/-- In every state that a bridge comes to, a drop through a handle is refused, before anyone is
called, if the handle stands for no closure or for one that has been dropped. It leaves the machine
as it was in all cases but the last: then the handle is released all the same. -/
theorem drop_rejected {m : Machine} {x : Execution} (unused : m.store.closures.size = 0)
    (reached : Reaches (start m) x) (handle : Handle) :
    (∀ e, x.machine.Lacks handle e →
      (Adapter.cbDrop handle).run x.machine = .done (.error e) x.machine ∧
        (e.category = .contract ∨ e.category = .type)) ∧
    (x.machine.IsSpent handle → ∃ m', (Adapter.cbDrop handle).run x.machine =
        .done (.error .droppedTwice) m' ∧
      m'.table = x.machine.table.vacate handle ∧ m'.store = x.machine.store) ∧
    ∀ e m', (Adapter.cbDrop handle).run x.machine = .done (.error e) m' →
      ¬x.machine.IsSpent handle → x.machine.Lacks handle e ∧ m' = x.machine := by
  refine ⟨fun e lacks => ⟨cbDrop_lacking lacks, lacks.category⟩, cbDrop_spent, ?_⟩
  intro e m' rejected unspent
  have lacking {other : Error} (lacks : x.machine.Lacks handle other) :
      x.machine.Lacks handle e ∧ m' = x.machine := by
    rw [cbDrop_lacking lacks] at rejected
    cases rejected
    exact ⟨lacks, rfl⟩
  cases live : x.machine.table.get handle with
  | error reason => exact lacking (.dead live)
  | ok value =>
    by_cases closure : ∃ index, value = .function (.closure index)
    · obtain ⟨index, rfl⟩ := closure
      have fresh : m.closures.size ≤ index := by
        change m.store.closures.size ≤ index
        omega
      have sound : Sound index x := (Sound.start fresh).reaches reached
      cases alive : (x.machine.closure index).alive with
      | false => exact absurd ⟨index, live, alive⟩ unspent
      | true =>
        obtain ⟨dropped, rest, passes⟩ := sound.cbDrop_passes live alive
        rw [passes] at rejected
        cases rejected
    · exact lacking (.other live fun index same => closure ⟨index, same⟩)

theorem drop_rejected_spent :
    ∃ x, Reaches (start (.create {} (.ofBytes .empty) {} {} ⟨0⟩)) x ∧ x.machine.IsSpent ⟨4⟩ ∧
      (Adapter.cbDrop ⟨0⟩).run x.machine = .done (.error .notAClosure) x.machine ∧
      (Adapter.cbDrop ⟨5⟩).run x.machine = .done (.error .handleOutOfRange) x.machine := by
  have fresh : (create {} (.ofBytes .empty) {} {} ⟨0⟩).closures.size = 0 :=
    congrArg Array.size (closures_create ..)
  obtain ⟨x, reached, spent, table⟩ := reaches_spent fresh (next_create ..)
  rw [table_create] at table
  have nothing : x.machine.table.get ⟨0⟩ = .ok .undefined := by
    rw [table]
    rfl
  have outside : x.machine.table.get ⟨5⟩ = .error .handleOutOfRange := by
    rw [table]
    rfl
  have rejects := (drop_rejected fresh reached ⟨0⟩).1 .notAClosure (.other nothing nofun)
  have refuses := (drop_rejected fresh reached ⟨5⟩).1 .handleOutOfRange (.dead outside)
  exact ⟨x, reached, spent, rejects.1, refuses.1⟩

/-- A handle may be gone after a drop through it was refused. -/
theorem drop_rejected_releases :
    ∃ x, Reaches (start (.create {} (.ofBytes .empty) {} {} ⟨0⟩)) x ∧
      x.machine.table.get ⟨4⟩ = .ok (.function (.closure 0)) ∧
      ∃ e m', (Adapter.cbDrop ⟨4⟩).run x.machine = .done (.error e) m' ∧ e.category = .contract ∧
        m'.table.get ⟨4⟩ = .error .handleReleased := by
  have fresh : (create {} (.ofBytes .empty) {} {} ⟨0⟩).closures.size = 0 :=
    congrArg Array.size (closures_create ..)
  obtain ⟨x, reached, spent, table⟩ := reaches_spent fresh (next_create ..)
  rw [table_create] at table
  obtain ⟨m', rejected, vacated, -⟩ := cbDrop_spent spent
  refine ⟨x, reached, ?_, .droppedTwice, m', rejected, rfl, ?_⟩
  · rw [table]
    rfl
  · rw [vacated, table]
    rfl

end Execution

end SandboxBridge

import SandboxBridge.Proofs.Closure.Invocation
import SandboxBridge.Proofs.Custody

/-!
Calls that go quietly: no closure is called in their course, and the host functions that they call
leave the handle table alone. Most of what imports do then leaves it alone, too, and the rest makes
at most one handle at its end.
-/

namespace SandboxBridge

open Machine Work

variable {α β ε : Type}

/-- The task can end with a value and a machine, while it calls no closure, and while code that it
calls returns with the handle table as it was and the exception slot as it was or empty. The slot
that comes before is the one at the start or the last return, and the slot that comes after is the
one at the last return of all. -/
inductive Task.Quietly : Task α → ExceptionSlot → α → Machine → ExceptionSlot → Prop
  | done {value : α} {m : Machine} {slot : ExceptionSlot} :
    Quietly (.done value m) slot value m slot
  | call {callee : Callee} {m m' last : Machine} {resume : callee.Outcome → Machine → Task α}
    {slot slot' : ExceptionSlot} {outcome : callee.Outcome} {value : α}
    (table : m'.table = m.table) (pending : m'.pending = m.pending ∨ m'.pending.current = none)
    (rest : Quietly (resume outcome m') m'.pending value last slot') :
    Quietly (.call callee m resume) slot value last slot'
  | made {closure : Nat} {word environment invoke destructor : UInt32} {m last : Machine}
    {task : Task α} {slot slot' : ExceptionSlot} {value : α}
    (rest : Quietly task slot value last slot') :
    Quietly (.pass (.made closure word environment invoke destructor) m task) slot value last slot'

theorem Task.Quietly.of_done {task : Task α} {value : α} {m : Machine}
    (ended : task = .done value m) (slot : ExceptionSlot) : task.Quietly slot value m slot := by
  rw [ended]
  exact .done

theorem Task.Quietly.of_bind {task : Task α} {next : α → Machine → Task β} {value : β}
    {last : Machine} {slot slot' : ExceptionSlot}
    (quietly : (task.bind next).Quietly slot value last slot') :
    ∃ first m between, task.Quietly slot first m between ∧
      (next first m).Quietly between value last slot' := by
  induction task generalizing slot with
  | done first m => exact ⟨first, m, slot, .done, quietly⟩
  | call callee m resume ih =>
    cases quietly with
    | call table pending rest =>
      obtain ⟨first, m', between, before, after⟩ := ih _ _ rest
      exact ⟨first, m', between, .call table pending before, after⟩
  | pass milestone m task ih =>
    cases quietly with
    | made rest =>
      obtain ⟨first, m', between, before, after⟩ := ih rest
      exact ⟨first, m', between, .made before, after⟩
  | abort => cases quietly

/-- The slot as host functions can leave it: as it was, or empty. -/
def ExceptionSlot.Rests (slot slot' : ExceptionSlot) : Prop :=
  slot' = slot ∨ slot'.current = none

theorem ExceptionSlot.Rests.trans {a b c : ExceptionSlot} (first : a.Rests b) (second : b.Rests c) :
    a.Rests c := by
  rcases second with rfl | empty
  · exact first
  · exact .inr empty

def Discipline.sparing : Discipline where
  Allows run := ∀ m value m' slot, (run m).Quietly m.pending value m' slot →
    m'.table = m.table ∧ m'.pending = slot ∧ m.pending.Rests slot
  pure value m _ m' slot quietly := by
    cases quietly with
    | done => exact ⟨rfl, rfl, .inl rfl⟩
  bind first rest m value m' slot quietly := by
    obtain ⟨between, m₁, slot₁, before, after⟩ := Task.Quietly.of_bind quietly
    obtain ⟨table, pending, rests⟩ := first m between m₁ slot₁ before
    subst pending
    obtain ⟨table', pending', rests'⟩ := rest between m₁ value m' slot after
    exact ⟨table'.trans table, pending', rests.trans rests'⟩
  look m _ m' slot quietly := by
    cases quietly with
    | done => exact ⟨rfl, rfl, .inl rfl⟩
  abort _ _ _ _ quietly := nomatch quietly

abbrev Run.Spares (run : Run α) : Prop :=
  Obeys .sparing run

theorem sparing_of_custody {work : StateM Machine α} (keeps : Keeps custody work) :
    Discipline.sparing.rule.Allows work := by
  intro m value m' slot quietly
  have same := keeps.same m
  simp only [custody, Prod.mk.injEq] at same
  cases quietly with
  | done => exact ⟨same.1, same.2.1, .inl rfl⟩

instance : MindsCore Discipline.sparing.rule :=
  ⟨fun keeps => sparing_of_custody (keeps_custody keeps)⟩

instance : Discipline.AllowsHosts .sparing where
  call callee _ m value m' slot quietly := by
    cases quietly with
    | call table pending rest =>
      cases rest with
      | done => exact ⟨table, rfl, pending⟩
  invoke index args m value m' slot quietly := by
    rw [invokeClosure_eq] at quietly
    cases entered : (m.closure index).enter with
    | error e =>
      rw [entered] at quietly
      cases quietly with
      | done => exact ⟨rfl, rfl, .inl rfl⟩
    | ok lent =>
      rw [entered] at quietly
      cases quietly

instance (word environment invoke destructor : UInt32) :
    Run.Spares (wrapClosure word environment invoke destructor) where
  allowed m value m' slot quietly := by
    rw [wrapClosure_eq] at quietly
    cases quietly with
    | made rest =>
      cases rest with
      | done => exact ⟨rfl, rfl, .inl rfl⟩

end SandboxBridge

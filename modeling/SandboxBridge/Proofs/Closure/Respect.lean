import SandboxBridge.Proofs.Closure.Life
import SandboxBridge.Proofs.Discipline

/-!
Tasks that respect the life of a closure: whatever code outside does during their calls, they cause
only events that are allowed, what they store agrees with the life so far, and they end with as many
calls of the closure under way as there were when they began. Whoever has called the shim leaves the
closure next.
-/

namespace SandboxBridge

open Machine Work

variable {α β : Type}

namespace Machine

def closures (m : Machine) : Array Closure :=
  m.store.closures

theorem keeps_aside {work : StateM Machine α} (keeps : Keeps core work) : Keeps closures work :=
  ⟨fun m => congrArg (fun core => core.2.2.1) (keeps.same m)⟩

instance : IgnoresHandles closures :=
  ⟨fun _ _ _ _ => rfl⟩

theorem closures_create (settings : Settings) (memory : Memory) (guest : Guest) (store : Store)
    (global : ObjectId) :
    (create settings memory guest store global).closures = store.closures :=
  congrArg (fun core => core.2.2.1) (core_create settings memory guest store global)

instance : MindsCore (.keeping closures) :=
  ⟨fun keeps => (keeps_aside keeps).allowed⟩

instance : AllowsTaking (.keeping closures) where
  allocate value := (keeps_allocate value).allowed
  park exception := (keeps_park exception).allowed
  takePending _ := rfl
  reset _ := rfl
  take handle := (keeps_take handle).allowed

end Machine

/-- Before it does anything else that shows, the task ends a call that was lent `lent`. -/
def Task.Leaves (index : Nat) (lent : Option UInt32) (task : Task α) : Prop :=
  ∃ m rest, task = .pass (.left index lent) m rest

theorem Task.Leaves.bind {index : Nat} {lent : Option UInt32} {task : Task α}
    (leaves : task.Leaves index lent) (next : α → Machine → Task β) :
    (task.bind next).Leaves index lent := by
  obtain ⟨m, rest, rfl⟩ := leaves
  exact ⟨m, rest.bind next, rfl⟩

/-- From the life `l`, the task goes on with allowed events only and ends as if it had begun with
`base`. What happens during a call is as free as `Resumes` lets it be. -/
def Task.Respects (index : Nat) (base : Life) : Task α → Life → Prop
  | .done _ m, l => l.Agrees m.closures[index]? ∧ l.Settled ∧ base.Resumes l
  | .call callee m resume, l =>
    (callee.closure? = some index → l.Allows (.called callee)) ∧
    (callee.runs index → ∃ w, l.origin = some w ∧
      ∀ outcome m', (resume outcome m').Leaves index (some w.word)) ∧
    l.Agrees m.closures[index]? ∧
    (l.next index (.called callee)).Settled ∧
    ∀ outcome (m' : Machine) (l' : Life), l'.Agrees m'.closures[index]? → l'.Settled →
      (l.next index (.called callee)).Resumes l' →
      (resume outcome m').Respects index base (l'.next index (.returned callee))
  | .pass milestone m rest, l =>
    ¬l.Owes ∧
    (milestone.closure = index → l.Allows (.passed milestone)) ∧
    (l.next index (.passed milestone)).Agrees m.closures[index]? ∧
    rest.Respects index base (l.next index (.passed milestone))
  | .abort, l => l.Settled

namespace Task.Respects

variable {index : Nat} {base l : Life} {m : Machine}

theorem pass_own {milestone : Milestone} {rest : Task α} (own : milestone.closure = index)
    (paid : ¬l.Owes) (allowed : l.Allows (.passed milestone))
    (agrees : (l.after (.passed milestone)).Agrees m.closures[index]?)
    (goesOn : rest.Respects index base (l.after (.passed milestone))) :
    (Task.pass milestone m rest).Respects index base l := by
  have next : l.next index (.passed milestone) = l.after (.passed milestone) :=
    Life.next_own (congrArg some own)
  refine ⟨paid, fun _ => allowed, ?_, ?_⟩
  all_goals rwa [next]

theorem pass_other {milestone : Milestone} {rest : Task α} (other : milestone.closure ≠ index)
    (settled : l.Settled) (agrees : l.Agrees m.closures[index]?)
    (goesOn : rest.Respects index base l) :
    (Task.pass milestone m rest).Respects index base l := by
  have next : l.next index (.passed milestone) = l :=
    Life.next_other fun found => other (Option.some.inj found)
  refine ⟨settled.paid, fun own => absurd own other, ?_, ?_⟩
  all_goals rwa [next]

theorem call_own {callee : Callee} {resume : callee.Outcome → Machine → Task α}
    (own : callee.closure? = some index) (allowed : l.Allows (.called callee))
    (leaves : callee.runs index → ∃ w, l.origin = some w ∧
      ∀ outcome m', (resume outcome m').Leaves index (some w.word))
    (agrees : l.Agrees m.closures[index]?) (settled : (l.after (.called callee)).Settled)
    (goesOn : ∀ outcome (m' : Machine) (l' : Life), l'.Agrees m'.closures[index]? → l'.Settled →
      (l.after (.called callee)).Resumes l' →
      (resume outcome m').Respects index base (l'.after (.returned callee))) :
    (Task.call callee m resume).Respects index base l := by
  have called : l.next index (.called callee) = l.after (.called callee) := if_pos own
  refine ⟨fun _ => allowed, leaves, agrees, by rwa [called], ?_⟩
  intro outcome m' l' agrees' settled' resumes
  have returned : l'.next index (.returned callee) = l'.after (.returned callee) := if_pos own
  rw [called] at resumes
  rw [returned]
  exact goesOn outcome m' l' agrees' settled' resumes

theorem call_other {callee : Callee} {resume : callee.Outcome → Machine → Task α}
    (other : callee.closure? ≠ some index) (agrees : l.Agrees m.closures[index]?)
    (settled : l.Settled)
    (goesOn : ∀ outcome (m' : Machine) (l' : Life), l'.Agrees m'.closures[index]? → l'.Settled →
      l.Resumes l' → (resume outcome m').Respects index base l') :
    (Task.call callee m resume).Respects index base l := by
  have called : l.next index (.called callee) = l := if_neg other
  refine ⟨fun own => absurd own other, fun runs => absurd (Callee.closure?_of_runs runs) other,
    agrees, by rwa [called], ?_⟩
  intro outcome m' l' agrees' settled' resumes
  have returned : l'.next index (.returned callee) = l' := if_neg other
  rw [called] at resumes
  rw [returned]
  exact goesOn outcome m' l' agrees' settled' resumes

theorem bind {middle : Life} {task : Task α} {next : α → Machine → Task β}
    (first : task.Respects index middle l)
    (rest : ∀ value (m : Machine) (l' : Life), l'.Agrees m.closures[index]? → l'.Settled →
      middle.Resumes l' → (next value m).Respects index base l') :
    (task.bind next).Respects index base l := by
  induction task generalizing l with
  | done value m => exact rest value m l first.1 first.2.1 first.2.2
  | call callee m resume ih =>
    obtain ⟨allowed, leaves, agrees, settled, goesOn⟩ := first
    refine ⟨allowed, fun runs => ?_, agrees, settled, fun outcome m' l' agrees' settled' resumes =>
      ih outcome m' (goesOn outcome m' l' agrees' settled' resumes)⟩
    obtain ⟨w, origin, leaves⟩ := leaves runs
    exact ⟨w, origin, fun outcome m' => (leaves outcome m').bind next⟩
  | pass milestone m task ih =>
    obtain ⟨paid, allowed, agrees, goesOn⟩ := first
    exact ⟨paid, allowed, agrees, ih goesOn⟩
  | abort => exact first

theorem weaken {middle : Life} {task : Task α} (respects : task.Respects index middle l)
    (earlier : base.Resumes middle) : task.Respects index base l := by
  rw [← task.bind_done]
  exact respects.bind fun value m l' agrees settled resumes =>
    ⟨agrees, settled, earlier.trans resumes⟩

end Task.Respects

def Life.discipline (index : Nat) : Discipline where
  Allows run := ∀ (m : Machine) (l : Life), l.Agrees m.closures[index]? → l.Settled →
    (run m).Respects index l l
  pure _ _ l agrees settled := ⟨agrees, settled, .refl l⟩
  bind first rest m l agrees settled :=
    (first m l agrees settled).bind fun value m' l' agrees' settled' resumes =>
      (rest value m' l' agrees' settled').weaken resumes
  look _ l agrees settled := ⟨agrees, settled, .refl l⟩
  abort _ _ _ settled := settled

abbrev Run.Respects (index : Nat) (run : Run α) : Prop :=
  Obeys (Life.discipline index) run

namespace Run.Respects

variable {index : Nat}

theorem task {run : Run α} (respects : Respects index run) (m : Machine) (l : Life)
    (agrees : l.Agrees m.closures[index]?) (settled : l.Settled) :
    (run m).Respects index l l :=
  respects.allowed m l agrees settled

theorem of_keeps {work : StateM Machine α} (keeps : Keeps closures work) :
    (Life.discipline index).rule.Allows work := by
  intro m l agrees settled
  have same : (work m).2.closures = m.closures := keeps.same m
  exact ⟨by rwa [same], settled, .refl l⟩

instance : MindsCore (Life.discipline index).rule :=
  ⟨fun keeps => of_keeps (keeps_aside keeps)⟩

instance : AllowsTaking (Life.discipline index).rule where
  allocate value := of_keeps (keeps_allocate value)
  park exception := of_keeps (keeps_park exception)
  takePending := of_keeps inferInstance
  reset := of_keeps inferInstance
  take handle := of_keeps (keeps_take handle)

theorem call {callee : Callee} (other : callee.closure? ≠ some index) :
    Respects index (Run.call callee) where
  allowed _ _ agrees settled := .call_other other agrees settled fun _ _ _ agrees' settled' resumes =>
    ⟨agrees', settled', resumes⟩

end Run.Respects

end SandboxBridge

import SandboxBridge.Proofs.Contract

/-!
How tasks end. At each call of a task the code around the bridge does as it likes for a while and
then answers, so a task may end in many ways, with one exchange for each call on the way. These are
the ways in which executions take a request from its beginning to its end.
-/

namespace SandboxBridge

variable {α β : Type} {may : Exchange → Prop}

structure Exchange where
  callee : Callee
  asked : Machine
  outcome : callee.Outcome
  answered : Machine

/-- The task ends with a value and a machine, after exchanges as they may be. -/
inductive Task.Ends (may : Exchange → Prop) : Task α → List Exchange → α → Machine → Prop
  | done {value : α} {m : Machine} : Ends may (.done value m) [] value m
  | call {callee : Callee} {m m' last : Machine} {resume : callee.Outcome → Machine → Task α}
    {outcome : callee.Outcome} {exchanges : List Exchange} {value : α}
    (answered : may ⟨callee, m, outcome, m'⟩)
    (rest : Ends may (resume outcome m') exchanges value last) :
    Ends may (.call callee m resume) (⟨callee, m, outcome, m'⟩ :: exchanges) value last
  | pass {milestone : Milestone} {m last : Machine} {task : Task α} {exchanges : List Exchange}
    {value : α} (rest : Ends may task exchanges value last) :
    Ends may (.pass milestone m task) exchanges value last

/-- The process ends in the course of the task, after exchanges as they may be. -/
inductive Task.Aborts (may : Exchange → Prop) : Task α → List Exchange → Prop
  | abort : Aborts may .abort []
  | call {callee : Callee} {m m' : Machine} {resume : callee.Outcome → Machine → Task α}
    {outcome : callee.Outcome} {exchanges : List Exchange} (answered : may ⟨callee, m, outcome, m'⟩)
    (rest : Aborts may (resume outcome m') exchanges) :
    Aborts may (.call callee m resume) (⟨callee, m, outcome, m'⟩ :: exchanges)
  | pass {milestone : Milestone} {m : Machine} {task : Task α} {exchanges : List Exchange}
    (rest : Aborts may task exchanges) : Aborts may (.pass milestone m task) exchanges

namespace Task

variable {may : Exchange → Prop} {task : Task α} {exchanges : List Exchange} {last : Machine}

@[simp] theorem ends_done {value other : α} {m : Machine} :
    (Task.done other m).Ends may exchanges value last ↔
      exchanges = [] ∧ value = other ∧ last = m := by
  constructor
  · intro ends
    cases ends
    exact ⟨rfl, rfl, rfl⟩
  · rintro ⟨rfl, rfl, rfl⟩
    exact .done

theorem Ends.unique {may' : Exchange → Prop} {value other : α} {last' : Machine}
    (ends : task.Ends may exchanges value last) (again : task.Ends may' exchanges other last') :
    value = other ∧ last = last' := by
  induction ends with
  | done =>
    cases again
    exact ⟨rfl, rfl⟩
  | call _ _ ih =>
    cases again with
    | call _ rest => exact ih rest
  | pass _ ih =>
    cases again with
    | pass rest => exact ih rest

theorem Ends.bind {next : α → Machine → Task β} {early late : List Exchange} {first : α}
    {value : β} {m : Machine} (before : task.Ends may early first m)
    (after : (next first m).Ends may late value last) :
    (task.bind next).Ends may (early ++ late) value last := by
  induction before with
  | done => exact after
  | call answered _ ih => exact .call answered (ih after)
  | pass _ ih => exact .pass (ih after)

theorem ends_bind {next : α → Machine → Task β} {value : β} :
    (task.bind next).Ends may exchanges value last ↔
      ∃ early late first m, exchanges = early ++ late ∧ task.Ends may early first m ∧
        (next first m).Ends may late value last := by
  constructor
  · intro ends
    induction task generalizing exchanges with
    | done first m => exact ⟨[], exchanges, first, m, rfl, .done, ends⟩
    | call callee m resume ih =>
      cases ends with
      | call answered rest =>
        obtain ⟨early, late, first, m', rfl, before, after⟩ := ih _ _ rest
        exact ⟨_ :: early, late, first, m', rfl, .call answered before, after⟩
    | pass milestone m task ih =>
      cases ends with
      | pass rest =>
        obtain ⟨early, late, first, m', rfl, before, after⟩ := ih rest
        exact ⟨early, late, first, m', rfl, .pass before, after⟩
    | abort => cases ends
  · rintro ⟨early, late, first, m, rfl, before, after⟩
    exact before.bind after

theorem aborts_bind {next : α → Machine → Task β} :
    (task.bind next).Aborts may exchanges ↔ task.Aborts may exchanges ∨
      ∃ early late first m, exchanges = early ++ late ∧ task.Ends may early first m ∧
        (next first m).Aborts may late := by
  constructor
  · intro aborts
    induction task generalizing exchanges with
    | done first m => exact .inr ⟨[], exchanges, first, m, rfl, .done, aborts⟩
    | call callee m resume ih =>
      cases aborts with
      | call answered rest =>
        rcases ih _ _ rest with before | ⟨early, late, first, m', rfl, before, after⟩
        · exact .inl (.call answered before)
        · exact .inr ⟨_ :: early, late, first, m', rfl, .call answered before, after⟩
    | pass milestone m task ih =>
      cases aborts with
      | pass rest =>
        rcases ih rest with before | ⟨early, late, first, m', rfl, before, after⟩
        · exact .inl (.pass before)
        · exact .inr ⟨early, late, first, m', rfl, .pass before, after⟩
    | abort =>
      cases aborts
      exact .inl .abort
  · rintro (aborts | ⟨early, late, first, m, rfl, before, after⟩)
    · induction aborts with
      | abort => exact .abort
      | call answered _ ih => exact .call answered ih
      | pass _ ih => exact .pass ih
    · induction before with
      | done => exact after
      | call answered _ ih => exact .call answered (ih after)
      | pass _ ih => exact .pass (ih after)

end Task

namespace Contract

variable {c : Contract} {m : Machine}

/-- The code around the bridge, when it is called, comes from the machine that it was left to the one
that it answers with, and keeps to its side. -/
def Serves (c : Contract) (e : Exchange) : Prop :=
  (∃ events, c.Reaches (Execution.start e.asked) ⟨e.answered, .outside, [], events⟩) ∧
    c.Answers e.answered e.callee e.outcome

/-- A task that fulfils a contract comes to what holds whenever the code around the bridge runs, if
that code keeps to it, too. -/
theorem sound_of_ends (served : ∀ e, c.Sound e.asked → c.Serves e → c.Sound e.answered)
    {task : Task α} {exchanges : List Exchange} {value : α} {last : Machine} (sound : c.Sound m)
    (first : task.Fulfils c m) (ends : task.Ends c.Serves exchanges value last) : c.Sound last := by
  induction ends generalizing m with
  | done => exact c.sound first sound
  | @call callee asked answered last resume outcome exchanges value serves rest ih =>
    have back := served _ (c.sound first.1 sound) serves
    exact ih back (first.2 outcome answered back serves.2)
  | pass _ ih => exact ih (c.sound first.1 sound) first.2

section Keeping

variable {τ : Type} {part : Machine → τ}

/-- The bridge leaves a part of the machine alone, and the code around it is free. -/
def keeping (part : Machine → τ) : Contract where
  Sound _ := True
  Leads m m' := part m' = part m
  Asks _ _ := True
  Answers _ _ _ := True
  refl _ := rfl
  trans first second := second.trans first
  sound _ _ := trivial

theorem kept_of_ends {δ : Type} {task : Task α} {exchanges : List Exchange} {value : α}
    {last : Machine} (fulfils : task.Fulfils (keeping part) m)
    (ends : task.Ends may exchanges value last) (aspect : τ → δ)
    (kept : ∀ e ∈ exchanges, aspect (part e.answered) = aspect (part e.asked)) :
    aspect (part last) = aspect (part m) := by
  induction ends generalizing m with
  | done => exact congrArg aspect fulfils
  | @call callee asked answered last resume outcome exchanges value served rest ih =>
    obtain ⟨first, others⟩ := List.forall_mem_cons.mp kept
    have after := ih (fulfils.2 outcome answered trivial trivial) others
    exact after.trans (first.trans (congrArg aspect fulfils.1))
  | pass _ ih => exact (ih fulfils.2 kept).trans (congrArg aspect fulfils.1)

end Keeping

end Contract

end SandboxBridge

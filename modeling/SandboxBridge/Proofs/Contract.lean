import SandboxBridge.Proofs.Closure.Invocation
import SandboxBridge.Proofs.Custody
import SandboxBridge.Proofs.Execution

/-!
Contracts between a bridge and the code around it: what that code may count on whenever it runs, how
it may ask and answer, and what the bridge may do to the machine before it lets go of it again. If
every request fulfils the contract, so does every execution in which the code around the bridge
keeps to its own side.
-/

namespace SandboxBridge

open Machine Work Discipline

variable {α β : Type}

structure Contract where
  /-- What holds whenever the code around the bridge runs. -/
  Sound : Machine → Prop
  /-- What the bridge may do to the machine in one stretch. -/
  Leads : Machine → Machine → Prop
  Asks : Machine → Request → Prop
  Answers : Machine → (callee : Callee) → callee.Outcome → Prop
  refl (m : Machine) : Leads m m
  trans {m₁ m₂ m₃ : Machine} (first : Leads m₁ m₂) (second : Leads m₂ m₃) : Leads m₁ m₃
  sound {m m' : Machine} (leads : Leads m m') (sound : Sound m) : Sound m'

variable {c : Contract}

/-- From the machine `m` on, each stretch of the task does what it may, whatever is done to the
machine during its calls. -/
def Task.Fulfils (c : Contract) : Task α → Machine → Prop
  | .done _ reached, m => c.Leads m reached
  | .call callee reached resume, m => c.Leads m reached ∧
    ∀ outcome m', c.Sound m' → c.Answers m' callee outcome → (resume outcome m').Fulfils c m'
  | .pass _ reached rest, m => c.Leads m reached ∧ rest.Fulfils c reached
  | .abort, _ => True

namespace Task.Fulfils

variable {m m' : Machine}

theorem since {task : Task α} (leads : c.Leads m m') (fulfils : task.Fulfils c m') :
    task.Fulfils c m := by
  cases task with
  | done value reached => exact c.trans leads fulfils
  | call callee reached resume => exact ⟨c.trans leads fulfils.1, fulfils.2⟩
  | pass milestone reached rest => exact ⟨c.trans leads fulfils.1, fulfils.2⟩
  | abort => trivial

theorem bind {task : Task α} {next : α → Machine → Task β} (sound : c.Sound m)
    (first : task.Fulfils c m)
    (rest : ∀ value m', c.Sound m' → (next value m').Fulfils c m') :
    (task.bind next).Fulfils c m := by
  induction task generalizing m with
  | done value reached => exact (rest value reached (c.sound first sound)).since first
  | call callee reached resume ih =>
    exact ⟨first.1, fun outcome m' sound' answers =>
      ih outcome m' sound' (first.2 outcome m' sound' answers)⟩
  | pass milestone reached task ih => exact ⟨first.1, ih (c.sound first.1 sound) first.2⟩
  | abort => trivial

end Task.Fulfils

namespace Contract

def discipline (c : Contract) : Discipline where
  Allows run := ∀ m, c.Sound m → (run m).Fulfils c m
  pure _ m _ := c.refl m
  bind first rest m sound := (first m sound).bind sound fun value m' sound' => rest value m' sound'
  look m _ := c.refl m
  abort _ _ := trivial

theorem allows_of_leads {work : StateM Machine α}
    (leads : ∀ m, c.Sound m → c.Leads m (work.run m).2) : c.discipline.rule.Allows work :=
  leads

theorem obeys_call (callee : Callee) : Run.Obeys c.discipline (Run.call callee) :=
  ⟨fun m _ => ⟨c.refl m, fun _ m' _ _ => c.refl m'⟩⟩

instance (milestone : Milestone) : Run.Obeys c.discipline (Run.pass milestone) :=
  ⟨fun m _ => ⟨c.refl m, c.refl m⟩⟩

section Closures

/-- A contract under which the bridge may work with closures, put values behind handles, and work with
those that it passes to a shim and gets from it. -/
class AllowsClosures (c : Contract) : Prop extends AllowsHandles c.discipline.rule where
  keeping : ∀ {α : Type} {work : StateM Machine α}, Keeps holdings work →
    ∀ m, c.Sound m → c.Leads m (work.run m).2
  pass : ∀ args m, c.Sound m → c.Leads m ((allocateAll [] args).run m).2
  answer : ∀ index target args outcome m, c.Sound m →
    c.Answers m (.exported (.shim index) target args) outcome →
    (takeAnswer outcome m).Fulfils c m

variable [AllowsClosures c]

instance {work : StateM Machine α} [keeps : Keeps holdings work] :
    Follows c.discipline.rule work :=
  ⟨AllowsClosures.keeping keeps⟩

instance (index : Nat) (word : UInt32) : Run.Obeys c.discipline (destroyClosure index word).run := by
  unfold destroyClosure callTable
  have (target : Nat) (args : List Word) :
      Run.Obeys c.discipline (Run.call (.exported (.destructor index) target args)) :=
    obeys_call _
  infer_instance

instance (index : Nat) (lent : Option UInt32) :
    Run.Obeys c.discipline (leaveClosure index lent).run := by
  unfold leaveClosure
  apply Run.Obeys.bind inferInstance
  intro m
  rcases (m.closure index).leave lent with ⟨_ | word, left⟩ <;> infer_instance

instance (index : Nat) : Run.Obeys c.discipline (dropClosure index).run := by
  unfold dropClosure
  apply Run.Obeys.bind inferInstance
  intro m
  dsimp only
  have concluded (next : Closure.Drop) : Run.Obeys c.discipline (match next with
      | .deferred calls => do
        note .debug LogTarget.closure s!"closure drop deferred; {calls} call(s) in flight"
        return false
      | .destroy word => do
        destroyClosure index word
        return true : Op Bool).run := by
    cases next <;> infer_instance
  infer_instance

instance (word environment invoke destructor : UInt32) :
    Run.Obeys c.discipline (wrapClosure word environment invoke destructor) := by
  unfold wrapClosure
  infer_instance

instance (index : Nat) (word : UInt32) (args : List Value) :
    Run.Obeys c.discipline (callShim index word args).run where
  allowed m sound := by
    have placed := AllowsClosures.pass args m sound
    rw [callShim_eq]
    revert placed
    rcases (allocateAll [] args).run m with ⟨e | handles, m'⟩ <;> intro placed
    · exact placed
    · exact ⟨placed, fun outcome m' sound' answers =>
        AllowsClosures.answer index _ _ outcome m' sound' answers⟩

instance (result : Except Fault Value) (left : Except Error Unit) :
    Run.Obeys c.discipline (settleCall result left).run := by
  unfold settleCall
  split <;> infer_instance

instance (index : Nat) (args : List Value) :
    Run.Obeys c.discipline (invokeClosure index args).run := by
  have served (lent : Option UInt32) :
      Run.Obeys c.discipline (serveClosure index lent args).run := by
    unfold serveClosure
    cases lent <;> infer_instance
  unfold invokeClosure
  infer_instance

instance : AllowsCalls c.discipline where
  call callee _ := (obeys_call callee).allowed
  invoke _ _ := Run.Obeys.allowed

instance [AllowsAside c.discipline.rule] : AllowsHosts c.discipline where
  aside := AllowsAside.aside

instance [AllowsGuest c.discipline.rule] : AllowsWork c.discipline where
  wrap _ _ _ _ := Run.Obeys.allowed
  drop _ := Run.Obeys.allowed

/-- So whatever is asked of a bridge fulfils the contract, if it takes no handles. -/
instance [AllowsGuest c.discipline.rule] [AllowsAside c.discipline.rule]
    [AllowsSlot c.discipline.rule] : AllowsService c.discipline where
  aside := AllowsAside.aside
  park := AllowsSlot.park
  takePending := AllowsSlot.takePending
  reset := AllowsSlot.reset

end Closures

theorem AllowsClosures.of_taking [AllowsTaking c.discipline.rule]
    (keeping : ∀ {α : Type} {work : StateM Machine α}, Keeps holdings work →
      ∀ m, c.Sound m → c.Leads m (work.run m).2) : AllowsClosures c where
  keeping := keeping
  pass args m sound := by
    have follows : Follows c.discipline.rule (allocateAll [] args).run := inferInstance
    exact follows.allowed m sound
  answer index target args outcome m sound _ := by
    cases outcome with
    | error e => exact c.refl m
    | ok results =>
      have obeys : Run.Obeys c.discipline (takeResult results).run := inferInstance
      exact obeys.allowed m sound

/-- The bridge keeps to an invariant. The code around it is free but for what it asks. -/
def preserving (holds : Machine → Prop) (asks : Request → Prop) : Contract where
  Sound := holds
  Leads m m' := holds m → holds m'
  Asks _ request := asks request
  Answers _ _ _ := True
  refl _ := id
  trans first second := second ∘ first
  sound leads := leads

/-! Executions. -/

open Execution

/-- A step in which the code around the bridge keeps to its side. -/
inductive Honours (c : Contract) : Execution → Execution → Prop
  | ask {m : Machine} {callers : List Caller} {events : List Event} (request : Request)
    (asks : c.Asks m request) :
    Honours c ⟨m, .outside, callers, events⟩
      ⟨m, .inside request (request.perform m), callers, events⟩
  | resume {m : Machine} {caller : Caller} {callers : List Caller} {events : List Event}
    (outcome : caller.callee.Outcome) (answers : c.Answers m caller.callee outcome) :
    Honours c ⟨m, .outside, caller :: callers, events⟩
      ⟨m, .inside caller.request (caller.resume outcome m), callers,
        .returned caller.callee :: events⟩
  | goOn {m : Machine} {request : Request} {task : Task request.Answer} {callers : List Caller}
    {events : List Event} {y : Execution}
    (step : Step ⟨m, .inside request task, callers, events⟩ y) :
    Honours c ⟨m, .inside request task, callers, events⟩ y

abbrev Reaches (c : Contract) : Execution → Execution → Prop :=
  Relation.ReflTransGen c.Honours

variable {m : Machine} {x y : Execution}

theorem Honours.step (honours : c.Honours x y) : Step x y := by
  cases honours with
  | ask request asks => exact .ask request
  | resume outcome answers => exact .resume outcome
  | goOn step => exact step

theorem reaches_done {m' : Machine} {callers : List Caller} {events : List Event}
    (reached : c.Reaches x ⟨m, .outside, callers, events⟩) (request : Request)
    (asks : c.Asks m request) {answer : request.Answer}
    (done : request.perform m = .done answer m') :
    c.Reaches x ⟨m', .outside, callers, events⟩ := by
  have asked := reached.tail (.ask request asks)
  rw [done] at asked
  exact asked.tail (.goOn .finish)

theorem Honours.of_step (asks : ∀ m request, c.Asks m request)
    (answers : ∀ m callee outcome, c.Answers m callee outcome) (step : Step x y) :
    c.Honours x y := by
  cases step with
  | ask request => exact .ask request (asks _ request)
  | resume outcome => exact .resume outcome (answers _ _ outcome)
  | pass => exact .goOn .pass
  | call => exact .goOn .call
  | finish => exact .goOn .finish

def GoesOn (c : Contract) (m : Machine) : Control → Prop
  | .outside => True
  | .inside _ task => task.Fulfils c m

/-- Where an execution from the machine `m` that honours a contract has come to. -/
structure Standing (c : Contract) (m : Machine) (x : Execution) : Prop where
  leads : c.Leads m x.machine
  sound : c.Sound x.machine
  goesOn : c.GoesOn x.machine x.control
  callers : ∀ caller ∈ x.callers, ∀ outcome m', c.Sound m' → c.Answers m' caller.callee outcome →
    (caller.resume outcome m').Fulfils c m'

theorem Standing.step
    (fulfils : ∀ m request, c.Sound m → c.Asks m request → (request.perform m).Fulfils c m)
    (standing : c.Standing m x) (honours : c.Honours x y) : c.Standing m y := by
  obtain ⟨leads, sound, goesOn, callers⟩ := standing
  cases honours with
  | ask request asks => exact ⟨leads, sound, fulfils _ request sound asks, callers⟩
  | resume outcome answers =>
    obtain ⟨resumes, callers⟩ := List.forall_mem_cons.mp callers
    exact ⟨leads, sound, resumes outcome _ sound answers, callers⟩
  | goOn step =>
    cases step with
    | pass => exact ⟨c.trans leads goesOn.1, c.sound goesOn.1 sound, goesOn.2, callers⟩
    | call =>
      exact ⟨c.trans leads goesOn.1, c.sound goesOn.1 sound, trivial,
        List.forall_mem_cons.mpr ⟨goesOn.2, callers⟩⟩
    | finish => exact ⟨c.trans leads goesOn, c.sound goesOn sound, trivial, callers⟩

theorem Standing.reaches
    (fulfils : ∀ m request, c.Sound m → c.Asks m request → (request.perform m).Fulfils c m)
    (sound : c.Sound m) (reached : c.Reaches (start m) x) : c.Standing m x := by
  induction reached with
  | refl => exact ⟨c.refl m, sound, trivial, fun _ member => nomatch member⟩
  | tail _ honours ih => exact ih.step fulfils honours

/-- Under a contract that lets handles be taken, only what is asked of the memory needs care. -/
theorem sound_of_reaches [AllowsTaking c.discipline.rule] [AllowsClosures c]
    [AllowsGuest c.discipline.rule] [AllowsAside c.discipline.rule]
    (allows : ∀ m access, c.Asks m (.memory access) →
      c.discipline.rule.Allows (onMemory access.perform).run)
    (sound : c.Sound m) (reached : c.Reaches (start m) x) : c.Sound x.machine := by
  have fulfils (m : Machine) (request : Request) (sound : c.Sound m)
      (asks : c.Asks m request) : (request.perform m).Fulfils c m := by
    have obeys : Run.Obeys c.discipline request.perform :=
      request.obeys_perform_taking fun access same => allows m access (same ▸ asks)
    exact obeys.allowed m sound
  exact (Standing.reaches fulfils sound reached).sound

end Contract

end SandboxBridge

import SandboxBridge.Proofs.Facilities.Deeds

/-!
Chronicles: executions with the deeds that their requests come down to, in order. Whenever code
around the bridge runs, listeners and stored items are what the deeds so far have made of those that
there were at first.
-/

namespace SandboxBridge

open Execution Contract

namespace Store

variable {s s₁ s₂ : Store} {history : List Deed}

theorem Does.extension (does : s.Does none s₁) : s.Extends s₁ where
  natives := does.natives
  tables := does.tables
  storages := does.storages
  listeners := does.listeners
  items := does.items
  quota := does.quota

/-- Deeds have been done one after the other, and nothing else has changed of what listens and is
stored. -/
inductive After (s : Store) : List Deed → Store → Prop
  | start {s' : Store} (extension : s.Extends s') : After s [] s'
  | deed {history : List Deed} {d : Deed} {s₁ s₂ : Store} (after : After s history s₁)
    (does : s₁.Does (some d) s₂) : After s (history ++ [d]) s₂

namespace After

theorem extended (after : s.After history s₁) (extension : s₁.Extends s₂) :
    s.After history s₂ := by
  cases after with
  | start before => exact .start (before.trans extension)
  | deed after does => exact .deed after (does.extends extension)

theorem does {deed : Option Deed} (after : s.After history s₁) (does : s₁.Does deed s₂) :
    s.After (history ++ deed.toList) s₂ := by
  cases deed with
  | none => exact (List.append_nil history).symm ▸ after.extended does.extension
  | some d => exact .deed after does

theorem tables (after : s.After history s₁) : s.listeners.size ≤ s₁.listeners.size := by
  induction after with
  | start extension => exact extension.tables
  | deed _ does ih => exact Nat.le_trans ih does.tables

theorem storages (after : s.After history s₁) : s.storages.size ≤ s₁.storages.size := by
  induction after with
  | start extension => exact extension.storages
  | deed _ does ih => exact Nat.le_trans ih does.storages

theorem listeners (after : s.After history s₁) (table : Nat) (type : String) :
    s₁.listenersOf table type =
      history.foldl (Deed.listeners table type) (s.listenersOf table type) := by
  induction after with
  | start extension => exact extension.listeners table type
  | deed _ does ih => rw [does.listeners, ih, List.foldl_concat, Option.elim_some]

theorem quota (after : s.After history s₁) {index : Nat} (inside : index < s.storages.size) :
    (s₁.storage index).quota = (s.storage index).quota := by
  induction after with
  | start extension => exact extension.quota index inside
  | deed after does ih =>
    exact (does.quota index (Nat.lt_of_lt_of_le inside after.storages)).trans ih

end After

end Store

namespace Execution

/-- The bridge has come to a store as it may be, and leaves it so unless it is asked for a deed. -/
structure Leaves (held : Store → Prop) (x : Execution) : Prop where
  control : match x.control with
    | .outside => held x.machine.store
    | .inside _ task => ∃ m, held m.store ∧ task.Fulfils leaving m
  callers : ∀ caller ∈ x.callers, ∀ outcome m, (caller.resume outcome m).Fulfils leaving m

namespace Leaves

variable {held : Store → Prop} {m : Machine} {callers : List Caller} {events : List Event}

theorem ask (leaves : Leaves held ⟨m, .outside, callers, events⟩) (request : Request)
    {next : Store → Prop} (done : ∀ s, m.store.Does (request.deed? m) s → next s) :
    Leaves next ⟨m, .inside request (request.perform m), callers, events⟩ := by
  obtain ⟨m₁, does, fulfils⟩ := request.does m
  exact ⟨⟨m₁, done m₁.store does, fulfils⟩, leaves.callers⟩

theorem resume {caller : Caller} (leaves : Leaves held ⟨m, .outside, caller :: callers, events⟩)
    (outcome : caller.callee.Outcome) : Leaves held
      ⟨m, .inside caller.request (caller.resume outcome m), callers,
        .returned caller.callee :: events⟩ := by
  obtain ⟨resumes, callers⟩ := List.forall_mem_cons.mp leaves.callers
  exact ⟨⟨m, leaves.control, resumes outcome m⟩, callers⟩

theorem goOn (extended : ∀ {s s'}, held s → s.Extends s' → held s') {request : Request}
    {task : Task request.Answer} {y : Execution}
    (leaves : Leaves held ⟨m, .inside request task, callers, events⟩)
    (step : Step ⟨m, .inside request task, callers, events⟩ y) : Leaves held y := by
  obtain ⟨⟨m₁, before, fulfils⟩, callers⟩ := leaves
  cases step with
  | pass => exact ⟨⟨_, extended before fulfils.1, fulfils.2⟩, callers⟩
  | call =>
    have resumes := fun outcome m' => fulfils.2 outcome m' trivial trivial
    exact ⟨extended before fulfils.1, List.forall_mem_cons.mpr ⟨resumes, callers⟩⟩
  | finish => exact ⟨extended before fulfils, callers⟩

theorem of_reaches {x : Execution} (reached : Reaches (start m) x) :
    Leaves (fun _ => True) x := by
  induction reached with
  | refl => exact ⟨trivial, fun _ member => nomatch member⟩
  | tail _ step ih =>
    cases step with
    | ask request => exact ih.ask request fun _ _ => trivial
    | resume outcome => exact ih.resume outcome
    | pass => exact ih.goOn (fun _ _ => trivial) .pass
    | call => exact ih.goOn (fun _ _ => trivial) .call
    | finish => exact ih.goOn (fun _ _ => trivial) .finish

end Leaves

end Execution

/-- An execution since the code around the bridge had the machine `m₀`, with the deeds that requests
have come down to since then. -/
inductive Chronicle (m₀ : Machine) : List Deed → Execution → Prop
  | start {first : Machine} {callers : List Caller} {events : List Event}
    (reached : Reaches (Execution.start first) ⟨m₀, .outside, callers, events⟩) :
    Chronicle m₀ [] ⟨m₀, .outside, callers, events⟩
  | ask {history : List Deed} {m : Machine} {callers : List Caller} {events : List Event}
    (request : Request) (before : Chronicle m₀ history ⟨m, .outside, callers, events⟩) :
    Chronicle m₀ (history ++ (request.deed? m).toList)
      ⟨m, .inside request (request.perform m), callers, events⟩
  | resume {history : List Deed} {m : Machine} {caller : Caller} {callers : List Caller}
    {events : List Event} (outcome : caller.callee.Outcome)
    (before : Chronicle m₀ history ⟨m, .outside, caller :: callers, events⟩) :
    Chronicle m₀ history ⟨m, .inside caller.request (caller.resume outcome m), callers,
      .returned caller.callee :: events⟩
  | goOn {history : List Deed} {m : Machine} {request : Request} {task : Task request.Answer}
    {callers : List Caller} {events : List Event} {y : Execution}
    (before : Chronicle m₀ history ⟨m, .inside request task, callers, events⟩)
    (step : Step ⟨m, .inside request task, callers, events⟩ y) : Chronicle m₀ history y

namespace Chronicle

variable {m₀ m : Machine} {history : List Deed} {x y : Execution} {callers : List Caller}
  {events : List Event}

theorem done (chronicle : Chronicle m₀ history ⟨m, .outside, callers, events⟩) (request : Request)
    {answer : request.Answer} {m' : Machine} (done : request.perform m = .done answer m') :
    Chronicle m₀ (history ++ (request.deed? m).toList) ⟨m', .outside, callers, events⟩ := by
  have asked := chronicle.ask request
  rw [done] at asked
  exact asked.goOn .finish

theorem called (chronicle : Chronicle m₀ history ⟨m, .outside, callers, events⟩) {call : HostCall}
    {d : Deed} (asked : m.store.callDeed? call = some d) {result : Except Fault Value} {m' : Machine}
    (ran : call.run m = .done result m') :
    Chronicle m₀ (history ++ [d]) ⟨m', .outside, callers, events⟩ := by
  have later := chronicle.done (.callFunction call.function call.receiver call.args) ran
  change Chronicle m₀ (history ++ (m.store.callDeed? call).toList) _ at later
  rwa [asked] at later

theorem leaves (chronicle : Chronicle m₀ history x) :
    Leaves (m₀.store.After history) x := by
  induction chronicle with
  | start reached => exact ⟨.start (.refl _), (Leaves.of_reaches reached).callers⟩
  | ask request _ ih => exact ih.ask request fun _ does => ih.control.does does
  | resume outcome _ ih => exact ih.resume outcome
  | goOn _ step ih => exact ih.goOn (fun after extension => after.extended extension) step

/-- Whenever code around the bridge runs, all deeds so far have been done. -/
theorem after (chronicle : Chronicle m₀ history ⟨m, .outside, callers, events⟩) :
    m₀.store.After history m.store :=
  chronicle.leaves.control

end Chronicle

end SandboxBridge

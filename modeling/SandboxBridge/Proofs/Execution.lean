import Mathlib.Logic.Relation
import SandboxBridge.Embedding

/-!
Executions of a bridge, step by step, with code outside of it that is free to do whatever it can: it
asks for anything whenever it runs, and ends a call in any way once it has its answers. What the
code of an embedder does is one of these executions.
-/

namespace SandboxBridge

inductive Event where
  | passed (milestone : Milestone)
  | called (callee : Callee)
  | returned (callee : Callee)

structure Caller where
  request : Request
  callee : Callee
  resume : callee.Outcome → Machine → Task request.Answer

inductive Control where
  | outside
  | inside (request : Request) (task : Task request.Answer)

structure Execution where
  machine : Machine
  control : Control
  /-- The innermost request first. -/
  callers : List Caller
  /-- What has happened, the latest event first. -/
  events : List Event

namespace Execution

def start (m : Machine) : Execution :=
  ⟨m, .outside, [], []⟩

inductive Step : Execution → Execution → Prop
  | ask {m : Machine} {callers : List Caller} {events : List Event} (request : Request) :
    Step ⟨m, .outside, callers, events⟩
      ⟨m, .inside request (request.perform m), callers, events⟩
  | pass {m reached : Machine} {callers : List Caller} {events : List Event} {request : Request}
    {milestone : Milestone} {rest : Task request.Answer} :
    Step ⟨m, .inside request (.pass milestone reached rest), callers, events⟩
      ⟨reached, .inside request rest, callers, .passed milestone :: events⟩
  | call {m reached : Machine} {callers : List Caller} {events : List Event} {request : Request}
    {callee : Callee} {resume : callee.Outcome → Machine → Task request.Answer} :
    Step ⟨m, .inside request (.call callee reached resume), callers, events⟩
      ⟨reached, .outside, ⟨request, callee, resume⟩ :: callers, .called callee :: events⟩
  | resume {m : Machine} {caller : Caller} {callers : List Caller} {events : List Event}
    (outcome : caller.callee.Outcome) :
    Step ⟨m, .outside, caller :: callers, events⟩
      ⟨m, .inside caller.request (caller.resume outcome m), callers,
        .returned caller.callee :: events⟩
  | finish {m reached : Machine} {callers : List Caller} {events : List Event} {request : Request}
    {answer : request.Answer} :
    Step ⟨m, .inside request (.done answer reached), callers, events⟩
      ⟨reached, .outside, callers, events⟩

abbrev Reaches : Execution → Execution → Prop :=
  Relation.ReflTransGen Step

end Execution

open Execution

variable {γ α : Type}

/-- Whoever runs outside comes from `m` to `m'`, whatever waits for it. -/
def Leads (m m' : Machine) : Prop :=
  ∀ callers events, ∃ later,
    Reaches ⟨m, .outside, callers, events⟩ ⟨m', .outside, callers, later⟩

theorem Leads.refl (m : Machine) : Leads m m :=
  fun _ events => ⟨events, .refl⟩

theorem Leads.trans {m₁ m₂ m₃ : Machine} (first : Leads m₁ m₂) (second : Leads m₂ m₃) :
    Leads m₁ m₃ := by
  intro callers events
  obtain ⟨between, early⟩ := first callers events
  obtain ⟨later, late⟩ := second callers between
  exact ⟨later, early.trans late⟩

variable {answer : (callee : Callee) → Machine → γ → Option (callee.Outcome × Machine × γ)}

theorem Task.run_leads
    (answered : ∀ {callee m own outcome m' own'},
      answer callee m own = some (outcome, m', own') → Leads m m')
    {request : Request} (task : Task request.Answer) {own own' : γ} {value : request.Answer}
    {m' : Machine} (found : task.run answer own = some (value, m', own')) (m : Machine)
    (callers : List Caller) (events : List Event) :
    ∃ later, Reaches ⟨m, .inside request task, callers, events⟩ ⟨m', .outside, callers, later⟩ := by
  induction task generalizing own m events with
  | done value reached =>
    cases found
    exact ⟨events, .single .finish⟩
  | call callee reached resume ih =>
    rw [run] at found
    cases asked : answer callee reached own with
    | none => simp [asked] at found
    | some result =>
      obtain ⟨outcome, m₁, own₁⟩ := result
      rw [asked] at found
      obtain ⟨between, nested⟩ :=
        answered asked (⟨request, callee, resume⟩ :: callers) (.called callee :: events)
      obtain ⟨later, rest⟩ := ih outcome m₁ found m₁ (.returned callee :: between)
      exact ⟨later, .head .call (nested.trans (.head (.resume outcome) rest))⟩
  | pass milestone reached rest ih =>
    obtain ⟨later, steps⟩ := ih found reached (.passed milestone :: events)
    exact ⟨later, .head .pass steps⟩
  | abort => cases found

theorem Request.perform_leads
    (answered : ∀ {callee m own outcome m' own'},
      answer callee m own = some (outcome, m', own') → Leads m m')
    (request : Request) {m m' : Machine} {own own' : γ} {value : request.Answer}
    (found : (request.perform m).run answer own = some (value, m', own')) : Leads m m' := by
  intro callers events
  obtain ⟨later, steps⟩ := Task.run_leads answered (request.perform m) found m callers events
  exact ⟨later, .head (.ask request) steps⟩

theorem Play.run_leads
    (answered : ∀ {callee m own outcome m' own'},
      answer callee m own = some (outcome, m', own') → Leads m m')
    (play : Play γ α) {m m' : Machine} {own own' : γ} {value : α}
    (found : play.run answer m own = some (value, m', own')) : Leads m m' := by
  induction play generalizing m own with
  | finish value =>
    cases found
    exact .refl _
  | look next ih => exact ih m own found
  | keep kept next ih => exact ih found
  | ask request next ih =>
    rw [run] at found
    cases asked : (request.perform m).run answer own with
    | none => simp [asked] at found
    | some result =>
      obtain ⟨answer, m₁, own₁⟩ := result
      rw [asked] at found
      exact (request.perform_leads answered asked).trans (ih answer found)

namespace Embedding

theorem answer_leads (e : Embedding γ) (depth : Nat) :
    ∀ {callee m own outcome m' own'},
      e.answer depth callee m own = some (outcome, m', own') → Leads m m' := by
  induction depth with
  | zero => exact fun found => nomatch found
  | succ depth ih =>
    intro callee m own outcome m' own' found
    cases callee with
    | exported purpose index args =>
      rw [answer] at found
      split at found
      · exact Play.run_leads ih _ found
      · cases found
        exact .refl m
    | start => exact Play.run_leads ih _ found
    | hosted key receiver args => exact Play.run_leads ih _ found
    | imported key args => exact Play.run_leads ih _ found
    | function id receiver args =>
      exact (Request.callFunction id receiver args).perform_leads ih found

/-- Whatever an embedder's code does to a bridge, some execution does. -/
theorem perform_leads (e : Embedding γ) {depth : Nat} {play : Play γ α} {m m' : Machine}
    {own own' : γ} {value : α} (found : e.perform depth play m own = some (value, m', own')) :
    Leads m m' :=
  Play.run_leads (e.answer_leads depth) play found

end Embedding

end SandboxBridge

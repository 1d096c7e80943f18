import SandboxBridge.Proofs.Facilities.Listeners
import SandboxBridge.Proofs.Rendering.Texts

/-!
Dispatch of events. The functions that are registered for the type of an event when its dispatch
begins are called in the order of their registration, each once, whatever becomes of the
registrations meanwhile. What a listener throws is passed over once its text has been noted, and a
trap ends the dispatch.
-/

namespace SandboxBridge

open Machine Work Execution

/-- Calls by which an event is delivered to listeners, one after the other. A trap ends them. -/
inductive Delivered (receiver : Value) (event : ObjectId) :
    List FunctionId → List Exchange → Option Error → Prop
  | all : Delivered receiver event [] [] none
  | passed {listener : FunctionId} {rest : List FunctionId} {exchanges : List Exchange}
    {trap : Option Error} {asked answered : Machine} {outcome : Except Fault Value}
    (passes : ∀ e, outcome ≠ .error (.trap e))
    (later : Delivered receiver event rest exchanges trap) :
    Delivered receiver event (listener :: rest)
      (⟨.function listener receiver [.object event], asked, outcome, answered⟩ :: exchanges) trap
  | trapped {listener : FunctionId} {rest : List FunctionId} {asked answered : Machine} {e : Error} :
    Delivered receiver event (listener :: rest)
      [⟨.function listener receiver [.object event], asked, .error (.trap e), answered⟩] (some e)

/-- What a dispatch comes to: the trap that has ended it, or whether the default action of the event
stands. -/
def Dispatched (receiver : Value) (event : ObjectId) (listeners : List FunctionId)
    (exchanges : List Exchange) (result : Except Fault Value) (last : Machine) : Prop :=
  ∃ trap, Delivered receiver event listeners exchanges trap ∧
    match trap with
    | some e => result = .error (.trap e)
    | none => ∃ stands, result = .ok (.bool stands) ∧
      (stands = false ↔ (last.store.object event).get? "defaultPrevented" = some (.bool true))

variable {receiver : Value} {event : ObjectId} {table : Nat} {m last : Machine}
  {may : Exchange → Prop} {exchanges : List Exchange}

theorem run_deliver_cons (type : String) (receiver event : Value) (listener : FunctionId)
    (rest : List FunctionId) (m : Machine) :
    (deliver type receiver event (listener :: rest)).run m =
      .call (.function listener receiver [event]) m fun outcome m =>
        match outcome with
        | .ok _ => (deliver type receiver event rest).run m
        | .error (.thrown exception) =>
          match m.store.display? exception with
          | some text => (deliver type receiver event rest).run { m with
              journal := m.journal.note .warn LogTarget.facilities
                s!"uncaught exception in '{type}' listener: {text}" }
          | none => .abort
        | .error (.trap e) => .done (.error (.trap e)) m := by
  conv_lhs => unfold deliver
  rw [Host.run_outcome_bind]
  refine congrArg (Task.call (.function listener receiver [event]) m) ?_
  funext outcome m'
  match outcome with
  | .ok value => rfl
  | .error (.trap e) => rfl
  | .error (.thrown exception) =>
    refine (Host.run_displayed_bind exception _ m').trans ?_
    dsimp only
    cases m'.store.display? exception <;> rfl

theorem ends_deliver {type : String} {listeners : List FunctionId} {result : Except Fault Unit}
    (ends : ((deliver type receiver (.object event) listeners).run m).Ends may exchanges result
      last) :
    ∃ trap, Delivered receiver event listeners exchanges trap ∧
      result = trap.elim (.ok ()) fun e => .error (.trap e) := by
  induction listeners generalizing m exchanges with
  | nil =>
    obtain ⟨rfl, rfl, rfl⟩ := Task.ends_done.mp ends
    exact ⟨none, .all, rfl⟩
  | cons listener rest ih =>
    rw [run_deliver_cons] at ends
    cases ends with
    | @call _ _ answered _ _ outcome exchanges _ _ ends =>
      match outcome with
      | .ok value =>
        obtain ⟨trap, delivered, same⟩ := ih ends
        exact ⟨trap, .passed nofun delivered, same⟩
      | .error (.thrown exception) =>
        dsimp only at ends
        cases shown : answered.store.display? exception with
        | none =>
          rw [shown] at ends
          cases ends
        | some text =>
          rw [shown] at ends
          obtain ⟨trap, delivered, same⟩ := ih ends
          exact ⟨trap, .passed nofun delivered, same⟩
      | .error (.trap e) =>
        obtain ⟨rfl, rfl, rfl⟩ := Task.ends_done.mp ends
        exact ⟨some e, .trapped, rfl⟩

/-- A delivery that the process does not outlive, up to the listener that has thrown what has no
text. -/
def Collapsed (receiver : Value) (event : ObjectId) (listeners : List FunctionId)
    (exchanges : List Exchange) : Prop :=
  ∃ called listener rest before asked exception answered,
    listeners = called ++ listener :: rest ∧ Delivered receiver event called before none ∧
    exchanges = before ++
      [⟨.function listener receiver [.object event], asked, .error (.thrown exception), answered⟩] ∧
    answered.store.Endless exception

theorem Collapsed.after {listeners : List FunctionId}
    (collapsed : Collapsed receiver event listeners exchanges) (listener : FunctionId)
    (asked answered : Machine) {outcome : Except Fault Value}
    (passes : ∀ e, outcome ≠ .error (.trap e)) :
    Collapsed receiver event (listener :: listeners)
      (⟨.function listener receiver [.object event], asked, outcome, answered⟩ :: exchanges) := by
  obtain ⟨called, last, rest, before, asked', exception, answered', rfl, delivered, rfl, endless⟩ :=
    collapsed
  exact ⟨listener :: called, last, rest, _ :: before, asked', exception, answered', rfl,
    .passed passes delivered, rfl, endless⟩

theorem aborts_deliver {type : String} {listeners : List FunctionId}
    (aborts : ((deliver type receiver (.object event) listeners).run m).Aborts may exchanges) :
    Collapsed receiver event listeners exchanges := by
  induction listeners generalizing m exchanges with
  | nil => cases aborts
  | cons listener rest ih =>
    rw [run_deliver_cons] at aborts
    cases aborts with
    | @call _ _ answered _ outcome exchanges _ aborts =>
      match outcome with
      | .ok value => exact (ih aborts).after listener m answered nofun
      | .error (.thrown exception) =>
        dsimp only at aborts
        cases shown : answered.store.display? exception with
        | none =>
          rw [shown] at aborts
          cases aborts
          exact ⟨[], listener, rest, [], m, exception, answered, rfl, .all, rfl,
            Store.display?_eq_none_iff.mp shown⟩
        | some text =>
          rw [shown] at aborts
          exact (ih aborts).after listener m answered nofun
      | .error (.trap e) => cases aborts

theorem defaultStands_eq_false {s : Store} : s.defaultStands event = false ↔
    (s.object event).get? "defaultPrevented" = some (.bool true) := by
  unfold Store.defaultStands Object.flag?
  cases (s.object event).get? "defaultPrevented" with
  | none => simp
  | some value =>
    cases value with
    | bool flag => cases flag <;> simp [Value.asBool?]
    | _ => simp [Value.asBool?]

/-- A call that dispatches an event to the listeners of a table. The type of the event is what its
property is as text, a string itself. -/
structure HostCall.Dispatches (call : HostCall) (s : Store) (table : Nat) (event : ObjectId)
    (type : String) : Prop where
  behaves : s.behaviour? call.function = some (.dispatch table)
  argument : call.args.head? = some (.object event)
  suits : (s.object event).isInstanceOf "Event"
  typed : s.Shows (((s.object event).get? "type").getD .undefined) type

theorem run_eventArgument {s : Store} {args : List Value}
    (argument : args.head? = some (.object event)) (suits : (s.object event).isInstanceOf "Event") :
    (Store.eventArgument args).run s = (.ok event, s) := by
  unfold Store.eventArgument
  rw [run_bind, run_get]
  dsimp only
  rw [argument]
  dsimp only
  rw [if_pos suits]
  rfl

/-- A dispatch is a delivery to the listeners that there are when it begins. -/
theorem HostCall.Dispatches.run {call : HostCall} {type : String}
    (dispatches : call.Dispatches m.store table event type) : ∃ m₁,
      call.run m = ((deliver type call.receiver (.object event)
        (m.store.listenersOf table type)).run m₁).bind fun result m =>
      .done (result.map fun _ => .bool (m.store.defaultStands event)) m := by
  obtain ⟨behaves, argument, suits, typed⟩ := dispatches
  rw [HostCall.run_of_behaviour? behaves]
  unfold runBehaviour dispatch
  rw [Host.run_attempt_bind, run_eventArgument argument suits]
  dsimp only
  rw [Host.run_get_bind]
  have shown : m.store.display? (m.store.eventType event) = some type :=
    Store.display?_eq_some_iff.mpr typed
  let listeners := m.store.listenersOf table type
  let begun : Machine := { m with
    store := m.store.put event "target" call.receiver
    journal := m.journal.note .debug LogTarget.facilities
      s!"dispatching '{type}' to {listeners.length} listener(s)" }
  let delivery := (deliver type call.receiver (.object event) listeners).run begun
  refine ⟨begun, (Host.run_displayed_bind (m.store.eventType event) _ m).trans ?_⟩
  rw [shown]
  refine congrArg delivery.bind (funext fun result => ?_)
  cases result <;> rfl

theorem Dispatched.texted {listeners : List FunctionId} {result : Except Fault Value}
    (dispatched : Dispatched receiver event listeners exchanges result last) {value : Value}
    (comes : result = .ok value ∨ result = .error (.thrown value)) :
    last.store.display? value ≠ none := by
  obtain ⟨trap, -, told⟩ := dispatched
  cases trap with
  | some e => rcases comes with rfl | rfl <;> cases told
  | none =>
    obtain ⟨stands, rfl, -⟩ := told
    rcases comes with ⟨⟨⟩⟩ | ⟨⟨⟩⟩
    exact nofun

section Dispatches

variable {call : HostCall} {type : String} (dispatches : call.Dispatches m.store table event type)
include dispatches

theorem HostCall.Dispatches.dispatched {result : Except Fault Value}
    (ends : (call.run m).Ends may exchanges result last) :
    Dispatched call.receiver event (m.store.listenersOf table type) exchanges result last := by
  obtain ⟨begun, followed⟩ := dispatches.run
  rw [followed] at ends
  obtain ⟨early, late, delivery, reached, rfl, first, rest⟩ := Task.ends_bind.mp ends
  obtain ⟨rfl, rfl, rfl⟩ := Task.ends_done.mp rest
  obtain ⟨trap, delivered, rfl⟩ := ends_deliver first
  rw [List.append_nil]
  refine ⟨trap, delivered, ?_⟩
  cases trap with
  | some e => rfl
  | none => exact ⟨_, rfl, defaultStands_eq_false⟩

theorem HostCall.Dispatches.collapsed (aborts : (call.run m).Aborts may exchanges) :
    Collapsed call.receiver event (m.store.listenersOf table type) exchanges := by
  obtain ⟨begun, followed⟩ := dispatches.run
  rw [followed, Task.aborts_bind] at aborts
  obtain aborts | ⟨_, _, _, _, -, -, ⟨⟩⟩ := aborts
  exact aborts_deliver aborts

end Dispatches

/-! Event targets. -/

namespace Store

variable {s : Store} {id : ObjectId}

theorem addListener_apart (s : Store) (table : Nat) (type : String) (listener : Option Value) :
    (s.addListener table type listener).objects = s.objects ∧
      (s.addListener table type listener).natives = s.natives := by
  unfold addListener
  split
  · dsimp only
    split <;> exact ⟨rfl, rfl⟩
  · exact ⟨rfl, rfl⟩

end Store

theorem Chronicle.listen {m₀ : Machine} {history : List Deed} {callers : List Caller}
    {events : List Event}
    (chronicle : Chronicle m₀ history ⟨m, .outside, callers, events⟩)
    (adds : FunctionId) (behaves : m.store.behaviour? adds = some (.addListener table))
    (there : table < m.store.listeners.size) (type : String) (listener : FunctionId) :
    ∃ m', m'.store.objects = m.store.objects ∧ m'.store.natives = m.store.natives ∧
      Chronicle m₀ (history ++ [.listen table type listener]) ⟨m', .outside, callers, events⟩ := by
  let call : HostCall := ⟨adds, .null, [.string type, .function listener]⟩
  have deed : m.store.callDeed? call = some (.listen table type listener) := by
    rw [Store.callDeed?, behaves]
    exact Store.feasible_of_reaches (d := .listen table type listener) (decide_eq_true there)
  have ran : call.run m = .done (.ok .undefined)
      { m with store := m.store.addListener table type (some (.function listener)) } := by
    rw [HostCall.run_of_behaviour? behaves]
    rfl
  obtain ⟨objects, natives⟩ := m.store.addListener_apart table type (some (.function listener))
  exact ⟨_, objects, natives, chronicle.called deed ran⟩

namespace Execution

end Execution

end SandboxBridge

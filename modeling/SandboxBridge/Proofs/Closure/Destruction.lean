import SandboxBridge.Proofs.Closure.References

/-!
A closure made in an execution is destroyed once, as soon as the host has dropped it and no call of
it is under way, and is out of use from then on.
-/

namespace SandboxBridge

open Machine

abbrev Wrapping.destruction (w : Wrapping) (index : Nat) : Callee :=
  .exported (.destructor index) w.destructor.toNat [.i32 w.word, .i32 w.environment]

def Task.Calls {α : Type} (callee : Callee) (task : Task α) : Prop :=
  ∃ m resume, task = .call callee m resume

def Control.Calls (callee : Callee) : Control → Prop
  | .outside => False
  | .inside _ task => task.Calls callee

theorem HandleTable.claim_eq_get {t : HandleTable} {h : Handle} {value : Value}
    (live : t.get h = .ok value) : t.claim h = .ok value := by
  unfold get at live
  unfold claim
  split at live <;> simp_all

theorem Machine.run_release {m : Machine} {handle : Handle} {value : Value}
    (live : m.table.get handle = .ok value) :
    (release handle).run m = (.ok (), ((release handle).run m).2) := by
  unfold release take
  simp only [Work.run_bind, Work.run_get, Work.run_liftExcept, HandleTable.claim_eq_get live]
  cases handle.isReserved <;> rfl

section Drop

variable {m : Machine} {index : Nat} {l : Life} {w : Wrapping} {c : Closure} {handle : Handle}

/-- The handle is released before the closure is asked, which is no matter to the closure. -/
theorem cbDrop_eq (found : m.closures[index]? = some c)
    (denotes : m.table.get handle = .ok (.function (.closure index))) :
    ∃ released : Machine, released.closures[index]? = some c ∧
      (Adapter.cbDrop handle).run m = (dropClosure index).run released := by
  have keeps : Work.Keeps closures (release handle).run := inferInstance
  have same : ((release handle).run m).2.closures = m.closures := keeps.same m
  have object : (object handle).run m = (.ok (.function (.closure index)), m) := by
    unfold Machine.object
    simp only [Work.run_bind, Work.run_get, Work.run_liftExcept, denotes]
  refine ⟨((release handle).run m).2, by rwa [same], ?_⟩
  unfold Adapter.cbDrop
  rw [Op.run_local_bind, object]
  simp only [Op.run_local_bind]
  rw [run_release denotes]

theorem destroyClosure_of_made (made : w.IsOf c) (found : m.closures[index]? = some c) :
    ∃ m', (destroyClosure index w.word).run m =
      .call (w.destruction index) m' fun outcome m => .done (outcome.map fun _ => ()) m := by
  rw [destroyClosure_eq, closure_eq found]
  dsimp only
  rw [made.1, made.2.2]
  exact ⟨_, rfl⟩

theorem cbDrop_again (t : l.Tallies w c) (found : m.closures[index]? = some c)
    (denotes : m.table.get handle = .ok (.function (.closure index))) (gone : l.dropped = true) :
    ∃ m', (Adapter.cbDrop handle).run m = .done (.error .droppedTwice) m' := by
  obtain ⟨released, found, drops⟩ := cbDrop_eq found denotes
  rw [drops, dropClosure_eq, closure_eq found, t.drop_again gone]
  exact ⟨_, rfl⟩

theorem cbDrop_busy (t : l.Tallies w c) (found : m.closures[index]? = some c)
    (denotes : m.table.get handle = .ok (.function (.closure index))) (stands : l.dropped = false)
    (busy : l.loans ≠ []) :
    ∃ dropped m', (Adapter.cbDrop handle).run m =
      .pass (.dropped index) dropped (.done (.ok false) m') := by
  obtain ⟨released, found, drops⟩ := cbDrop_eq found denotes
  obtain ⟨dropped, defers, -⟩ := t.drop_first index stands
  rw [if_neg busy] at defers
  rw [drops, dropClosure_eq, closure_eq found, defers]
  exact ⟨_, _, rfl⟩

theorem cbDrop_idle (t : l.Tallies w c) (found : m.closures[index]? = some c)
    (denotes : m.table.get handle = .ok (.function (.closure index))) (stands : l.dropped = false)
    (idle : l.loans = []) :
    ∃ dropped m', (Adapter.cbDrop handle).run m = .pass (.dropped index) dropped
      (.call (w.destruction index) m' fun outcome m => .done (outcome.map fun _ => true) m) := by
  obtain ⟨released, found, drops⟩ := cbDrop_eq found denotes
  obtain ⟨dropped, destroys, -, tallies⟩ := t.drop_first index stands
  rw [if_pos idle] at destroys
  rw [drops, dropClosure_eq, closure_eq found, destroys]
  obtain ⟨m', called⟩ := destroyClosure_of_made tallies.made (withClosure_own found dropped)
  simp only [called]
  refine ⟨_, m', congrArg _ ?_⟩
  rw [Task.bind]
  congr 1
  funext outcome m
  cases outcome <;> rfl

end Drop

namespace Execution

/-- A closure made of `w` is destroyed once and in time. -/
structure Destroys (x : Execution) (index : Nat) (w : Wrapping) : Prop where
  once : x.events.countP (·.destroys index) ≤ 1
  words : ∀ target args, .called (.exported (.destructor index) target args) ∈ x.events →
    target = w.destructor.toNat ∧ args = [.i32 w.word, .i32 w.environment]
  /-- The shim does not run when the destructor is called. -/
  apart : ∀ y target args, Step x y →
    y.events = .called (.exported (.destructor index) target args) :: x.events →
    x.activations index = 0
  /-- Once the closure is dropped and no call of it is under way, the destructor has been called or
  is called next. -/
  prompt : .passed (.dropped index) ∈ x.events → x.loans index = [] →
    x.events.countP (·.destroys index) = 1 ∨ x.control.Calls (w.destruction index)
  /-- Whenever code outside runs, each call under way waits for the shim. -/
  waiting : x.control = .outside → x.activations index = (x.loans index).length
  /-- However the shim ends, its call leaves next, and then calls the destructor if the closure has
  been dropped. -/
  exit : ∀ caller callers, x.control = .outside → x.callers = caller :: callers →
    caller.callee.runs index → ∀ outcome, ∃ left task,
      caller.resume outcome x.machine = .pass (.left index (some w.word)) left task ∧
      (.passed (.dropped index) ∈ x.events → task.Calls (w.destruction index))
  /-- The first drop calls the destructor if no call is under way, and answers `true` if that
  succeeds. -/
  dropIdle : ∀ handle, x.machine.table.get handle = .ok (.function (.closure index)) →
    .passed (.dropped index) ∉ x.events → x.loans index = [] → ∃ dropped m,
      (Adapter.cbDrop handle).run x.machine = .pass (.dropped index) dropped
        (.call (w.destruction index) m fun outcome m => .done (outcome.map fun _ => true) m)
  /-- With a call under way, it calls nobody and answers `false`. -/
  dropBusy : ∀ handle, x.machine.table.get handle = .ok (.function (.closure index)) →
    .passed (.dropped index) ∉ x.events → x.loans index ≠ [] → ∃ dropped m,
      (Adapter.cbDrop handle).run x.machine = .pass (.dropped index) dropped (.done (.ok false) m)
  /-- A later drop fails, whether or not the destructor has been called. -/
  dropAgain : ∀ handle, x.machine.table.get handle = .ok (.function (.closure index)) →
    .passed (.dropped index) ∈ x.events → ∃ e m, e.kind = .closureReleased ∧
      (Adapter.cbDrop handle).run x.machine = .done (.error e) m
  /-- After the destructor has been called, the closure has been dropped and cannot be called. -/
  spent : x.events.countP (·.destroys index) = 1 → .passed (.dropped index) ∈ x.events ∧
    ∀ receiver args, ∃ e, e.kind = .closureReleased ∧
      (callFunction (.closure index) receiver args).run x.machine =
        .done (.error (.trap e)) x.machine
  /-- Nothing but the ends of earlier calls is heard of it any more. -/
  quiet : x.events.countP (·.destroys index) = 1 → ∀ y event, Step x y →
    y.events = event :: x.events → event.closure? = some index → ∃ callee, event = .returned callee

section Fates

variable {x y : Execution} {index : Nat} {w : Wrapping}

theorem Sound.due (sound : Sound index x) (made : (x.life index).origin = some w)
    (owes : (x.life index).Owes) : x.control.Calls (w.destruction index) := by
  obtain ⟨base, -, goesOn⟩ := sound.goesOn
  cases running : x.control with
  | outside =>
    rw [running] at goesOn
    exact absurd owes goesOn.1.paid
  | inside request task =>
    rw [running] at goesOn
    cases task with
    | done value m => exact absurd owes goesOn.2.1.paid
    | pass milestone m rest => exact absurd owes goesOn.1
    | abort => exact absurd owes goesOn.paid
    | call callee m resume =>
      obtain ⟨allowed, -, -, settled, -⟩ := goesOn
      by_cases own : callee.closure? = some index
      · have allowed := allowed own
        cases callee with
        | exported purpose target args =>
          cases purpose with
          | shim closure =>
            obtain ⟨w', -, busy, -⟩ := allowed
            rw [owes.2.1] at busy
            cases busy
          | destructor closure =>
            obtain ⟨w', made', -, rfl, rfl⟩ := allowed
            obtain rfl : w = w' := Option.some.inj (made.symm.trans made')
            obtain rfl : closure = index := Option.some.inj own
            exact ⟨m, resume, rfl⟩
          | asked => cases own
        | _ => cases own
      · have same : (x.life index).next index (.called callee) = x.life index :=
          Life.next_other own
        rw [same] at settled
        exact absurd owes settled.paid

theorem Sound.apart {target : Nat} {args : List Word} (sound : Sound index x)
    (before : (x.life index).Tallies w (x.closure index)) (later : Sound index y)
    (called : y.events = .called (.exported (.destructor index) target args) :: x.events) :
    x.activations index = 0 := by
  have lawful := later.lawful
  rw [called] at lawful
  obtain ⟨_, -, owes, -⟩ := lawful.2 rfl
  have idle : (x.life index).loans = [] := owes.2.1
  have shims := before.shims
  rw [idle] at shims
  rw [← sound.shims]
  exact Nat.le_zero.mp shims

theorem Sound.exit {caller : Caller} {callers : List Caller} (sound : Sound index x)
    (made : .passed (.made index w.word w.environment w.invoke w.destructor) ∈ x.events)
    (outside : x.control = .outside) (first : x.callers = caller :: callers)
    (runs : caller.callee.runs index) (outcome : caller.callee.Outcome) :
    ∃ left task, caller.resume outcome x.machine = .pass (.left index (some w.word)) left task ∧
      (.passed (.dropped index) ∈ x.events → task.Calls (w.destruction index)) := by
  obtain ⟨m, control, waiting, events⟩ := x
  subst outside first
  obtain ⟨base, ⟨outer, -, leaves, -⟩, goesOn⟩ := sound.goesOn
  obtain ⟨w', origin, leaves⟩ := leaves runs
  have same := goesOn.2.origin (by rw [origin]; rfl)
  obtain rfl : w = w' :=
    Option.some.inj ((Life.origin_of_made sound.lawful made).symm.trans (same.trans origin))
  obtain ⟨left, task, resumed⟩ := leaves outcome m
  refine ⟨left, task, resumed, fun dropped => ?_⟩
  -- The two steps that the end of the shim is followed by.
  have returned := sound.step (.resume outcome)
  rw [resumed] at returned
  have ended := returned.step .pass
  have made : .passed (.made index w.word w.environment w.invoke w.destructor) ∈
      .returned caller.callee :: events := List.mem_cons_of_mem _ made
  have t : (Life.told index (.returned caller.callee :: events)).Tallies w _ :=
    (returned.tallies made).2
  have loans := t.loans_eq (ended.lawful.2 rfl)
  have gone := Life.dropped_iff.mpr (List.mem_cons_of_mem (.returned caller.callee) dropped)
  apply ended.due (Life.origin_of_made ended.lawful (List.mem_cons_of_mem _ made))
  rw [life, Life.told, Life.next_own rfl]
  exact t.owes_after_left index loans gone

end Fates

theorem reaches_dropped_in_shim {m : Machine} {index : Nat} (fresh : m.closures.size = index)
    (w : Wrapping) : ∃ x, Reaches (start m) x ∧ x.control = .outside ∧ x.events =
      [.passed (.dropped index),
      .called (.exported (.shim index) w.invoke.toNat [.i32 w.word, .i32 w.environment]),
      .passed (.entered index (some w.word)),
      .passed (.made index w.word w.environment w.invoke w.destructor)] := by
  obtain ⟨x, reached, outside, events⟩ := reaches_shim fresh w
  have sound : Sound index x := (Sound.start (Nat.le_of_eq fresh)).reaches reached
  have life : x.life index =
      { origin := some w, loans := [some w.word], shims := 1 } := by
    simp [life, events, Life.told, Life.next, Life.after, Event.closure?, Milestone.closure,
      Callee.closure?]
  obtain ⟨found, t⟩ := sound.tallies (w := w) (by simp [events])
  obtain ⟨dropped, defers, -⟩ := t.drop_first index (by rw [life])
  rw [if_neg (by simp [life])] at defers
  -- The shim is still under way, so that the drop finds the closure busy and defers the destructor.
  have drops := dropClosure_eq index x.machine
  rw [closure_eq found, defers] at drops
  obtain ⟨m', control, callers, _⟩ := x
  subst outside events
  have asked : Reaches (start m)
      ⟨m', .inside (.dropClosure index) ((dropClosure index).run m'), callers, _⟩ :=
    reached.tail (.ask (.dropClosure index))
  rw [drops] at asked
  exact ⟨_, (asked.tail .pass).tail .finish, rfl, rfl⟩

/-- The destructor of a closure is called once, with the words that the closure was made of, when
the last of the host's reference and the calls under way goes. -/
theorem closure_destroyed {m : Machine} {x : Execution} {index : Nat}
    {word environment invoke destructor : UInt32} (unused : m.store.closures.size ≤ index)
    (reached : Reaches (start m) x)
    (made : .passed (.made index word environment invoke destructor) ∈ x.events) :
    x.Destroys index ⟨word, environment, invoke, destructor⟩ := by
  have sound : Sound index x := (Sound.start unused).reaches reached
  let w : Wrapping := ⟨word, environment, invoke, destructor⟩
  have origin : (x.life index).origin = some w := Life.origin_of_made sound.lawful made
  obtain ⟨found, t⟩ := sound.tallies (w := w) made
  have calls : (x.life index).destructions = x.events.countP (·.destroys index) :=
    Life.destructions_eq
  have dropped : (x.life index).dropped = true ↔ .passed (.dropped index) ∈ x.events :=
    Life.dropped_iff
  have stands (unheard : .passed (.dropped index) ∉ x.events) : (x.life index).dropped = false :=
    Bool.eq_false_iff.mpr (mt dropped.mp unheard)
  have most := t.destructions_le_one
  have destroyed (once : x.events.countP (·.destroys index) = 1) :
      (x.life index).destructions ≠ 0 := by
    omega
  exact {
    once := by rwa [← calls]
    words := by
      intro target args called
      obtain ⟨w', origin', words⟩ := Life.destructor_words sound.lawful called
      obtain rfl : w = w' := Option.some.inj (origin.symm.trans origin')
      exact words
    apart := by
      intro y target args step called
      exact sound.apart t (sound.step step) called
    prompt := by
      intro heard idle
      rw [← calls]
      by_cases first : (x.life index).destructions = 0
      · exact .inr (sound.due origin ⟨dropped.mpr heard, idle, first⟩)
      · exact .inl (by omega)
    waiting := by
      intro outside
      obtain ⟨base, -, goesOn⟩ := sound.goesOn
      rw [outside] at goesOn
      rw [← sound.shims]
      exact goesOn.1.served
    exit := by
      intro caller callers outside first runs outcome
      exact sound.exit made outside first runs outcome
    dropIdle := by
      intro handle denotes unheard idle
      exact cbDrop_idle t found denotes (stands unheard) idle
    dropBusy := by
      intro handle denotes unheard busy
      exact cbDrop_busy t found denotes (stands unheard) busy
    dropAgain := by
      intro handle denotes heard
      obtain ⟨m', drops⟩ := cbDrop_again t found denotes (dropped.mpr heard)
      exact ⟨_, m', rfl, drops⟩
    spent := by
      intro once
      have none := t.references_of_destroyed (destroyed once)
      refine ⟨dropped.mp (t.references_eq_zero.mp none).1, ?_⟩
      intro receiver args
      exact ⟨_, rfl, invokeClosure_gone t found none args⟩
    quiet := by
      intro once y event step events own
      have lawful := (sound.step step).lawful
      rw [events] at lawful
      exact t.allows_of_destroyed (destroyed once) own (lawful.2 own) }

theorem closure_destroyed_after_shim :
    ∃ x, Reaches (start (.create {} (.ofBytes .empty) {} {} ⟨0⟩)) x ∧
      .passed (.made 0 1 2 3 4) ∈ x.events ∧ .passed (.dropped 0) ∈ x.events ∧
      x.loans 0 = [some 1] ∧ x.Destroys 0 ⟨1, 2, 3, 4⟩ := by
  have fresh : (create {} (.ofBytes .empty) {} {} ⟨0⟩).closures.size = 0 :=
    congrArg Array.size (closures_create ..)
  obtain ⟨x, reached, -, events⟩ := reaches_dropped_in_shim fresh ⟨1, 2, 3, 4⟩
  have made : .passed (.made 0 1 2 3 4) ∈ x.events := by
    rw [events]
    exact .tail _ (.tail _ (.tail _ (.head _)))
  refine ⟨x, reached, made, ?_, ?_, closure_destroyed (Nat.le_of_eq fresh) reached made⟩
  · rw [events]
    exact .head _
  · rw [loans, life, events]
    rfl

end Execution

end SandboxBridge

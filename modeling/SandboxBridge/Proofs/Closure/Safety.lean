import SandboxBridge.Proofs.Closure.Invocation

/-!
Every execution respects the life of a closure that is made in it: what the machine stores of the
closure agrees with the events so far, and each event was allowed when it came.
-/

namespace SandboxBridge

def Event.destroys (index : Nat) : Event → Bool
  | .called (.exported (.destructor closure) ..) => closure = index
  | _ => false

namespace Life

/-- Every event of closure `index` was allowed when it came. -/
def Lawful (index : Nat) : List Event → Prop
  | [] => True
  | event :: earlier =>
    Lawful index earlier ∧ (event.closure? = some index → (told index earlier).Allows event)

theorem next_passed_shims (index : Nat) (l : Life) (milestone : Milestone) :
    (l.next index (.passed milestone)).shims = l.shims := by
  unfold next
  split
  · cases milestone <;> rfl
  · rfl

theorem next_called_shims (index : Nat) (l : Life) (callee : Callee) :
    (l.next index (.called callee)).shims =
      if callee.runs index then l.shims + 1 else l.shims := by
  cases callee with
  | exported purpose target args =>
    cases purpose with
    | shim closure | destructor closure =>
      by_cases own : closure = index <;>
        simp [next, after, Event.closure?, Callee.closure?, Callee.runs, own]
    | asked => simp [next, after, Callee.runs]
  | _ => simp [next, after, Callee.runs]

theorem next_returned_shims (index : Nat) (l : Life) (callee : Callee) :
    (l.next index (.returned callee)).shims =
      if callee.runs index then l.shims - 1 else l.shims := by
  cases callee with
  | exported purpose target args =>
    cases purpose with
    | shim closure | destructor closure =>
      by_cases own : closure = index <;>
        simp [next, after, Event.closure?, Callee.closure?, Callee.runs, own]
    | asked => simp [next, after, Callee.runs]
  | _ => simp [next, after, Callee.runs]

variable {index : Nat} {events : List Event} {w : Wrapping}

theorem next_origin {l : Life} {event : Event} (made : l.origin = some w)
    (allowed : event.closure? = some index → l.Allows event) :
    (l.next index event).origin = some w := by
  by_cases own : event.closure? = some index
  · rw [next_own own]
    have allowed := allowed own
    unfold after
    split
    next =>
      rw [show l = {} from allowed] at made
      cases made
    all_goals exact made
  · rw [next_other own, made]

theorem origin_of_made (lawful : Lawful index events)
    (made : .passed (.made index w.word w.environment w.invoke w.destructor) ∈ events) :
    (told index events).origin = some w := by
  induction events with
  | nil => cases made
  | cons event earlier ih =>
    rcases List.mem_cons.mp made with rfl | before
    · rw [told, next_own rfl]
      rfl
    · exact next_origin (ih lawful.1 before) lawful.2

theorem next_dropped (l : Life) (event : Event) :
    (l.next index event).dropped = true ↔
      event = .passed (.dropped index) ∨ l.dropped = true := by
  by_cases own : event.closure? = some index
  · rw [next_own own]
    unfold after
    split
    case h_4 closure =>
      have same : closure = index := Option.some.inj own
      simp [same]
    all_goals simp
    rintro rfl
    simp at *
  · have different : event ≠ .passed (.dropped index) := by
      rintro rfl
      exact own rfl
    simp [next_other own, different]

theorem dropped_iff : (told index events).dropped = true ↔ .passed (.dropped index) ∈ events := by
  induction events with
  | nil => simp [told]
  | cons event earlier ih => rw [told, next_dropped, ih, List.mem_cons, eq_comm]

theorem next_destructions (l : Life) (event : Event) :
    (l.next index event).destructions =
      l.destructions + if event.destroys index then 1 else 0 := by
  unfold next Event.destroys
  split
  next own =>
    unfold after
    split
    case h_7 closure _ _ =>
      have same : closure = index := Option.some.inj own
      simp [same]
    all_goals simp
  next other =>
    split
    next closure _ _ =>
      have different : closure ≠ index := fun same => other (congrArg some same)
      simp [different]
    next => rfl

theorem destructions_eq : (told index events).destructions = events.countP (·.destroys index) := by
  induction events with
  | nil => rfl
  | cons event earlier ih => rw [told, next_destructions, ih, List.countP_cons]

theorem destructor_words (lawful : Lawful index events) {target : Nat} {args : List Word}
    (called : .called (.exported (.destructor index) target args) ∈ events) :
    ∃ w, (told index events).origin = some w ∧ target = w.destructor.toNat ∧
      args = [.i32 w.word, .i32 w.environment] := by
  induction events with
  | nil => cases called
  | cons event earlier ih =>
    rcases List.mem_cons.mp called with rfl | before
    · obtain ⟨w, origin, -, words⟩ := lawful.2 rfl
      exact ⟨w, next_origin origin lawful.2, words⟩
    · obtain ⟨w, origin, words⟩ := ih lawful.1 before
      exact ⟨w, next_origin origin lawful.2, words⟩

end Life

namespace Execution

def life (x : Execution) (index : Nat) : Life :=
  .told index x.events

def activations (x : Execution) (index : Nat) : Nat :=
  x.callers.countP fun caller => caller.callee.runs index

def Waits (index : Nat) : List Caller → Life → Prop
  | [], base => base = {}
  | caller :: callers, base => ∃ outer, Waits index callers outer ∧
    (caller.callee.runs index → ∃ w, base.origin = some w ∧
      ∀ outcome m, (caller.resume outcome m).Leaves index (some w.word)) ∧
    ∀ outcome (m : Machine) (l : Life), l.Agrees m.closures[index]? → l.Settled → base.Resumes l →
      (caller.resume outcome m).Respects index outer (l.next index (.returned caller.callee))

def GoesOn (index : Nat) (base l : Life) : Control → Prop
  | .outside => l.Settled ∧ base.Resumes l
  | .inside _ task => task.Respects index base l

structure Sound (index : Nat) (x : Execution) : Prop where
  agrees : (x.life index).Agrees x.machine.closures[index]?
  lawful : Life.Lawful index x.events
  shims : (x.life index).shims = x.activations index
  goesOn : ∃ base, Waits index x.callers base ∧ GoesOn index base (x.life index) x.control

theorem Sound.start {m : Machine} {index : Nat} (unused : m.closures.size ≤ index) :
    Sound index (start m) where
  agrees := by
    rw [show (Execution.start m).machine.closures[index]? = none from
      Array.getElem?_eq_none unused]
    rfl
  lawful := trivial
  shims := rfl
  goesOn := by
    refine ⟨{}, rfl, ⟨?_, rfl⟩, Life.Resumes.refl {}⟩
    simp [Life.Owes, life, Execution.start, Life.told]

theorem Sound.step {index : Nat} {x y : Execution} (sound : Sound index x) (step : Step x y) :
    Sound index y := by
  obtain ⟨agrees, lawful, shims, base, waits, goesOn⟩ := sound
  cases step with
  | @ask m callers events request =>
    have respects : Run.Respects index request.perform := inferInstance
    exact ⟨agrees, lawful, shims, base, waits,
      (respects.task m _ agrees goesOn.1).weaken goesOn.2⟩
  | @pass m reached callers events request milestone rest =>
    obtain ⟨_, allowed, agrees, goesOn⟩ := goesOn
    exact ⟨agrees, ⟨lawful, fun own => allowed (Option.some.inj own)⟩,
      (Life.next_passed_shims _ _ _).trans shims, base, waits, goesOn⟩
  | @call m reached callers events request callee resume =>
    obtain ⟨allowed, leaves, agrees, settled, goesOn⟩ := goesOn
    have waits : Waits index (⟨request, callee, resume⟩ :: callers)
        ((Life.told index events).next index (.called callee)) := by
      refine ⟨base, waits, fun runs => ?_, goesOn⟩
      obtain ⟨w, origin, leaves⟩ := leaves runs
      exact ⟨w, Life.next_origin origin allowed, leaves⟩
    refine ⟨agrees.called allowed, ⟨lawful, allowed⟩, ?_, _, waits, settled, .refl _⟩
    have before : (Life.told index events).shims = _ := shims
    simp only [life, Life.told, activations, List.countP_cons] at before ⊢
    rw [Life.next_called_shims, before]
    split <;> simp
  | @resume m caller callers events outcome =>
    obtain ⟨outer, waits, leaves, resumes⟩ := waits
    refine ⟨agrees.returned _ _, ⟨lawful, fun _ => trivial⟩, ?_, outer, waits,
      resumes outcome m _ agrees goesOn.1 goesOn.2⟩
    have before : (Life.told index events).shims = _ := shims
    simp only [life, Life.told, activations, List.countP_cons] at before ⊢
    rw [Life.next_returned_shims, before]
    split <;> simp
  | @finish m reached callers events request answer =>
    exact ⟨goesOn.1, lawful, shims, base, waits, goesOn.2⟩

theorem Sound.reaches {index : Nat} {x y : Execution} (sound : Sound index x)
    (steps : Reaches x y) : Sound index y := by
  induction steps with
  | refl => exact sound
  | tail _ step ih => exact ih.step step

end Execution

end SandboxBridge

import SandboxBridge.Proofs.Closure.Safety

/-!
The reference count of a closure made in an execution is right at every moment: one for the host's
reference and one for each call under way. What is not to happen to a context word never does.
-/

namespace SandboxBridge

open Machine

namespace Machine

theorem withClosure_withClosure (m : Machine) (index : Nat) (c c' : Closure) :
    (m.withClosure index c).withClosure index c' = m.withClosure index c' := by
  simp [withClosure]

theorem withClosure_stored {m : Machine} {index : Nat} {c : Closure}
    (found : m.closures[index]? = some c) : m.withClosure index c = m := by
  have same : m.store.closures.set! index c = m.store.closures := by
    have found : m.store.closures[index]? = some c := found
    have inside : index < m.store.closures.size := (Array.getElem?_eq_some_iff.mp found).1
    apply Array.ext_getElem?
    intro place
    rw [Array.set!_eq_setIfInBounds, Array.getElem?_setIfInBounds, if_pos inside]
    split
    next own => rw [← own, found]
    next => rfl
  rw [withClosure, same]

end Machine

section Calls

variable {m : Machine} {index : Nat} {l : Life} {w : Wrapping} {c : Closure}

theorem invokeClosure_idle {args : List Value} {handles : List Handle} {m' : Machine}
    (t : l.Tallies w c) (found : m.closures[index]? = some c) (stands : c.references ≠ 0)
    (idle : l.loans = [])
    (placed : (allocateAll [] args).run
      (m.withClosure index { c with context := .borrowed, references := c.references + 1 }) =
        (.ok handles, m')) :
    (invokeClosure index args).run m =
      .pass (.entered index (some w.word))
        (m.withClosure index { c with context := .borrowed, references := c.references + 1 })
        (.call
          (.exported (.shim index) w.invoke.toNat
            (.i32 w.word :: .i32 w.environment :: handles.map fun handle => .ofNat handle.index))
          m' fun outcome m => (takeAnswer outcome m).bind (concludeCall index (some w.word))) := by
  rw [invokeClosure_eq, closure_eq found, t.enter_idle stands idle]
  dsimp only
  rw [serveClosure_lent_eq, callShim_eq, closure_eq (withClosure_own found _), placed, ← t.made.1,
    ← t.made.2.1]
  rfl

theorem invokeClosure_busy (t : l.Tallies w c) (found : m.closures[index]? = some c)
    (busy : l.loans ≠ []) (args : List Value) :
    (invokeClosure index args).run m =
      .pass (.entered index none)
        (m.withClosure index { c with context := .borrowed, references := c.references + 1 })
        (.pass (.left index none) m (.done (.error (.trap .invokedRecursively)) m)) := by
  have stands : c.references ≠ 0 := fun gone => busy (t.references_eq_zero.mp gone).2
  have entered := t.entered index stands (t.loans.resolve_left busy).refuse
  obtain ⟨leaves, -⟩ := entered.leave_refused index rfl
  have back : { c with context := .borrowed } = c := by
    rw [← t.borrowed_iff.mpr (t.mem_loans_iff.mpr busy)]
  rw [invokeClosure_eq, closure_eq found, t.enter_busy busy]
  simp only [serveClosure_refused_eq, concludeCall]
  rw [leaveClosure_eq, closure_eq (withClosure_own found _), leaves]
  simp only [Nat.add_sub_cancel, withClosure_withClosure, back, withClosure_stored found]
  rfl

theorem invokeClosure_gone (t : l.Tallies w c) (found : m.closures[index]? = some c)
    (gone : c.references = 0) (args : List Value) :
    (invokeClosure index args).run m = .done (.error (.trap .invokedAfterDrop)) m := by
  rw [invokeClosure_eq, closure_eq found, t.enter_gone gone]

end Calls

namespace Execution

def closure (x : Execution) (index : Nat) : Closure :=
  x.machine.closure index

/-- What each call of a closure that is under way was lent, the latest call first. -/
def loans (x : Execution) (index : Nat) : List (Option UInt32) :=
  (x.life index).loans

/-- The machine keeps account of a closure made with the context word `word`. -/
structure Accounts (x : Execution) (index : Nat) (word : UInt32) : Prop where
  alive : (x.closure index).alive = true ↔ .passed (.dropped index) ∉ x.events
  references : (x.closure index).references =
    (if (x.closure index).alive then 1 else 0) + (x.loans index).length
  released : (x.closure index).context = .released ↔ (x.closure index).references = 0
  borrowed : (x.closure index).context = .borrowed ↔ some word ∈ x.loans index
  lentOnce : (x.loans index).count (some word) ≤ 1 ∧
    ∀ lent ∈ x.loans index, lent = none ∨ lent = some word
  owned : (x.closure index).context ≠ .released → (x.closure index).context ≠ .borrowed →
    (x.closure index).context = .owned word
  activeOnce : x.activations index ≤ 1
  /-- A call while the word is lent out fails without a call of its own and leaves the machine as it
  was. -/
  recursive : (x.closure index).context = .borrowed → ∀ receiver args, ∃ entered,
    (callFunction (.closure index) receiver args).run x.machine =
      .pass (.entered index none) entered
        (.pass (.left index none) x.machine
          (.done (.error (.trap .invokedRecursively)) x.machine))
  gone : (x.closure index).context = .released → ∀ receiver args,
    (callFunction (.closure index) receiver args).run x.machine =
      .done (.error (.trap .invokedAfterDrop)) x.machine
  /-- So a call after a drop fails in one of these two ways. -/
  dropped : (x.closure index).alive = false →
    (x.closure index).context = .released ∨ (x.closure index).context = .borrowed
  findsContext : (x.closure index).drop.1 ≠ .error .contextMissing
  /-- Who leaves takes one reference, and not the last one unless the word was lent to it. -/
  leaving : ∀ y lent, Step x y → y.events = .passed (.left index lent) :: x.events →
    (x.closure index).references = (y.closure index).references + 1 ∧
    (lent = none → (y.closure index).references ≠ 0)
  dropping : ∀ y, Step x y → y.events = .passed (.dropped index) :: x.events →
    (x.closure index).references = (y.closure index).references + 1

theorem Sound.tallies {x : Execution} {index : Nat} {w : Wrapping} (sound : Sound index x)
    (made : .passed (.made index w.word w.environment w.invoke w.destructor) ∈ x.events) :
    x.machine.closures[index]? = some (x.closure index) ∧
      (x.life index).Tallies w (x.closure index) := by
  obtain ⟨c, found, t⟩ := sound.agrees.tallies (Life.origin_of_made sound.lawful made)
  have stored : x.closure index = c := closure_eq found
  rw [stored]
  exact ⟨found, t⟩

section Steps

variable {x y : Execution} {index : Nat} {w : Wrapping}

theorem Sound.leaving {lent : Option UInt32} (sound : Sound index y)
    (before : (x.life index).Tallies w (x.closure index))
    (after : (y.life index).Tallies w (y.closure index))
    (left : y.events = .passed (.left index lent) :: x.events) :
    (x.closure index).references = (y.closure index).references + 1 ∧
      (lent = none → (y.closure index).references ≠ 0) := by
  have lawful := sound.lawful
  have life : y.life index = (x.life index).after (.passed (.left index lent)) := by
    rw [Execution.life, left, Life.told, Life.next_own rfl]
    rfl
  rw [left] at lawful
  obtain ⟨rest, loans⟩ := List.head?_eq_some_iff.mp (lawful.2 rfl)
  change (x.life index).loans = _ at loans
  have count := before.references
  rw [before.alive, loans, List.length_cons] at count
  rw [life] at after
  constructor
  · rw [count, after.references, after.alive, Life.after_left, loans, List.erase_cons_head]
    rfl
  · rintro rfl
    obtain ⟨leaves, more, -⟩ := before.leave_refused index loans
    have same := after.references
    rw [after.alive, Life.after_left, loans, List.erase_cons_head] at same
    simp only at same
    omega

theorem dropping (sound : Sound index y) (before : (x.life index).Tallies w (x.closure index))
    (after : (y.life index).Tallies w (y.closure index))
    (dropped : y.events = .passed (.dropped index) :: x.events) :
    (x.closure index).references = (y.closure index).references + 1 := by
  have lawful := sound.lawful
  have life : y.life index = (x.life index).after (.passed (.dropped index)) := by
    rw [Execution.life, dropped, Life.told, Life.next_own rfl]
    rfl
  rw [dropped] at lawful
  have stood : (x.life index).dropped = false := lawful.2 rfl
  rw [life] at after
  rw [before.references, after.references, before.alive, after.alive, stood]
  simp only [Life.after]
  simp
  omega

end Steps

theorem reaches_shim {m : Machine} {index : Nat} (fresh : m.closures.size = index) (w : Wrapping) :
    ∃ x, Reaches (start m) x ∧ x.control = .outside ∧ x.events =
      [.called (.exported (.shim index) w.invoke.toNat [.i32 w.word, .i32 w.environment]),
      .passed (.entered index (some w.word)),
      .passed (.made index w.word w.environment w.invoke w.destructor)] := by
  subst fresh
  let index := m.closures.size
  let c : Closure := .wrap w.word w.environment w.invoke w.destructor
  let made : Machine := { m with store := { m.store with closures := m.closures.push c } }
  let request : Request := .callFunction (.closure index) .undefined []
  have found : made.closures[index]? = some c := Array.getElem?_push_size
  have called : (invokeClosure index []).run made = _ :=
    invokeClosure_idle (.wrap w) found Nat.one_ne_zero rfl rfl
  have wrapped : Reaches (start m) ⟨made, .outside, [], [.passed (.made index ..)]⟩ :=
    .tail (.tail (.single (.ask (.newClosure w.word w.environment w.invoke w.destructor))) .pass)
      .finish
  have asked : Reaches (start m)
      ⟨made, .inside request ((invokeClosure index []).run made), [], _⟩ :=
    wrapped.tail (.ask request)
  rw [called] at asked
  exact ⟨_, (asked.tail .pass).tail .call, rfl, rfl⟩

theorem closure_accounts {m : Machine} {x : Execution} {index : Nat}
    {word environment invoke destructor : UInt32} (unused : m.store.closures.size ≤ index)
    (reached : Reaches (start m) x)
    (made : .passed (.made index word environment invoke destructor) ∈ x.events) :
    x.Accounts index word := by
  have sound : Sound index x := (Sound.start unused).reaches reached
  obtain ⟨found, t⟩ := sound.tallies (w := ⟨word, environment, invoke, destructor⟩) made
  have later {y : Execution} {event : Event} (step : Step x y)
      (events : y.events = event :: x.events) :
      (y.life index).Tallies ⟨word, environment, invoke, destructor⟩ (y.closure index) := by
    have made' := List.mem_cons_of_mem event made
    rw [← events] at made'
    exact ((sound.step step).tallies made').2
  exact {
    alive := by
      rw [t.alive, ← Life.dropped_iff, Bool.not_eq_true', Bool.not_eq_true]
      rfl
    references := t.references
    released := t.released_iff
    borrowed := t.borrowed_iff
    lentOnce := t.count_loans
    owned := by
      intro stands unlent
      have context := t.context
      rw [if_neg (mt t.released_iff.mpr stands)] at context
      split at context
      · exact context
      · exact absurd context unlent
    activeOnce := by
      rw [← sound.shims]
      exact t.shims_le_one
    recursive := by
      intro borrowed receiver args
      have busy := t.mem_loans_iff.mp (t.borrowed_iff.mp borrowed)
      exact ⟨_, invokeClosure_busy t found busy args⟩
    gone := by
      intro released receiver args
      exact invokeClosure_gone t found (t.released_iff.mp released) args
    dropped := by
      intro dead
      rw [t.released_iff, t.borrowed_iff, t.mem_loans_iff, t.references, dead]
      simp [Decidable.em]
    findsContext := t.drop_finds_context
    leaving := by
      intro y lent step left
      exact (sound.step step).leaving t (later step left) left
    dropping := by
      intro y step dropped
      exact dropping (sound.step step) t (later step dropped) dropped }

theorem closure_accounts_in_shim :
    ∃ x, Reaches (start (.create {} (.ofBytes .empty) {} {} ⟨0⟩)) x ∧
      .passed (.made 0 1 2 3 4) ∈ x.events ∧ x.loans 0 = [some 1] ∧ x.Accounts 0 1 := by
  have fresh : (create {} (.ofBytes .empty) {} {} ⟨0⟩).closures.size = 0 :=
    congrArg Array.size (closures_create ..)
  obtain ⟨x, reached, -, events⟩ := reaches_shim fresh ⟨1, 2, 3, 4⟩
  have made : .passed (.made 0 1 2 3 4) ∈ x.events := by
    rw [events]
    exact .tail _ (.tail _ (.head _))
  refine ⟨x, reached, made, ?_, closure_accounts (Nat.le_of_eq fresh) reached made⟩
  rw [loans, life, events]
  rfl

end Execution

end SandboxBridge

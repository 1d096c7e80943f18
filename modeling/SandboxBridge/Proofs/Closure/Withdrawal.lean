import SandboxBridge.Proofs.Closure.Passage
import SandboxBridge.Proofs.Closure.References
import SandboxBridge.Proofs.Upkeep

/-!
Calls of closures that are refused: the closure is gone, or its context word is lent out, or there is
no room for the arguments. No module code has run then, and nothing tells that the call was tried.
-/

namespace SandboxBridge

open Machine

inductive Task.Refuses (e : Error) (last : Machine) : Task (Except Fault Value) → Prop
  | done : Refuses e last (.done (.error (.trap e)) last)
  | pass {milestone : Milestone} {m : Machine} {rest : Task (Except Fault Value)}
    (later : Refuses e last rest) : Refuses e last (.pass milestone m rest)

/-- A call of a closure is refused with an error of a kind, before any code is called. All that may
have changed is the log and the list of free handles. -/
def Machine.RefusesCall (m : Machine) (index : Nat) (args : List Value) (kind : ErrorKind) : Prop :=
  ∃ e t journal, e.kind = kind ∧
    Task.Refuses e { m with table := t, journal } ((invokeClosure index args).run m) ∧
    t.WellFormed ∧ m.table.Alike t

namespace Machine

variable {m : Machine} {index : Nat} {args : List Value}

theorem RefusesCall.of_same {e : Error} (formed : m.table.WellFormed)
    (refuses : Task.Refuses e m ((invokeClosure index args).run m)) :
    m.RefusesCall index args e.kind :=
  ⟨e, m.table, m.journal, rfl, refuses, formed, fun _ _ => Iff.rfl, rfl⟩

theorem refusesCall_released (formed : m.table.WellFormed)
    (released : (m.closure index).context = .released) :
    m.RefusesCall index args .closureReleased := by
  have refused : (m.closure index).enter = .error .invokedAfterDrop := by
    unfold Closure.enter
    rw [released]
  have refuses : Task.Refuses .invokedAfterDrop m ((invokeClosure index args).run m) := by
    rw [invokeClosure_eq, refused]
    exact .done
  exact .of_same formed refuses

theorem leave_entered {c : Closure} {word : UInt32} (owned : c.context = .owned word)
    (stands : c.references ≠ 0) :
    Closure.leave { c with context := .borrowed, references := c.references + 1 } (some word) =
      (none, c) := by
  have left : { c with context := .owned word } = c := by rw [← owned]
  unfold Closure.leave
  simp only [Nat.add_sub_cancel, if_neg stands, left]

theorem refusesCall_full {word : UInt32} (formed : m.table.WellFormed)
    (owned : (m.closure index).context = .owned word)
    (stands : (m.closure index).references ≠ 0) (full : ¬m.table.Room args.length) :
    m.RefusesCall index args .handleLimit := by
  have lent : (m.lending index).table.WellFormed := formed
  obtain ⟨t, journal, failed, after, alike⟩ := run_allocateAll_full lent full
  let last : Machine := { m.lending index with table := t, journal }
  have served : (serveClosure index (some word) args).run (m.lending index) =
      concludeCall index (some word) (.error (.trap .tableFull)) last := by
    rw [serveClosure_lent_eq, callShim_eq, failed]
    rfl
  have entered : last.closure index = { m.closure index with
      context := .borrowed, references := (m.closure index).references + 1 } :=
    closure_lending owned
  have restored : last.withClosure index (m.closure index) = { m with table := t, journal } := by
    have back : (m.lending index).withClosure index (m.closure index) = m := by
      rw [lending, withClosure_withClosure, withClosure_stored (exists_of_owned owned)]
    exact congrArg (fun m : Machine => { m with table := t, journal }) back
  refine ⟨.tableFull, t, journal, rfl, ?_, after, alike⟩
  rw [invokeClosure_owned owned, served]
  unfold concludeCall
  rw [leaveClosure_eq, entered, leave_entered owned stands]
  dsimp only
  rw [restored]
  exact .pass (.pass .done)

end Machine

namespace Execution

/-- In every state that a bridge comes to, a call of a closure is refused if the closure is gone, if
its context word is lent to another call, or if there is no room for all arguments. -/
theorem invocation_refused {settings : Settings} {memory : Memory} {guest : Guest} {store : Store}
    {global : ObjectId} {x : Execution} {index : Nat}
    (reached : Reaches (start (create settings memory guest store global)) x)
    (unused : store.closures.size ≤ index) (args : List Value) :
    ((x.closure index).context = .released →
      x.machine.RefusesCall index args .closureReleased) ∧
    ((x.closure index).context = .borrowed →
      x.machine.RefusesCall index args .closureReentered) ∧
    ∀ word, (x.closure index).context = .owned word → ¬x.machine.table.Room args.length →
      x.machine.RefusesCall index args .handleLimit := by
  have formed := (upkept_reaches (.create settings memory guest store global) reached).formed
  have fresh : (create settings memory guest store global).closures.size ≤ index := by
    rw [closures_create]
    exact unused
  have sound : Sound index x := (Sound.start fresh).reaches reached
  have tallies (stands : (x.closure index).context ≠ .released) :
      x.machine.closures[index]? = some (x.closure index) ∧
        ∃ w, (x.life index).Tallies w (x.closure index) := by
    have agrees := sound.agrees
    cases found : x.machine.closures[index]? with
    | none => exact absurd (congrArg Closure.context (closure_eq_missing found)) stands
    | some c =>
      rw [found] at agrees
      obtain ⟨w, t⟩ := agrees
      rw [closure, closure_eq found]
      exact ⟨rfl, w, t⟩
  refine ⟨refusesCall_released formed, fun borrowed => ?_, fun word owned full => ?_⟩
  · obtain ⟨found, w, t⟩ := tallies (by rw [borrowed]; nofun)
    have busy := t.mem_loans_iff.mp (t.borrowed_iff.mp borrowed)
    refine .of_same (e := .invokedRecursively) formed ?_
    rw [invokeClosure_busy t found busy]
    exact .pass (.pass .done)
  · obtain ⟨-, w, t⟩ := tallies (by rw [owned]; nofun)
    have stands : (x.closure index).references ≠ 0 := by
      rw [ne_eq, ← t.released_iff, owned]
      nofun
    exact refusesCall_full formed owned stands full

/-- There is a handle for the first of two arguments, and none for the second. -/
theorem invocation_refused_second : ∃ x,
    Reaches (start (create { maxHandles := some 5 } (.ofBytes .empty) {} {} ⟨0⟩)) x ∧
    (x.closure 0).context = .owned 7 ∧ x.machine.table.Room 1 ∧
    x.machine.RefusesCall 0 [.null, .bool true] .handleLimit := by
  have unused : (create { maxHandles := some 5 } (.ofBytes .empty) {} {} ⟨0⟩).closures.size = 0 :=
    congrArg Array.size (closures_create ..)
  have empty : (create { maxHandles := some 5 } (.ofBytes .empty) {} {} ⟨0⟩).table =
      .empty (some 5) := congrArg Prod.fst (core_create ..)
  have refused (x : Execution)
      (reached : Reaches (start (create { maxHandles := some 5 } (.ofBytes .empty) {} {} ⟨0⟩)) x) :
      (x.closure 0).context = .owned 7 → ¬x.machine.table.Room 2 →
        x.machine.RefusesCall 0 [.null, .bool true] .handleLimit :=
    (invocation_refused reached (Nat.le_refl 0) [.null, .bool true]).2.2 7
  revert unused empty refused
  generalize create { maxHandles := some 5 } (.ofBytes .empty) {} {} ⟨0⟩ = m
  intro unused empty refused
  let made : Machine := { m with store := { m.store with
    closures := m.closures.push (.wrap 7 8 0 0) } }
  have reached : Reaches (start m)
      ⟨made, .outside, [], [.passed (.made m.closures.size 7 8 0 0)]⟩ :=
    .tail (.tail (.single (.ask (.newClosure 7 8 0 0))) .pass) .finish
  have owned : (made.closure 0).context = .owned 7 := by
    have found : made.closures[0]? = some (.wrap 7 8 0 0) := by
      rw [← unused]
      exact Array.getElem?_push_size
    rw [closure_eq found]
    rfl
  obtain ⟨free, size, limited⟩ : made.table.freeHandles.length = 0 ∧ made.table.size = 4 ∧
      made.table.limit = some 5 := by
    rw [show made.table = .empty (some 5) from empty]
    exact ⟨rfl, rfl, rfl⟩
  refine ⟨_, reached, owned, ?_, refused _ reached owned fun room => ?_⟩
  · intro most same
    rw [limited] at same
    cases same
    rw [free, size]
  · have some_handles := room 5 limited
    rw [free, size] at some_handles
    exact absurd some_handles (by decide)

end Execution

end SandboxBridge

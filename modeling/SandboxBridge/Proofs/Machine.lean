import SandboxBridge.Machine.Strings
import SandboxBridge.Proofs.Work

/-!
Work of a machine on its memory and its allocator: it does to these parts what the work on them
does, and to nothing else but the log.
-/

namespace SandboxBridge.Machine

open Work (run_modifyGet_state)

variable {α : Type}

theorem run_forM_note (target : String) (lines : List (Level × String)) (m : Machine) :
    ∃ journal, (lines.forM fun (level, message) => note level target message).run m =
      ((), { m with journal }) := by
  induction lines generalizing m with
  | nil => exact ⟨m.journal, rfl⟩
  | cons line rest ih => exact ih _

theorem run_notingMemory (work : StateM Machine α) (m : Machine) :
    ∃ journal, (notingMemory work).run m =
      ((work.run m).1, { (work.run m).2 with journal }) := by
  obtain ⟨journal, noted⟩ := run_forM_note LogTarget.memory
    (memoryNotes (.of m.memory) (work.run m).2.memory) (work.run m).2
  refine ⟨journal, ?_⟩
  exact congrArg (fun done : Unit × Machine => ((work.run m).1, done.2)) noted

theorem run_onMemory (work : Memory.Action α) (m : Machine) :
    ∃ journal, (onMemory work).run m =
      ((work.run m.memory).1, { m with memory := (work.run m.memory).2, journal }) :=
  run_notingMemory _ m

theorem run_onAllocator (work : Allocator.Action α) (m : Machine) :
    ∃ journal, (onAllocator work).run m =
      ((work.run (m.guest.allocator, m.memory)).1,
        { m with
          guest := { m.guest with allocator := (work.run (m.guest.allocator, m.memory)).2.1 }
          memory := (work.run (m.guest.allocator, m.memory)).2.2
          journal }) :=
  run_notingMemory _ m

@[simp]
theorem run_settle (work : Local α) (m : Machine) :
    (settle work).run m = (.ok (work.run m).1, (work.run m).2) :=
  rfl

def recorded (m : Machine) (call : AllocatorCall) : Machine :=
  { m with guest := { m.guest with calls := m.guest.calls.push call } }

def answering (entry : AllocatorEntry) (work : Local Nat) : Local Nat := do
  let value ← work
  return if entry = .free then 0 else value

theorem run_callAllocator (entry : AllocatorEntry) (args : List Nat) (work : Local Nat)
    (m : Machine) :
    (callAllocator entry args work).run m =
      let (next, m) := (nextOverride entry).run m
      let (result, m) := (answering entry (overridden work next)).run m
      (result, m.recorded ⟨entry, args, result⟩) :=
  rfl

theorem run_nextOverride_normal {entry : AllocatorEntry} {m : Machine}
    (normal : m.guest.overrides entry = []) : (nextOverride entry).run m = (.normal, m) := by
  unfold nextOverride
  rw [run_modifyGet_state, normal]

theorem run_callAllocator_normal {entry : AllocatorEntry} (args : List Nat) (work : Local Nat)
    {m : Machine} (normal : m.guest.overrides entry = []) :
    (callAllocator entry args work).run m =
      let (result, m) := (answering entry work).run m
      (result, m.recorded ⟨entry, args, result⟩) := by
  rw [run_callAllocator, run_nextOverride_normal normal]
  rfl

end SandboxBridge.Machine

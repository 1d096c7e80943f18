import SandboxBridge.Proofs.Contract
import SandboxBridge.Proofs.Imports.Refusal

/-!
The exception that waits for the module: the slot holds a live handle of it, and none if there is
none. Work with other handles leaves it there, and the next exception takes its place.
-/

namespace SandboxBridge.Machine

open Work

/-- The slot holds a live handle of the exception that waits, and none if none does. -/
structure Awaits (waiting : Option Value) (m : Machine) : Prop where
  formed : m.table.WellFormed
  offers : m.OffersImports
  empty_iff : m.pending.current = none ↔ waiting = none
  denotes : ∀ h, m.pending.current = some h → Handle.reserved ≤ h.index ∧
    ∃ exception, waiting = some exception ∧ m.table.get h = .ok exception

namespace Awaits

variable {waiting : Option Value} {m m' : Machine} {h : Handle} {value : Value} {e : Error}

theorem live (awaits : m.Awaits waiting) (pending : m.pending.current = some h) :
    m.table.isLive h := by
  obtain ⟨-, exception, -, found⟩ := awaits.denotes h pending
  exact HandleTable.isLive_of_get found

theorem of_custody (awaits : m.Awaits waiting) (same : m'.custody = m.custody) :
    m'.Awaits waiting := by
  simp only [custody, Prod.mk.injEq] at same
  obtain ⟨table, pending, settings, imports⟩ := same
  obtain ⟨formed, offers, empty_iff, denotes⟩ := awaits
  unfold OffersImports at offers
  rw [← table] at formed denotes
  rw [← pending] at empty_iff denotes
  rw [← settings, ← imports] at offers
  exact ⟨formed, offers, empty_iff, denotes⟩

theorem next_ne (awaits : m.Awaits waiting) (next : m.table.next = .ok h) {old : Handle}
    (pending : m.pending.current = some old) : old ≠ h := by
  rintro rfl
  have live := awaits.live pending
  rw [HandleTable.isLive_next next] at live
  cases live

theorem get_kept (awaits : m.Awaits waiting) {t : HandleTable} (formed : t.WellFormed)
    (kept : ∀ h, m.pending.current = some h → t.get h = m.table.get h) (journal : Journal) :
    Awaits waiting { m with table := t, journal } where
  formed := formed
  offers := awaits.offers
  empty_iff := awaits.empty_iff
  denotes h pending := by
    obtain ⟨high, exception, waits, found⟩ := awaits.denotes h pending
    exact ⟨high, exception, waits, (kept h pending).trans found⟩

theorem allocate (awaits : m.Awaits waiting) (value : Value) :
    Awaits waiting ((Machine.allocate value).run m).2 := by
  cases next : m.table.next with
  | error e =>
    rw [run_allocate_error value next]
    exact awaits
  | ok h =>
    obtain ⟨journal, ran⟩ := run_allocate_ok value next
    obtain ⟨formed, gains⟩ := awaits.formed.occupy next value
    rw [ran]
    exact awaits.get_kept formed (fun old pending => gains.others old (awaits.next_ne next pending))
      journal

theorem release (awaits : m.Awaits waiting) (mine : m.pending.current ≠ some h) :
    Awaits waiting ((take h).run m).2 := by
  cases claimed : m.table.claim h with
  | error e =>
    rw [run_take_error claimed]
    exact awaits
  | ok value =>
    obtain ⟨journal, ran⟩ := run_take_ok claimed
    rw [ran]
    obtain ⟨formed, ⟨-, same⟩ | ⟨-, loses⟩⟩ :=
      awaits.formed.vacate_of_get (HandleTable.claim_ok_iff.mp claimed)
    · exact awaits.get_kept formed (fun old _ => congrArg (HandleTable.get · old) same) journal
    · refine awaits.get_kept formed (fun old pending => loses.others old ?_) journal
      rintro rfl
      exact mine pending

theorem parks (awaits : m.Awaits waiting) (exception : Value) :
    Parks exception m ((Machine.park exception).run m) :=
  Machine.parks exception awaits.formed fun old pending =>
    ⟨(awaits.denotes old pending).1, awaits.live pending⟩

theorem park_full (awaits : m.Awaits waiting) (full : m.table.Full) (exception : Value) :
    (Machine.park exception).run m = (.error .tableFull, m) :=
  run_park_error exception ((awaits.formed.next_error_iff .tableFull).mpr ⟨rfl, full⟩)

theorem park (awaits : m.Awaits waiting) (room : ¬m.table.Full) (exception : Value) :
    Awaits (some exception) ((Machine.park exception).run m).2 := by
  have parks := awaits.parks exception
  revert parks
  generalize (Machine.park exception).run m = done
  intro parks
  cases parks with
  | full none => exact absurd none room
  | empty none formed gains =>
    refine ⟨formed, awaits.offers, by simp, ?_⟩
    rintro _ ⟨⟩
    exact ⟨gains.unreserved, exception, rfl, gains.denotes⟩
  | @superseding h old t t' journal pending formed gains loses =>
    refine ⟨formed, awaits.offers, by simp, ?_⟩
    rintro _ ⟨⟩
    have different : h ≠ old := by
      rintro rfl
      have live := awaits.live pending
      rw [gains.fresh] at live
      cases live
    exact ⟨gains.unreserved, exception, rfl, (loses.others h different).trans gains.denotes⟩

theorem takePending (awaits : m.Awaits waiting) : Awaits none (Machine.takePending.run m).2 where
  formed := awaits.formed
  offers := awaits.offers
  empty_iff := iff_of_true rfl rfl
  denotes _ pending := nomatch pending

theorem reset (awaits : m.Awaits waiting) : Awaits none (Machine.reset.run m).2 where
  formed := m.table.wellFormed_reset
  offers := awaits.offers
  empty_iff := iff_of_true rfl rfl
  denotes _ pending := nomatch pending

theorem create (settings : Settings) (memory : Memory) (guest : Guest) (store : Store)
    (global : ObjectId) : Awaits none (create settings memory guest store global) := by
  apply of_custody _ (custody_create settings memory guest store global)
  exact ⟨HandleTable.wellFormed_empty _, Registry.empty.find?_registerImports _,
    iff_of_true rfl rfl, fun _ pending => nomatch pending⟩

end Awaits

end SandboxBridge.Machine

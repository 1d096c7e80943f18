import SandboxBridge.Proofs.Contract
import SandboxBridge.Proofs.Imports.Registration

/-!
What holds of a bridge whatever the code around it does: its handle table is well-formed, the slot
for exceptions holds no permanent handle, and imports are found under their names.
-/

namespace SandboxBridge

open Machine Work Discipline

namespace Machine

structure Upkept (m : Machine) : Prop where
  formed : m.table.WellFormed
  offers : m.OffersImports
  unreserved : ∀ h, m.pending.current = some h → Handle.reserved ≤ h.index

namespace Upkept

variable {m m' : Machine} {h : Handle}

theorem of_custody (upkept : m.Upkept) (same : m'.custody = m.custody) : m'.Upkept := by
  simp only [custody, Prod.mk.injEq] at same
  obtain ⟨table, pending, settings, imports⟩ := same
  obtain ⟨formed, offers, unreserved⟩ := upkept
  unfold OffersImports at offers
  rw [← table] at formed
  rw [← pending] at unreserved
  rw [← settings, ← imports] at offers
  exact ⟨formed, offers, unreserved⟩

theorem allocate (upkept : m.Upkept) (value : Value) :
    Upkept ((Machine.allocate value).run m).2 := by
  cases next : m.table.next with
  | error e =>
    rw [run_allocate_error value next]
    exact upkept
  | ok h =>
    obtain ⟨journal, ran⟩ := run_allocate_ok value next
    rw [ran]
    exact ⟨(upkept.formed.occupy next value).1, upkept.offers, upkept.unreserved⟩

theorem take (upkept : m.Upkept) (h : Handle) : Upkept ((Machine.take h).run m).2 := by
  cases claimed : m.table.claim h with
  | error e =>
    rw [run_take_error claimed]
    exact upkept
  | ok value =>
    obtain ⟨journal, ran⟩ := run_take_ok claimed
    rw [ran]
    have formed := (upkept.formed.vacate_of_get (HandleTable.claim_ok_iff.mp claimed)).1
    exact ⟨formed, upkept.offers, upkept.unreserved⟩

theorem release (upkept : m.Upkept) (h : Handle) : Upkept ((Machine.release h).run m).2 := by
  rw [run_release_snd]
  exact upkept.take h

theorem park (upkept : m.Upkept) (exception : Value) :
    Upkept ((Machine.park exception).run m).2 := by
  cases next : m.table.next with
  | error e =>
    rw [run_park_error exception next]
    exact upkept
  | ok h =>
    obtain ⟨formed, gains⟩ := upkept.formed.occupy next exception
    have unreserved : ∀ other, some h = some other → Handle.reserved ≤ other.index := by
      rintro _ ⟨⟩
      exact gains.unreserved
    cases pending : m.pending.current with
    | none =>
      obtain ⟨journal, ran⟩ := run_park_empty exception next pending
      rw [ran]
      exact ⟨formed, upkept.offers, unreserved⟩
    | some old =>
      obtain ⟨journal, ran⟩ := run_park_over exception next pending
      have stored : Upkept { m with
          table := m.table.occupy exception, pending := ⟨some h⟩, journal } :=
        ⟨formed, upkept.offers, unreserved⟩
      rw [ran]
      exact stored.release old

theorem create (settings : Settings) (memory : Memory) (guest : Guest) (store : Store)
    (global : ObjectId) : Upkept (create settings memory guest store global) := by
  apply of_custody _ (custody_create settings memory guest store global)
  exact ⟨HandleTable.wellFormed_empty _, Registry.empty.find?_registerImports _, nofun⟩

end Upkept

end Machine

/-- The code around the bridge is free. -/
abbrev Contract.upkeep : Contract :=
  .preserving Upkept fun _ => True

open Contract

instance : MindsCore upkeep.discipline.rule :=
  ⟨fun keeps => allows_of_leads fun m _ upkept =>
    upkept.of_custody ((keeps_custody keeps).same m)⟩

instance : AllowsTaking upkeep.discipline.rule where
  allocate value := allows_of_leads fun _ _ upkept => upkept.allocate value
  park exception := allows_of_leads fun _ _ upkept => upkept.park exception
  takePending := allows_of_leads fun _ _ upkept => ⟨upkept.formed, upkept.offers, nofun⟩
  reset := allows_of_leads fun m _ upkept => ⟨m.table.wellFormed_reset, upkept.offers, nofun⟩
  take handle := allows_of_leads fun _ _ upkept => upkept.take handle

instance : AllowsClosures upkeep :=
  .of_taking fun keeps m _ upkept => upkept.of_custody ((custody_of_holdings keeps).same m)

namespace Execution

theorem upkept_reaches {m : Machine} (upkept : m.Upkept) {x : Execution}
    (reached : Reaches (start m) x) : x.machine.Upkept := by
  have free (y z : Execution) (step : Step y z) : upkeep.Honours y z :=
    .of_step (fun _ _ => trivial) (fun _ _ _ => trivial) step
  have honoured : upkeep.Reaches (start m) x := Relation.ReflTransGen.mono free _ _ reached
  exact sound_of_reaches (fun _ _ _ => MindsCore.aside inferInstance) upkept honoured

end Execution

end SandboxBridge

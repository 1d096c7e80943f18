import SandboxBridge.Proofs.Contract
import SandboxBridge.Proofs.Imports.Quiet
import SandboxBridge.Proofs.Imports.Refusal

/-!
Handles in an account: what a quiet call of an import does to the live handles is to consume the
argument that the import owns, to make the handle that it returns, or to park an exception in the
place of another. A call that fails does nothing to them.
-/

namespace SandboxBridge

open Machine Work Discipline

variable {α β ε : Type}

/-- From a table to the next, a fresh handle has been created, or none. -/
inductive HandleTable.Creates (t : HandleTable) : Option Handle → HandleTable → Prop
  | nothing : Creates t none t
  | fresh {h : Handle} {value : Value} {t' : HandleTable} (gains : t.Gains h value t') :
    Creates t (some h) t'

def Handle.Fresh (h : Handle) (created : Option Handle) : Prop :=
  created = some h

def Handle.Optional (h : Handle) (created : Option Handle) : Prop :=
  created.getD .undefined = h

/-- How quiet work ends: it fails and the table is as it was, or it makes for its value what `made`
tells, a handle or none. -/
structure Machine.Yields (made : α → Option Handle → Prop) (m : Machine) (result : Except ε α)
    (m' : Machine) (slot : ExceptionSlot) : Prop where
  pending : m'.pending = slot
  rests : m.pending.Rests slot
  failed : ∀ e, result = .error e → m'.table = m.table
  made : ∀ value, result = .ok value → ∃ created, made value created ∧
    m.table.Creates created m'.table

namespace Run

/-- The work makes at most one handle, as `made` tells from its value. -/
def Yields (made : α → Option Handle → Prop) (run : Run (Except ε α)) : Prop :=
  ∀ m result m' slot, m.table.WellFormed → (run m).Quietly m.pending result m' slot →
    m.Yields made result m' slot

variable {made : α → Option Handle → Prop}

theorem Spares.yields {run : Run (Except ε α)} (spares : run.Spares)
    (nothing : ∀ value, made value none) : run.Yields made := by
  intro m result m' slot _ quietly
  obtain ⟨table, pending, rests⟩ := spares.allowed m result m' slot quietly
  refine ⟨pending, rests, fun _ _ => table, fun value _ => ⟨none, nothing value, ?_⟩⟩
  rw [table]
  exact .nothing

theorem Yields.after {work : ExceptT ε Run β} {next : β → ExceptT ε Run α}
    (spares : work.run.Spares) (rest : ∀ value, (next value).run.Yields made) :
    (work >>= next).run.Yields made := by
  intro m result m' slot formed quietly
  obtain ⟨between, m₁, slot₁, before, after⟩ := Task.Quietly.of_bind quietly
  obtain ⟨table, pending, rests⟩ := spares.allowed m between m₁ slot₁ before
  subst pending
  cases between with
  | error e =>
    cases after with
    | done =>
      refine ⟨rfl, rests, fun _ _ => table, ?_⟩
      rintro _ ⟨⟩
  | ok value =>
    obtain ⟨pending', rests', failed, made⟩ :=
      rest value m₁ result m' slot (by rwa [table]) after
    rw [table] at failed made
    exact ⟨pending', rests.trans rests', failed, made⟩

theorem Yields.andThen {made' : β → Option Handle → Prop} {work : ExceptT ε Run α}
    {next : α → ExceptT ε Run β} (yields : work.run.Yields made)
    (spares : ∀ value, (next value).run.Spares)
    (carries : ∀ value m result m' slot, ((next value).run m).Quietly m.pending result m' slot →
      ∃ value', result = .ok value' ∧ ∀ created, made value created → made' value' created) :
    (work >>= next).run.Yields made' := by
  intro m result m' slot formed quietly
  obtain ⟨between, m₁, slot₁, before, after⟩ := Task.Quietly.of_bind quietly
  obtain ⟨pending, rests, failed, made⟩ := yields m between m₁ slot₁ formed before
  subst pending
  cases between with
  | error e =>
    cases after with
    | done =>
      refine ⟨rfl, rests, fun _ _ => failed e rfl, ?_⟩
      rintro _ ⟨⟩
  | ok value =>
    obtain ⟨table, pending', rests'⟩ := (spares value).allowed m₁ result m' slot after
    obtain ⟨value', rfl, carries⟩ := carries value m₁ result m' slot after
    refine ⟨pending', rests.trans rests', nofun, ?_⟩
    rintro _ ⟨⟩
    rw [table]
    obtain ⟨created, tells, creates⟩ := made value rfl
    exact ⟨created, carries created tells, creates⟩

end Run

namespace Local

def Yields (made : α → Option Handle → Prop) (work : Local α) : Prop :=
  ∀ m : Machine, m.table.WellFormed → m.Yields made (work.run m).1 (work.run m).2 m.pending

variable {made : α → Option Handle → Prop}

theorem Yields.quiet {work : Local α} (yields : work.Yields made) :
    (liftM work : Op α).run.Yields made := by
  intro m result m' slot formed quietly
  cases quietly with
  | done => exact yields m formed

theorem Yields.hosted {work : Local α} (yields : work.Yields made) :
    (liftM work : Host α).run.Yields made := by
  intro m result m' slot formed quietly
  rw [Host.run_local] at quietly
  obtain ⟨pending, rests, failed, made⟩ := yields m formed
  revert quietly pending failed made
  rcases work.run m with ⟨e | value, reached⟩ <;> intro quietly pending failed made <;>
    cases quietly
  · refine ⟨pending, rests, fun _ _ => failed e rfl, ?_⟩
    rintro _ ⟨⟩
  · refine ⟨pending, rests, nofun, ?_⟩
    rintro _ ⟨⟩
    exact made value rfl

theorem yields_allocate (value : Value) : (allocate value).Yields Handle.Fresh := by
  intro m formed
  cases next : m.table.next with
  | error e =>
    rw [run_allocate_error value next]
    exact ⟨rfl, .inl rfl, fun _ _ => rfl, nofun⟩
  | ok h =>
    obtain ⟨journal, ran⟩ := run_allocate_ok value next
    rw [ran]
    refine ⟨rfl, .inl rfl, nofun, ?_⟩
    rintro _ ⟨⟩
    exact ⟨some h, rfl, .fresh (formed.occupy next value).2⟩

theorem Yields.mono {made' : α → Option Handle → Prop} {work : Local α} (yields : work.Yields made)
    (carries : ∀ value created, made value created → made' value created) :
    work.Yields made' := by
  intro m formed
  obtain ⟨pending, rests, failed, made⟩ := yields m formed
  refine ⟨pending, rests, failed, fun value succeeds => ?_⟩
  obtain ⟨created, tells, creates⟩ := made value succeeds
  exact ⟨created, carries value created tells, creates⟩

theorem yields_allocate_optional (value : Value) : (allocate value).Yields Handle.Optional :=
  (yields_allocate value).mono fun _ _ same => by rw [same, Handle.Optional, Option.getD_some]

theorem yields_allocateOptional (value : Value) :
    (allocateOptional value).Yields Handle.Optional := by
  unfold allocateOptional
  cases value.isNullish with
  | true =>
    intro m _
    refine ⟨rfl, .inl rfl, nofun, ?_⟩
    rintro _ ⟨⟩
    exact ⟨none, rfl, .nothing⟩
  | false => exact yields_allocate_optional value

theorem Yields.after {work : Local β} {next : β → Local α} (keeps : Keeps custody work.run)
    (rest : ∀ value, (next value).Yields made) : (work >>= next).Yields made := by
  intro m formed
  have same := keeps.same m
  change ((work.run m).2).custody = m.custody at same
  rw [Work.run_bind]
  revert same
  rcases work.run m with ⟨e | value, m₁⟩ <;> intro same <;>
    simp only [custody, Prod.mk.injEq] at same <;> obtain ⟨table, pending, -, -⟩ := same
  · refine ⟨pending, .inl rfl, fun _ _ => table, ?_⟩
    rintro _ ⟨⟩
  · obtain ⟨pending', rests, failed, made⟩ := rest value m₁ (by rwa [table])
    rw [table] at failed made
    exact ⟨pending'.trans pending, .inl rfl, failed, made⟩

end Local

/-! Work that parks an exception, or makes a handle. -/

namespace Machine

/-- The table is well-formed, and an exception that waits has a live handle. -/
structure Fit (m : Machine) : Prop where
  formed : m.table.WellFormed
  pending : ∀ h, m.pending.current = some h → Handle.reserved ≤ h.index ∧ m.table.isLive h

theorem Fit.of_rests {m m' : Machine} (fit : m.Fit) (table : m'.table = m.table)
    (rests : m.pending.Rests m'.pending) : m'.Fit := by
  refine ⟨by rw [table]; exact fit.formed, fun h pending => ?_⟩
  rw [table]
  rcases rests with same | empty
  · exact fit.pending h (same ▸ pending)
  · rw [empty] at pending
    cases pending

end Machine

namespace Machine

/-- A handle has been consumed, and either one has come for what the work made or one for an
exception, in place of the one that the slot held. -/
def Booked (consumed : Option Handle) (made : Option Handle → Prop) (slot : ExceptionSlot)
    (m m' : Machine) : Prop :=
  ∃ superseded created parked : Option Handle,
    m.table.Balance consumed superseded created parked m'.table ∧
    made created ∧ (created = none ∨ parked = none) ∧
    (∀ h, parked = some h → m'.pending.current = some h) ∧
    superseded = if parked.isSome then slot.current else none

/-- What quiet work has done to handles: nothing if it has failed, and else what is booked. -/
structure Settles (consumed : Option Handle) (made : α → Option Handle → Prop) (slot : ExceptionSlot)
    (m : Machine) (result : Except Error α) (m' : Machine) : Prop where
  failed : ∀ e, result = .error e → m'.table = m.table
  booked : ∀ value, result = .ok value → m.Booked consumed (made value) slot m'

theorem Settles.of_table {consumed : Option Handle} {made : α → Option Handle → Prop}
    {slot : ExceptionSlot} {m m₁ m' : Machine} {result : Except Error α}
    (settles : m₁.Settles consumed made slot result m') (table : m₁.table = m.table) :
    m.Settles consumed made slot result m' := by
  obtain ⟨failed, booked⟩ := settles
  unfold Booked at booked
  rw [table] at failed booked
  exact ⟨failed, booked⟩

variable {m m' : Machine} {made : Option Handle → Prop} {slot : ExceptionSlot}

theorem booked_created {created : Option Handle} (creates : m.table.Creates created m'.table)
    (tells : made created) : m.Booked none made slot m' := by
  refine ⟨none, created, none, ?_, tells, .inr rfl, nofun, rfl⟩
  generalize m'.table = t at creates
  cases creates with
  | nothing => exact m.table.balance_refl
  | fresh gains => exact gains.created

theorem booked_refl (table : m'.table = m.table) (nothing : made none) :
    m.Booked none made slot m' := by
  refine booked_created ?_ nothing
  rw [table]
  exact .nothing

theorem booked_vacate {h : Handle} {value : Value} (formed : m.table.WellFormed)
    (found : m.table.get h = .ok value) (table : m'.table = m.table.vacate h)
    (nothing : made none) : m.Booked ((some h).filter (!·.isReserved)) made slot m' := by
  obtain ⟨low, same⟩ | ⟨high, loses⟩ := (formed.vacate_of_get found).2
  · have kept : (some h).filter (!·.isReserved) = none := by simp [low]
    rw [kept]
    exact booked_refl (table.trans same) nothing
  · have gone : (some h).filter (!·.isReserved) = some h := by simp [high]
    rw [← table] at loses
    rw [gone]
    exact ⟨none, none, none, loses.consumed, nothing, .inl rfl, nofun, rfl⟩

theorem booked_park (fit : m.Fit) (exception : Value) (nothing : made none) :
    (((park exception).run m).1 = .error .tableFull ∧
      ((park exception).run m).2.table = m.table) ∨
    (((park exception).run m).1 = .ok () ∧
      m.Booked none made m.pending ((park exception).run m).2) := by
  have parks := parks exception fit.formed fit.pending
  revert parks
  generalize (park exception).run m = done
  intro parks
  cases parks with
  | full none => exact .inl ⟨rfl, rfl⟩
  | @empty h t journal pending formed gains =>
    refine .inr ⟨rfl, none, none, some h, gains.parked, nothing, .inl rfl, ?_, ?_⟩
    · rintro _ ⟨⟩
      rfl
    · simp [pending]
  | @superseding h old t t' journal pending formed gains loses =>
    refine .inr ⟨rfl, some old, none, some h,
      gains.superseding loses (fit.pending old pending).2, nothing, .inl rfl, ?_, ?_⟩
    · rintro _ ⟨⟩
      rfl
    · simp [pending]

end Machine

namespace Run

def Books (made : α → Option Handle → Prop) (run : Run (Except Error α)) : Prop :=
  ∀ m result m' slot, m.Fit → (run m).Quietly m.pending result m' slot →
    m.Settles none made slot result m'

variable {made : α → Option Handle → Prop}

theorem Yields.books {run : Run (Except Error α)} (yields : run.Yields made) : run.Books made := by
  intro m result m' slot fit quietly
  obtain ⟨-, -, failed, made⟩ := yields m result m' slot fit.formed quietly
  refine ⟨failed, fun value succeeds => ?_⟩
  obtain ⟨created, tells, creates⟩ := made value succeeds
  exact booked_created creates tells

theorem Books.after {work : Op β} {next : β → Op α} (spares : work.run.Spares)
    (rest : ∀ value, (next value).run.Books made) : (work >>= next).run.Books made := by
  intro m result m' slot fit quietly
  obtain ⟨between, m₁, slot₁, before, after⟩ := Task.Quietly.of_bind quietly
  obtain ⟨table, pending, rests⟩ := spares.allowed m between m₁ slot₁ before
  subst pending
  cases between with
  | error e =>
    cases after with
    | done =>
      refine ⟨fun _ _ => table, ?_⟩
      rintro _ ⟨⟩
  | ok value =>
    exact (rest value m₁ result m' slot (fit.of_rests table rests) after).of_table table

theorem Books.map {made' : β → Option Handle → Prop} {f : α → β} {work : Op α}
    (books : work.run.Books made)
    (carries : ∀ value created, made value created → made' (f value) created) :
    (work >>= fun value => pure (f value)).run.Books made' := by
  intro m result m' slot fit quietly
  obtain ⟨between, m₁, slot₁, before, after⟩ := Task.Quietly.of_bind quietly
  obtain ⟨failed, booked⟩ := books m between m₁ slot₁ fit before
  cases between with
  | error e =>
    cases after with
    | done =>
      refine ⟨fun _ _ => failed e rfl, ?_⟩
      rintro _ ⟨⟩
  | ok value =>
    cases after with
    | done =>
      refine ⟨nofun, ?_⟩
      rintro _ ⟨⟩
      obtain ⟨superseded, created, parked, balance, tells, rest⟩ := booked value rfl
      exact ⟨superseded, created, parked, balance, carries value created tells, rest⟩

theorem books_park (exception : Value) {neutral : α} (nothing : made neutral none) :
    (liftM (park exception) >>= fun _ => pure neutral : Op α).run.Books made := by
  intro m result m' slot fit quietly
  have parked := booked_park fit exception nothing
  rw [Op.run_local_bind] at quietly
  revert quietly parked
  rcases (park exception).run m with ⟨e | _, m₁⟩ <;> intro quietly parked <;> cases quietly
  · refine ⟨fun _ _ => ?_, nofun⟩
    rcases parked with ⟨_, table⟩ | ⟨⟨⟩, _⟩
    exact table
  · refine ⟨nofun, ?_⟩
    rintro _ ⟨⟩
    rcases parked with ⟨⟨⟩, _⟩ | ⟨_, booked⟩
    exact booked

theorem Books.guarded {work : Host α} (yields : work.run.Yields made) (operation : String)
    {neutral : α} (nothing : made neutral none) :
    (guarded operation neutral work).run.Books made := by
  intro m result m' slot fit quietly
  unfold SandboxBridge.guarded at quietly
  rw [Op.run_outcome_bind] at quietly
  obtain ⟨between, m₁, slot₁, before, after⟩ := Task.Quietly.of_bind quietly
  have yielded := yields m between m₁ slot₁ fit.formed before
  obtain ⟨pending, rests, failed, made⟩ := yielded
  subst pending
  match between with
  | .ok value =>
    cases after with
    | done =>
      refine ⟨nofun, ?_⟩
      rintro _ ⟨⟩
      obtain ⟨created, tells, creates⟩ := made value rfl
      exact booked_created creates tells
  | .error (.trap e) =>
    cases after with
    | done => exact ⟨fun _ _ => failed _ rfl, nofun⟩
  | .error (.thrown exception) =>
    have parks : (do
        let text ← displayed exception
        note .debug LogTarget.bridge s!"{operation}: host threw {text}"
        park exception
        return neutral : Op α).run.Books _ :=
      .after inferInstance fun _ => .after inferInstance fun _ => books_park exception nothing
    have table := failed _ rfl
    exact (parks m₁ result m' slot (fit.of_rests table rests) after).of_table table

end Run

end SandboxBridge

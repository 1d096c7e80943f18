import SandboxBridge.Proofs.Exceptions.Slot
import SandboxBridge.Proofs.Imports.Accounting
import SandboxBridge.Proofs.Rendering.Texts
import SandboxBridge.Proofs.Upkeep

/-!
The ledger of the imports: which handle each consumes, and which it creates and returns. In a quiet
call these go and come, and besides them only handles of exceptions.
-/

namespace SandboxBridge

open Machine Work Discipline

namespace Import

/-- The live handle that goes when a call succeeds. -/
def consumes (args : List Word) (i : Import) : Option Handle :=
  (i.consumed args).filter (!·.isReserved)

/-- How what an import returns tells of the handle that it has created. -/
def Returns (words : List Word) (created : Option Handle) : Import → Prop
  | .stringNew | .numberNew | .objectCloneRef | .closureWrapper | .global | .objectNew | .arrayNew =>
    ∃ h, created = some h ∧ words = Adapter.handleResult h
  | .getProperty | .call | .callMethod | .customEventNew =>
    words = Adapter.handleResult (created.getD .undefined)
  | _ => created = none

end Import

namespace Adapter

open Run

variable {α : Type} {args : List Word}

theorem books_fresh {i : Import} {work : Op Handle} (books : work.run.Books Handle.Fresh)
    (tells : ∀ h, i.Returns (handleResult h) (some h)) :
    (do return handleResult (← work) : Op (List Word)).run.Books (i.Returns · ·) :=
  .map books fun h _ same => same ▸ tells h

theorem books_optional {i : Import} {work : Op Handle} (books : work.run.Books Handle.Optional)
    (tells : ∀ created, i.Returns (handleResult (created.getD .undefined)) created) :
    (do return handleResult (← work) : Op (List Word)).run.Books (i.Returns · ·) :=
  .map books fun _ created same => same ▸ tells created

theorem yields_closureWrapper (word environment invoke destructor : UInt32) :
    (closureWrapper word environment invoke destructor).run.Yields Handle.Fresh := by
  refine .after inferInstance fun id => .andThen (Local.yields_allocate _).quiet
    (fun _ => inferInstance) fun h m result m' slot quietly => ?_
  cases quietly
  exact ⟨h, rfl, fun _ same => same⟩

theorem books_getProperty (target : Handle) (start length : Nat) :
    (getProperty target start length).run.Books Handle.Optional :=
  .after inferInstance fun _ => .after inferInstance fun _ =>
    .guarded (.after inferInstance fun _ => (Local.yields_allocateOptional _).hosted) _ rfl

theorem yields_throwTypeError (message : String) :
    (attempt (Store.throwTypeError message) : Host Handle).run.Yields Handle.Optional := by
  intro m result m' slot _ quietly
  cases quietly
  exact ⟨rfl, .inl rfl, fun _ _ => rfl, nofun⟩

theorem books_call (function receiver : Handle) :
    (call function receiver).run.Books Handle.Optional := by
  refine .after inferInstance fun function => .after inferInstance fun receiver =>
    .guarded ?_ _ rfl
  cases function with
  | function id => exact .after inferInstance fun _ => (Local.yields_allocate_optional _).hosted
  | _ => exact yields_throwTypeError _

theorem books_callMethod (target : Handle) (start length : Nat) (args : Handle) :
    (callMethod target start length args).run.Books Handle.Optional :=
  .after inferInstance fun _ => .after inferInstance fun _ => .after inferInstance fun _ =>
    .guarded (.after inferInstance fun _ => (Local.yields_allocateOptional _).hosted) _ rfl

theorem books_customEventNew (start length : Nat) (init : Handle) :
    (customEventNew start length init).run.Books Handle.Optional :=
  .after inferInstance fun _ => .after inferInstance fun _ =>
    .guarded (.after inferInstance fun _ => (Local.yields_allocate_optional _).hosted) _ rfl

def Nothing (_ : α) (created : Option Handle) : Prop :=
  created = none

theorem books_sparing {work : Host α} (spares : work.run.Spares) (operation : String)
    (neutral : α) : (guarded operation neutral work).run.Books Nothing := by
  have yields : work.run.Yields Nothing := spares.yields fun _ => rfl
  exact .guarded yields operation rfl

theorem books_setProperty (target : Handle) (start length : Nat) (value : Handle) :
    (setProperty target start length value).run.Books Nothing :=
  .after inferInstance fun _ => .after inferInstance fun _ => .after inferInstance fun _ =>
    books_sparing inferInstance _ _

theorem books_reflectSet (target key value : Handle) :
    (reflectSet target key value).run.Books Nothing := by
  refine .after inferInstance fun target => .after inferInstance fun key =>
    .after inferInstance fun m => .after inferInstance fun value => books_sparing ?_ _ _
  cases target <;> infer_instance

theorem books_addEventListener (target : Handle) (start length : Nat) (listener : Handle) :
    (addEventListener target start length listener).run.Books Nothing :=
  .after inferInstance fun _ => .after inferInstance fun _ => .after inferInstance fun _ =>
    books_sparing inferInstance _ _

theorem books_dispatchEvent (target event : Handle) :
    (dispatchEvent target event).run.Books Nothing :=
  .after inferInstance fun _ => .after inferInstance fun _ => books_sparing inferInstance _ _

theorem books_storageGetItem (slot : Nat) (storage : Handle) (start length : Nat) :
    (storageGetItem slot storage start length).run.Books Nothing :=
  .after inferInstance fun _ => .after inferInstance fun _ => books_sparing inferInstance _ _

theorem books_storageSetItem (storage : Handle) (keyStart keyLength start length : Nat) :
    (storageSetItem storage keyStart keyLength start length).run.Books Nothing :=
  .after inferInstance fun _ => .after inferInstance fun _ => .after inferInstance fun _ =>
    books_sparing inferInstance _ _

/-- What an import makes is what it returns. -/
theorem run_books (args : List Word) (i : Import) (other : i.takes = false) (keeps : i ≠ .exnTake) :
    (run args i).run.Books (i.Returns · ·) := by
  -- Each `.after` passes an argument that is read; none of them touches the table.
  cases i with
  | objectDropRef | arraySet | cbDrop => cases other
  | exnTake => exact absurd rfl keeps
  | stringNew =>
    exact .after inferInstance fun _ => .after inferInstance fun _ =>
      books_fresh (Local.Yields.after (keeps_custody inferInstance) fun _ =>
        Local.yields_allocate _).quiet.books fun h => ⟨h, rfl, rfl⟩
  | numberNew =>
    exact .after inferInstance fun _ =>
      books_fresh (Local.yields_allocate _).quiet.books fun h => ⟨h, rfl, rfl⟩
  | objectCloneRef | arrayNew =>
    exact .after inferInstance fun _ =>
      books_fresh (Local.Yields.after (keeps_custody inferInstance) fun _ =>
        Local.yields_allocate _).quiet.books fun h => ⟨h, rfl, rfl⟩
  | global | objectNew =>
    exact books_fresh (Local.Yields.after (keeps_custody inferInstance) fun _ =>
      Local.yields_allocate _).quiet.books fun h => ⟨h, rfl, rfl⟩
  | closureWrapper =>
    exact .after inferInstance fun _ => .after inferInstance fun _ => .after inferInstance fun _ =>
      .after inferInstance fun _ =>
        books_fresh (yields_closureWrapper _ _ _ _).books fun h => ⟨h, rfl, rfl⟩
  | getProperty =>
    exact .after inferInstance fun _ => .after inferInstance fun _ => .after inferInstance fun _ =>
      books_optional (books_getProperty _ _ _) fun _ => rfl
  | call =>
    exact .after inferInstance fun _ => .after inferInstance fun _ =>
      books_optional (books_call _ _) fun _ => rfl
  | callMethod =>
    exact .after inferInstance fun _ => .after inferInstance fun _ => .after inferInstance fun _ =>
      .after inferInstance fun _ => books_optional (books_callMethod _ _ _ _) fun _ => rfl
  | customEventNew =>
    exact .after inferInstance fun _ => .after inferInstance fun _ => .after inferInstance fun _ =>
      books_optional (books_customEventNew _ _ _) fun _ => rfl
  | setProperty =>
    exact .after inferInstance fun _ => .after inferInstance fun _ => .after inferInstance fun _ =>
      .after inferInstance fun _ => .map (books_setProperty _ _ _ _) fun _ _ => id
  | reflectSet =>
    exact .after inferInstance fun _ => .after inferInstance fun _ => .after inferInstance fun _ =>
      .map (books_reflectSet _ _ _) fun _ _ => id
  | addEventListener =>
    exact .after inferInstance fun _ => .after inferInstance fun _ => .after inferInstance fun _ =>
      .after inferInstance fun _ => .map (books_addEventListener _ _ _ _) fun _ _ => id
  | dispatchEvent =>
    exact .after inferInstance fun _ => .after inferInstance fun _ =>
      .map (books_dispatchEvent _ _) fun _ _ => id
  | storageGetItem =>
    exact .after inferInstance fun _ => .after inferInstance fun _ => .after inferInstance fun _ =>
      .after inferInstance fun _ => .map (books_storageGetItem _ _ _ _) fun _ _ => id
  | storageSetItem =>
    exact .after inferInstance fun _ => .after inferInstance fun _ => .after inferInstance fun _ =>
      .after inferInstance fun _ => .after inferInstance fun _ =>
        .map (books_storageSetItem _ _ _ _ _) fun _ _ => id
  -- What is left makes no handle at all.
  | debugString =>
    refine Yields.books (Spares.yields ?_ fun _ => rfl)
    unfold run debugString
    infer_instance
  | numberGet | boolGet | stringGet | isUndefined | isNull | isObject | isFunction | throw | log
  | error | instanceOf =>
    refine Yields.books (Spares.yields ?_ fun _ => rfl)
    unfold run
    infer_instance

/-! Imports that consume a handle. -/

variable {m m' : Machine} {result : Except Error (List Word)} {slot : ExceptionSlot}

theorem settles_error (e : Error) {consumed : Option Handle}
    {made : List Word → Option Handle → Prop} (table : m'.table = m.table) :
    m.Settles consumed made slot (.error e) m' :=
  ⟨fun _ _ => table, nofun⟩

theorem settles_objectDropRef (fit : m.Fit)
    (quietly : ((run args .objectDropRef).run m).Quietly m.pending result m' slot) :
    m.Settles (Import.objectDropRef.consumes args) (Import.objectDropRef.Returns · ·) slot result
      m' := by
  unfold run at quietly
  cases read : handle args 0 with
  | error e =>
    rw [read] at quietly
    cases quietly
    exact settles_error e rfl
  | ok h =>
    rw [read] at quietly
    replace quietly : ((liftM (release h) >>= fun _ => pure [] : Op (List Word)).run m).Quietly
      m.pending result m' slot := quietly
    rw [Op.run_local_bind] at quietly
    cases claimed : m.table.claim h with
    | error e =>
      rw [run_release_error claimed] at quietly
      cases quietly
      exact settles_error e rfl
    | ok value =>
      obtain ⟨journal, ran⟩ := run_release_ok claimed
      rw [ran] at quietly
      cases quietly
      refine ⟨nofun, fun _ _ => ?_⟩
      rw [Import.consumes, Import.consumed, read]
      exact booked_vacate fit.formed (HandleTable.claim_ok_iff.mp claimed) rfl rfl

theorem run_arraySet (array : Handle) (index : Position) (h : Handle) (m : Machine) :
    (∃ e, (arraySet array index h).run m = (.error e, m)) ∨
    ∃ value m', (arraySet array index h).run m = (.ok (), m') ∧ m.table.get h = .ok value ∧
      m'.table = m.table.vacate h := by
  unfold arraySet object
  simp only [Work.run_bind, Work.run_get, Work.run_liftExcept]
  cases found : m.table.get array with
  | error e => exact .inl ⟨e, rfl⟩
  | ok target =>
    cases target with
    | object id =>
      simp only [Work.run_bind]
      cases claimed : m.table.claim h with
      | error e =>
        rw [run_take_error claimed]
        exact .inl ⟨e, rfl⟩
      | ok value =>
        obtain ⟨journal, ran⟩ := run_take_ok claimed
        rw [ran]
        exact .inr ⟨value, _, rfl, HandleTable.claim_ok_iff.mp claimed, rfl⟩
    | _ => exact .inl ⟨.arraySetTarget, rfl⟩

theorem settles_arraySet (fit : m.Fit)
    (quietly : ((run args .arraySet).run m).Quietly m.pending result m' slot) :
    m.Settles (Import.arraySet.consumes args) (Import.arraySet.Returns · ·) slot result m' := by
  unfold run at quietly
  cases readArray : handle args 0 with
  | error e =>
    rw [readArray] at quietly
    cases quietly
    exact settles_error e rfl
  | ok array =>
    rw [readArray] at quietly
    cases readIndex : position args 1 with
    | error e =>
      rw [readIndex] at quietly
      cases quietly
      exact settles_error e rfl
    | ok index =>
      rw [readIndex] at quietly
      cases read : handle args 2 with
      | error e =>
        rw [read] at quietly
        cases quietly
        exact settles_error e rfl
      | ok h =>
        rw [read] at quietly
        replace quietly : ((liftM (arraySet array index h) >>= fun _ => pure [] :
          Op (List Word)).run m).Quietly m.pending result m' slot := quietly
        rw [Op.run_local_bind] at quietly
        obtain ⟨e, ran⟩ | ⟨value, m₁, ran, found, table⟩ := run_arraySet array index h m
        · rw [ran] at quietly
          cases quietly
          exact settles_error e rfl
        · rw [ran] at quietly
          cases quietly
          refine ⟨nofun, fun _ _ => ?_⟩
          rw [Import.consumes, Import.consumed, read]
          exact booked_vacate fit.formed found table rfl

theorem consumes_of_takes {i : Import} (other : i.takes = false) : i.consumes args = none := by
  cases i <;> first | rfl | cases other

/-- What every import but `cb_drop` does to handles. -/
theorem run_settles (fit : m.Fit) {i : Import} (other : i ≠ .cbDrop)
    (quietly : ((run args i).run m).Quietly m.pending result m' slot) :
    m.Settles (i.consumes args) (i.Returns · ·) slot result m' := by
  cases takes : i.takes with
  | false =>
    rw [consumes_of_takes takes]
    by_cases exception : i = .exnTake
    · subst exception
      cases quietly
      exact ⟨nofun, fun _ _ => booked_refl rfl rfl⟩
    · exact run_books args i takes exception m result m' slot fit quietly
  | true =>
    cases i with
    | objectDropRef => exact settles_objectDropRef fit quietly
    | arraySet => exact settles_arraySet fit quietly
    | cbDrop => exact absurd rfl other
    | _ => cases takes

theorem run_call_undefined {m : Machine} (undefined : m.table.get ⟨0⟩ = .ok .undefined) :
    ∃ exception m', m'.custody = m.custody ∧ (run [.i32 0, .i32 0] .call).run m =
      (liftM (park exception) >>= fun _ => pure [.i32 0] : Op (List Word)).run m' := by
  obtain ⟨exception, m', same, called⟩ : ∃ exception m', m'.custody = m.custody ∧
      (call ⟨0⟩ ⟨0⟩).run m = (liftM (park exception) >>= fun _ => pure Handle.undefined :
        Op Handle).run m' := by
    have looked : (object ⟨0⟩).run m = (.ok .undefined, m) := by
      unfold object
      rw [Work.run_bind, Work.run_get]
      dsimp only
      rw [undefined]
      rfl
    let message := s!"{Value.undefined.typeName} is not a function"
    have shown := Store.display?_newError "TypeError" (by decide) message m.store
    have threw : (attempt (Store.throwTypeError message) : Host Handle).run m =
        .done (.error (.thrown ((Store.newError "TypeError" message).run m.store).1))
          { m with store := ((Store.newError "TypeError" message).run m.store).2 } := rfl
    unfold call
    rw [Op.run_local_bind, looked]
    dsimp only
    rw [Op.run_local_bind, looked]
    dsimp only
    unfold guarded
    rw [Op.run_outcome_bind, threw]
    refine ⟨_, _, ?_, Op.run_displayed_bind _ _ _ |>.trans (by rw [shown]; rfl)⟩
    rfl
  refine ⟨exception, m', same, ?_⟩
  change Task.bind ((call ⟨0⟩ ⟨0⟩).run m) _ = _
  rw [called, Op.run_local_bind, Op.run_local_bind]
  rcases (park exception).run m' with ⟨_ | _, _⟩ <;> rfl

end Adapter

namespace Execution

variable {settings : Settings} {memory : Memory} {guest : Guest} {store : Store}
  {global : ObjectId} {x : Execution}

/-- In every state of a bridge in which an exception that waits has a live handle, a quiet call of
an import does to handles what is booked for it. -/
theorem callImport_accounted
    (reached : Reaches (start (create settings memory guest store global)) x)
    (live : ∀ h, x.machine.pending.current = some h → x.machine.table.isLive h)
    {i : Import} (other : i ≠ .cbDrop) {args : List Word} {result : Except Error (List Word)}
    {m' : Machine} {slot : ExceptionSlot}
    (quietly : ((callImport i.name args).run x.machine).Quietly x.machine.pending result m' slot) :
    x.machine.Settles (i.consumes args) (i.Returns · ·) slot result m' := by
  have upkept := upkept_reaches (.create settings memory guest store global) reached
  obtain ⟨journal, called⟩ := run_callImport upkept.offers args i
  rw [called] at quietly
  have fit : Fit { x.machine with journal } :=
    ⟨upkept.formed, fun h pending => ⟨upkept.unreserved h pending, live h pending⟩⟩
  exact (Adapter.run_settles fit other quietly).of_table rfl

/-- A call of what is no function takes the exception from the slot that waits there. -/
theorem callImport_accounted_superseding : ∃ (x : Execution) (m' : Machine),
    Reaches (start (create {} (.ofBytes .empty) {} {} ⟨0⟩)) x ∧
    x.machine.pending.current = some ⟨4⟩ ∧ m'.pending.current = some ⟨5⟩ ∧
    x.machine.Settles none (Import.call.Returns · ·) ⟨some ⟨4⟩⟩ (.ok [.i32 0]) m' := by
  obtain ⟨m, waits, table, pending, -⟩ := exists_waiting {} (.bool true)
  have reached : Reaches (start (create {} (.ofBytes .empty) {} {} ⟨0⟩)) ⟨m, .outside, [], []⟩ :=
    Relation.ReflTransGen.mono (fun _ _ => Contract.Honours.step) _ _ waits.reaches
  have upkept := upkept_reaches (.create {} (.ofBytes .empty) {} {} ⟨0⟩) reached
  obtain ⟨journal, called⟩ := run_callImport upkept.offers [.i32 0, .i32 0] .call
  obtain ⟨exception, m₁, same, ran⟩ := Adapter.run_call_undefined (m := { m with journal })
    (by rw [table]; rfl)
  simp only [custody, Prod.mk.injEq] at same
  obtain ⟨table₁, pending₁, -, -⟩ := same
  rw [table] at table₁
  rw [pending] at pending₁
  have next : m₁.table.next = .ok ⟨5⟩ := by rw [table₁]; rfl
  have claimed : (m₁.table.occupy exception).claim ⟨4⟩ = .ok (.bool true) := by rw [table₁]; rfl
  obtain ⟨noted, parked⟩ :=
    run_park_superseding exception next (congrArg ExceptionSlot.current pending₁) claimed
  rw [Op.run_local_bind, parked] at ran
  have quietly := Task.Quietly.of_done (called.trans ran) m.pending
  have live : ∀ h, m.pending.current = some h → m.table.isLive h := by
    rw [pending, table]
    rintro _ ⟨⟩
    rfl
  have other : Import.call ≠ .cbDrop := by decide
  have settles := callImport_accounted reached live other quietly
  rw [pending] at settles
  exact ⟨_, _, reached, congrArg ExceptionSlot.current pending, rfl, settles⟩

end Execution

end SandboxBridge

import SandboxBridge.Proofs.Exceptions.Account

/-!
The slot for exceptions in an account: it holds a live handle of the exception that waits, which the
module takes over as it is, or which is released when the next exception comes. So it is in every
execution in which nobody gives up the handle in the slot.
-/

namespace SandboxBridge

open Machine

/-- From `m` to `m'`, the handle of an exception that waits has gone from the slot to whoever asked
for it, as live as it was; it is 0 if no exception waits. -/
structure Machine.HandsOver (waiting : Option Value) (h : Handle) (m m' : Machine) : Prop where
  emptied : m'.pending.current = none
  table : m'.table = m.table
  denotes : ∀ exception, waiting = some exception →
    m.pending.current = some h ∧ m'.table.get h = .ok exception
  undefined_iff : h = .undefined ↔ waiting = none
  zero_iff : m.table.size ≤ UInt32.size → (Word.ofNat h.index = .i32 0 ↔ waiting = none)

/-- What the slot holds, and how exceptions are taken from it and parked in it. -/
structure Machine.AccountsFor (waiting : Option Value) (m : Machine) : Prop where
  empty_iff : m.pending.current = none ↔ waiting = none
  denotes : ∀ h, m.pending.current = some h → Handle.reserved ≤ h.index ∧
    ∃ exception, waiting = some exception ∧ m.table.get h = .ok exception
  taking : ∀ args, ∃ h m', (callImport "exn_take" args).run m = .done (.ok [.ofNat h.index]) m' ∧
    m.HandsOver waiting h m'
  /-- The handle of an exception that nobody took is released, and no other. -/
  parking : ∀ exception, ¬m.table.Full → ∃ h m', (park exception).run m = (.ok (), m') ∧
    m'.pending.current = some h ∧
    match m.pending.current with
    | none => m.table.Gains h exception m'.table
    | some old => ∃ t, m.table.Gains h exception t ∧ t.Loses old m'.table
  full : m.table.Full → ∀ exception, (park exception).run m = (.error .tableFull, m)

namespace Machine.Awaits

variable {waiting : Option Value} {m : Machine}

theorem taking (awaits : m.Awaits waiting) (args : List Word) : ∃ h m',
    (callImport "exn_take" args).run m = .done (.ok [.ofNat h.index]) m' ∧
    m.HandsOver waiting h m' := by
  obtain ⟨journal, called⟩ := run_callImport awaits.offers args .exnTake
  refine ⟨m.pending.current.getD .undefined, { m with journal, pending := ⟨none⟩ }, called, ?_⟩
  cases pending : m.pending.current with
  | none =>
    have none := awaits.empty_iff.mp pending
    subst none
    exact ⟨rfl, rfl, nofun, by simp, fun _ => by simp [Handle.undefined, Word.ofNat]⟩
  | some h =>
    obtain ⟨high, exception, waits, found⟩ := awaits.denotes h pending
    subst waits
    have below := HandleTable.index_lt_of_get found
    have positive : h.index ≠ 0 := by
      simp only [Handle.reserved] at high
      omega
    refine ⟨rfl, rfl, ?_, ?_, ?_⟩
    · rintro _ ⟨⟩
      exact ⟨pending, found⟩
    · simp only [Option.getD_some, reduceCtorEq, iff_false]
      rintro rfl
      exact positive rfl
    · intro small
      simp only [Option.getD_some, reduceCtorEq, iff_false, Word.ofNat, Word.i32.injEq]
      intro zero
      apply positive
      have same := congrArg UInt32.toNat zero
      rwa [Nat.toUInt32, UInt32.toNat_ofNat_of_lt' (by omega)] at same

theorem accountsFor (awaits : m.Awaits waiting) : m.AccountsFor waiting where
  empty_iff := awaits.empty_iff
  denotes := awaits.denotes
  taking := awaits.taking
  parking exception room := by
    have parks := awaits.parks exception
    revert parks
    generalize (Machine.park exception).run m = done
    intro parks
    cases parks with
    | full none => exact absurd none room
    | empty pending formed gains =>
      refine ⟨_, _, rfl, rfl, ?_⟩
      rw [pending]
      exact gains
    | superseding pending formed gains loses =>
      refine ⟨_, _, rfl, rfl, ?_⟩
      rw [pending]
      exact ⟨_, gains, loses⟩
  full := awaits.park_full

end Machine.Awaits

namespace Execution

/-- The executions in which the module gives up no handle of an exception that it has not taken are
those that have an account, and the slot is as the account says. -/
theorem exceptions_accounted (settings : Settings) (memory : Memory) (guest : Guest) (store : Store)
    (global : ObjectId) :
    (∀ x, Contract.exceptions.Reaches (start (create settings memory guest store global)) x ↔
      ∃ pursuits waiting, Account (create settings memory guest store global) none pursuits waiting x) ∧
    ∀ pursuits waiting x, Account (create settings memory guest store global) none pursuits waiting x →
      x.machine.AccountsFor waiting := by
  have awaits := Awaits.create settings memory guest store global
  exact ⟨fun x => ⟨Account.of_reaches awaits, fun ⟨_, _, account⟩ => account.reaches⟩,
    fun pursuits waiting x account => (account.holds awaits).awaits.accountsFor⟩

theorem exists_waiting (store : Store) (exception : Value) : ∃ m,
    Account (create {} (.ofBytes .empty) {} store ⟨0⟩) none [] (some exception)
      ⟨m, .outside, [], []⟩ ∧
    m.table = (HandleTable.empty none).occupy exception ∧ m.pending = ⟨some ⟨4⟩⟩ ∧
    m.store = store := by
  have custody := custody_create {} (.ofBytes .empty) {} store ⟨0⟩
  have kept := store_create {} (.ofBytes .empty) {} store ⟨0⟩
  have account : Account (create {} (.ofBytes .empty) {} store ⟨0⟩) none [] none
      (start (create {} (.ofBytes .empty) {} store ⟨0⟩)) := .start
  revert custody kept account
  generalize create {} (.ofBytes .empty) {} store ⟨0⟩ = m
  intro custody kept account
  simp only [Machine.custody, bare, Prod.mk.injEq] at custody
  obtain ⟨table, pending, -, -⟩ := custody
  have next : m.table.next = .ok ⟨4⟩ := by rw [table]; rfl
  have room : ¬m.table.Full := by
    rw [table]
    rintro ⟨-, most, limited, -⟩
    cases limited
  obtain ⟨journal, parked⟩ := run_park_empty exception next (by rw [pending])
  exact ⟨_, account.done (.park exception) (fun _ _ => id) (Run.ofState_eq_done parked)
    (.parked (.park room)), by rw [table]; rfl, rfl, kept⟩

theorem exists_waiting_function : ∃ m,
    Account (create {} (.ofBytes .empty) {} { natives := #[⟨"", .hosted 0⟩] } ⟨0⟩) none []
      (some (.bool true)) ⟨m, .outside, [], []⟩ ∧
    m.table = ((HandleTable.empty none).occupy (.bool true)).occupy (.function (.native 0)) ∧
    m.pending = ⟨some ⟨4⟩⟩ ∧ m.store = { natives := #[⟨"", .hosted 0⟩] } := by
  obtain ⟨m, waits, table, pending, store⟩ :=
    exists_waiting { natives := #[⟨"", .hosted 0⟩] } (.bool true)
  have next : m.table.next = .ok ⟨5⟩ := by rw [table]; rfl
  obtain ⟨journal, allocated⟩ := run_allocate_ok (.function (.native 0)) next
  have leaves : (Request.allocate (.function (.native 0))).Leaves m [] (some (.bool true))
      (some (.bool true)) := .kept (fun _ parks => nomatch parks) fun clears => nomatch clears
  refine ⟨_, waits.done (.allocate (.function (.native 0))) (fun _ _ => id)
    (Run.ofState_eq_done allocated) leaves, ?_, pending, store⟩
  exact congrArg (HandleTable.occupy · (.function (.native 0))) table

theorem resolve_function {m : Machine}
    (table : m.table =
      ((HandleTable.empty none).occupy (.bool true)).occupy (.function (.native 0))) :
    (GuardedCall.call ⟨5⟩ ⟨0⟩).resolve.run m =
      (.ok (some (.call (.function (.native 0)) .undefined)), m) := by
  have function : (object ⟨5⟩).run m = (.ok (.function (.native 0)), m) := by
    change (m.table.get ⟨5⟩, m) = _
    rw [table]
    rfl
  have receiver : (object ⟨0⟩).run m = (.ok .undefined, m) := by
    change (m.table.get ⟨0⟩, m) = _
    rw [table]
    rfl
  unfold GuardedCall.resolve
  rw [Work.run_bind_ok function, Work.run_bind_ok receiver]
  rfl

/-- A host function throws while an exception waits, and what it throws is the one that waits. -/
theorem exceptions_accounted_twice : ∃ m events,
    Account (create {} (.ofBytes .empty) {} { natives := #[⟨"", .hosted 0⟩] } ⟨0⟩) none []
      (some .null) ⟨m, .outside, [], events⟩ ∧
    m.pending.current = some ⟨6⟩ ∧ m.AccountsFor (some .null) := by
  obtain ⟨m, waits, table, pending, store⟩ := exists_waiting_function
  obtain ⟨-, accounted⟩ :=
    exceptions_accounted {} (.ofBytes .empty) {} { natives := #[⟨"", .hosted 0⟩] } ⟨0⟩
  have registered : m.imports.find? m.settings.importModule "call" = some (.adapter .call) :=
    (waits.holds (.create _ _ _ _ _)).awaits.offers .call
  have reads : GuardedCall.read [.i32 5, .i32 0] .call = some (.ok (.call ⟨5⟩ ⟨0⟩)) := rfl
  have resolved := resolve_function (m := m.noting "call") table
  have called : (Errand.call (.function (.native 0)) .undefined).perform.run (m.noting "call") =
      .call (.hosted 0 .undefined []) (m.noting "call") .done := by
    change (runBehaviour .undefined [] (m.store.native 0).behaviour).run (m.noting "call") = _
    rw [store]
    rfl
  -- The request comes to the call of the host function.
  have asked := waits.ask (.callImport "call" [.i32 5, .i32 0]) fun h _ gives => by
    obtain ⟨i, found, consumed, -⟩ := gives
    cases registered.symm.trans found
    cases consumed
  have task : Request.perform (.callImport "call" [.i32 5, .i32 0]) m =
      .call (.hosted 0 .undefined []) (m.noting "call") fun result reached =>
        (((GuardedCall.call ⟨5⟩ ⟨0⟩).conclude result).run reached).bind fun answer m =>
          .done (answer.map Adapter.handleResult) m := by
    change (callImport "call" [.i32 5, .i32 0]).run m = _
    rw [run_callImport_noting registered, GuardedCall.run_of_read reads]
    change (((GuardedCall.call ⟨5⟩ ⟨0⟩).perform >>= fun answer =>
      pure (Adapter.handleResult answer) : Op (List Word)).run (m.noting "call")) = _
    rw [Op.run_bind_pure, GuardedCall.run_perform, resolved]
    dsimp only
    rw [GuardedCall.run_guarded_errand, called]
    rfl
  -- The function throws, and the guard parks what it has thrown over the exception that waits.
  have next : m.table.next = .ok ⟨6⟩ := by rw [table]; rfl
  have claimed : (m.table.occupy .null).claim ⟨4⟩ = .ok (.bool true) := by rw [table]; rfl
  rw [task] at asked
  have answers : Contract.exceptions.Answers (m.noting "call") (.hosted 0 .undefined [])
      (Except.error (.thrown .null) : Except Fault Value) := fun _ _ returned => nomatch returned
  have threw := asked.call.resume _ answers
  have room : ¬(m.noting "call").table.Full := by
    change ¬m.table.Full
    rw [table]
    rintro ⟨-, most, limited, -⟩
    cases limited
  have parks : (Request.callImport "call" [.i32 5, .i32 0]).Parks m .null
      [⟨.hosted 0 .undefined [], m.noting "call",
        (Except.error (.thrown .null) : Except Fault Value), m.noting "call"⟩] :=
    .called registered reads resolved (by rw [called]; exact .call trivial .done) room
  obtain ⟨journal, parked⟩ :=
    run_park_superseding (m := GuardedCall.notingThrow "call" "null" (m.noting "call")) .null next
      (congrArg ExceptionSlot.current pending) claimed
  have concluded := GuardedCall.run_conclude_thrown (g := .call ⟨5⟩ ⟨0⟩) rfl parked
  dsimp only at threw
  rw [concluded] at threw
  have account := threw.finish (.parked parks)
  exact ⟨_, _, account, rfl, accounted _ _ _ account⟩

end Execution

end SandboxBridge

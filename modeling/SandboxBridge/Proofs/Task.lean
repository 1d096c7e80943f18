import SandboxBridge.Call
import SandboxBridge.Proofs.Work

/-!
Work that calls out, followed step by step. Each step of an `Op` or a `Host` has one equation here,
up to the next call or milestone.
-/

namespace SandboxBridge

variable {α β : Type}

theorem Run.ofState_eq (work : StateM Machine α) (m : Machine) :
    Run.ofState work m = .done (work m).1 (work m).2 :=
  rfl

theorem Run.ofState_eq_done {work : StateM Machine α} {m m' : Machine} {value : α}
    (ran : work m = (value, m')) : Run.ofState work m = .done value m' := by
  rw [ofState_eq, ran]

theorem Run.displayed_eq (value : Value) (m : Machine) :
    displayed value m = match m.store.display? value with
      | some text => .done text m
      | none => .abort := by
  change Run.ofOption (m.store.display? value) m = _
  cases m.store.display? value <;> rfl

/-- A value that must be there, in work that may fail. -/
def present {ε : Type} (found : Option α) : ExceptT ε Run α :=
  ExceptT.lift (Run.ofOption found)

@[simp]
theorem present_some {ε : Type} (value : α) : (present (some value) : ExceptT ε Run α) = pure value :=
  rfl

/-- Work that needs the text of a value, and comes to nothing without. -/
def showing (value : Value) (next : String → Local (Option α)) : Local (Option α) := do
  match (← get).store.display? value with
  | some text => next text
  | none => return none

theorem run_showing (value : Value) (next : String → Local (Option α)) (m : Machine) :
    (showing value next).run m = match m.store.display? value with
      | some text => (next text).run m
      | none => (.ok none, m) := by
  unfold showing
  rw [Work.run_bind, Work.run_get]
  dsimp only
  cases m.store.display? value <;> rfl

namespace Op

theorem run_get_bind (next : Machine → Op β) (m : Machine) :
    (get >>= next : Op β).run m = (next m).run m :=
  rfl

theorem run_local_bind (work : Local α) (next : α → Op β) (m : Machine) :
    (liftM work >>= next : Op β).run m = match work.run m with
      | (.ok value, m) => (next value).run m
      | (.error e, m) => .done (.error e) m := by
  change (Run.ofState work.run m).bind (fun result => ExceptT.bindCont next result) = _
  unfold Run.ofState
  change Task.bind (.done (work.run m).1 (work.run m).2) _ = _
  cases work.run m with
  | mk result m => cases result <;> rfl

theorem run_local (work : Local α) (m : Machine) :
    (liftM work : Op α).run m = .done (work.run m).1 (work.run m).2 :=
  rfl

theorem lift_bind (work : Local α) (next : α → Local β) :
    (liftM (work >>= next) : Op β) = liftM work >>= fun value => liftM (next value) := by
  funext m
  change (liftM (work >>= next) : Op β).run m = (liftM work >>= _ : Op β).run m
  rw [run_local, run_local_bind, Work.run_bind]
  rcases work.run m with ⟨e | value, m'⟩ <;> rfl

theorem lift_pure (value : α) : (liftM (pure value : Local α) : Op α) = pure value :=
  rfl

theorem liftExcept_bind (result : Except Error α) (next : α → Except Error β) :
    (liftM (result >>= next) : Op β) = liftM result >>= fun value => liftM (next value) := by
  cases result <;> rfl

theorem liftExcept_pure (value : α) : (liftM (pure value : Except Error α) : Op α) = pure value :=
  rfl

theorem eq_of_run_local {work : Local α} {result : Except Error α} {m m' : Machine}
    (ran : (liftM work : Op α).run m = .done result m') : work.run m = (result, m') := by
  rw [run_local] at ran
  injection ran with value machine
  exact Prod.ext value machine

theorem run_displayed_bind (value : Value) (next : String → Op β) (m : Machine) :
    (liftM (displayed value) >>= next : Op β).run m = match m.store.display? value with
      | some text => (next text).run m
      | none => .abort := by
  change ((displayed value m).bind fun text => .done (Except.ok text)).bind
    (fun result => ExceptT.bindCont next result) = _
  rw [Run.displayed_eq]
  cases m.store.display? value <;> rfl

theorem run_rendered_bind (value : Value) (next : String → Op β) (m : Machine) :
    (liftM (rendered value) >>= next : Op β).run m = match m.store.render? value with
      | some text => (next text).run m
      | none => .abort := by
  change ((Run.ofOption (m.store.render? value) m).bind fun text => .done (Except.ok text)).bind
    (fun result => ExceptT.bindCont next result) = _
  cases m.store.render? value <;> rfl

theorem run_present (work : Local (Option α)) (m : Machine) :
    (liftM work >>= present : Op α).run m = match work.run m with
      | (.ok (some value), m) => .done (.ok value) m
      | (.ok none, _) => .abort
      | (.error e, m) => .done (.error e) m := by
  rw [run_local_bind]
  rcases work.run m with ⟨e | _ | value, m⟩ <;> rfl

theorem present_showing (value : Value) (next : String → Local (Option α)) :
    (liftM (showing value next) >>= present : Op α) =
      liftM (displayed value) >>= fun text => liftM (next text) >>= present := by
  funext m
  refine (run_local_bind (showing value next) present m).trans (.trans ?_
    (run_displayed_bind value (fun text => liftM (next text) >>= present) m).symm)
  rw [run_showing]
  cases m.store.display? value with
  | none => rfl
  | some text => exact (run_local_bind (next text) present m).symm

theorem lift_some (work : Local α) : (liftM (some <$> work) >>= present : Op α) = liftM work := by
  funext m
  change (liftM (some <$> work) >>= present : Op α).run m = (liftM work : Op α).run m
  rw [run_local_bind, map_eq_pure_bind, Work.run_bind, run_local]
  rcases work.run m with ⟨e | value, m⟩ <;> rfl

theorem run_bind_pure (work : Op α) (f : α → β) (m : Machine) :
    (work >>= fun value => pure (f value) : Op β).run m =
      (work.run m).bind fun result m => .done (result.map f) m := by
  change (work.run m).bind
    (fun result => (ExceptT.bindCont (fun value => pure (f value)) result :
      Run (Except Error β))) = _
  congr 1
  funext result m
  cases result <;> rfl

theorem run_outcome_bind {ε : Type} (work : ExceptT ε Run α) (next : Except ε α → Op β)
    (m : Machine) :
    (outcome work >>= next : Op β).run m =
      (work.run m).bind fun result m => (next result).run m :=
  Task.bind_assoc (work.run m) (fun result => .done (.ok result : Except Error (Except ε α)))
    (fun result => (ExceptT.bindCont next result : Run (Except Error β)))

end Op

/-! Work that may end in an exception, too. -/

namespace Host

theorem run_get_bind (next : Machine → Host β) (m : Machine) :
    (get >>= next : Host β).run m = (next m).run m :=
  rfl

theorem run_local_bind (work : Local α) (next : α → Host β) (m : Machine) :
    (liftM work >>= next : Host β).run m = match work.run m with
      | (.ok value, m) => (next value).run m
      | (.error e, m) => .done (.error (.trap e)) m := by
  change ((Run.ofState work.run m).bind fun result => .done (trapped result)).bind
    (fun result => ExceptT.bindCont next result) = _
  unfold Run.ofState
  change Task.bind (Task.bind (.done (work.run m).1 (work.run m).2) _) _ = _
  cases work.run m with
  | mk result m => cases result <;> rfl

theorem run_displayed_bind (value : Value) (next : String → Host β) (m : Machine) :
    (liftM (displayed value) >>= next : Host β).run m = match m.store.display? value with
      | some text => (next text).run m
      | none => .abort := by
  change (((displayed value m).bind fun text => .done (Except.ok text)).bind
    fun result => .done (trapped result)).bind (fun result => ExceptT.bindCont next result) = _
  rw [Run.displayed_eq]
  cases m.store.display? value <;> rfl

theorem run_bind_done {work : Host α} {value : α} {m m' : Machine}
    (ran : work.run m = .done (.ok value) m') (next : α → Host β) :
    (work >>= next : Host β).run m = (next value).run m' := by
  change (work.run m).bind (fun result => ExceptT.bindCont next result) = _
  rw [ran]
  rfl

theorem run_attempt_bind (work : Store.Completion α) (next : α → Host β) (m : Machine) :
    (attempt work >>= next : Host β).run m = match work.run m.store with
      | (.ok value, store) => (next value).run { m with store }
      | (.error exception, store) => .done (.error (.thrown exception)) { m with store } := by
  change Task.bind (Task.bind (.done (work.run m.store).1 { m with store := (work.run m.store).2 })
    fun result => .done (thrown result)) (fun result => ExceptT.bindCont next result) = _
  cases work.run m.store with
  | mk result store => cases result <;> rfl

theorem lift_pure (value : α) : (liftM (pure value : Local α) : Host α) = pure value :=
  rfl

theorem run_local (work : Local α) (m : Machine) :
    (liftM work : Host α).run m = .done (trapped (work.run m).1) (work.run m).2 :=
  rfl

theorem lift_some (work : Local α) : (liftM (some <$> work) >>= present : Host α) = liftM work := by
  funext m
  change (liftM (some <$> work) >>= present : Host α).run m = (liftM work : Host α).run m
  rw [run_local_bind, map_eq_pure_bind, Work.run_bind, run_local]
  rcases work.run m with ⟨e | value, m⟩ <;> rfl

theorem present_showing (value : Value) (next : String → Local (Option α)) :
    (liftM (showing value next) >>= present : Host α) =
      liftM (displayed value) >>= fun text => liftM (next text) >>= present := by
  funext m
  refine (run_local_bind (showing value next) present m).trans (.trans ?_
    (run_displayed_bind value (fun text => liftM (next text) >>= present) m).symm)
  rw [run_showing]
  cases m.store.display? value with
  | none => rfl
  | some text => exact (run_local_bind (next text) present m).symm

theorem throwTypeError_bind (message : String) (next : α → Host β) :
    (attempt (Store.throwTypeError message) >>= next : Host β) =
      attempt (Store.throwTypeError message) :=
  rfl

theorem run_outcome_bind {ε : Type} (work : ExceptT ε Run α) (next : Except ε α → Host β)
    (m : Machine) :
    (outcome work >>= next : Host β).run m =
      (work.run m).bind fun result m => (next result).run m :=
  Task.bind_assoc (work.run m) (fun result => .done (.ok result : Except Fault (Except ε α)))
    (fun result => (ExceptT.bindCont next result : Run (Except Fault β)))

end Host

end SandboxBridge

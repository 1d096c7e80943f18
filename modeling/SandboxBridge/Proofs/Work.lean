/-!
Work that changes a state and may fail, run from a given state. Each step of such work has one
equation here, so that longer work can be followed state by state.
-/

namespace SandboxBridge.Work

variable {ε σ α β : Type}

@[simp]
theorem run_pure (value : α) (s : σ) :
    (pure value : ExceptT ε (StateM σ) α).run s = (.ok value, s) :=
  rfl

@[simp]
theorem run_throw (e : ε) (s : σ) : (throw e : ExceptT ε (StateM σ) α).run s = (.error e, s) :=
  rfl

@[simp]
theorem run_get (s : σ) : (get : ExceptT ε (StateM σ) σ).run s = (.ok s, s) :=
  rfl

@[simp]
theorem run_modify (f : σ → σ) (s : σ) :
    (modify f : ExceptT ε (StateM σ) PUnit).run s = (.ok .unit, f s) :=
  rfl

@[simp]
theorem run_modifyGet (f : σ → α × σ) (s : σ) :
    (modifyGet f : ExceptT ε (StateM σ) α).run s = (.ok (f s).1, (f s).2) :=
  rfl

theorem run_modifyGet_state (f : σ → α × σ) (s : σ) :
    (modifyGet f : StateM σ α).run s = f s :=
  rfl

@[simp]
theorem run_liftExcept (result : Except ε α) (s : σ) :
    (liftM result : ExceptT ε (StateM σ) α).run s = (result, s) :=
  rfl

@[simp]
theorem run_bind (work : ExceptT ε (StateM σ) α) (next : α → ExceptT ε (StateM σ) β) (s : σ) :
    (work >>= next).run s = match work.run s with
      | (.ok value, s) => (next value).run s
      | (.error e, s) => (.error e, s) := by
  simp only [bind, ExceptT.bind, ExceptT.run, ExceptT.mk, StateT.bind]
  cases work s with
  | mk result s => cases result <;> rfl

theorem run_bind_ok {work : ExceptT ε (StateM σ) α} {next : α → ExceptT ε (StateM σ) β} {s t : σ}
    {value : α} (ran : work.run s = (.ok value, t)) :
    (work >>= next).run s = (next value).run t := by
  rw [run_bind, ran]

theorem run_bind_pure (work : ExceptT ε (StateM σ) α) (f : α → β) (s : σ) :
    (work >>= fun value => pure (f value)).run s = ((work.run s).1.map f, (work.run s).2) := by
  rw [run_bind]
  rcases work.run s with ⟨e | value, t⟩ <;> rfl

theorem run_orElse (work other : ExceptT ε (StateM σ) α) (s : σ) :
    (work <|> other).run s = match work.run s with
      | (.ok value, s) => (.ok value, s)
      | (.error _, s) => other.run s := by
  change (ExceptT.tryCatch work fun _ => other).run s = _
  simp only [ExceptT.tryCatch, ExceptT.run, ExceptT.mk, bind, StateT.bind]
  cases work s with
  | mk result s => cases result <;> rfl

structure Rule (σ : Type) where
  Allows : {α : Type} → StateM σ α → Prop
  pure {α : Type} (value : α) : Allows (pure value)
  bind {α β : Type} {work : StateM σ α} {next : α → StateM σ β} (first : Allows work)
    (rest : ∀ value, Allows (next value)) : Allows (work >>= next)
  look : Allows get

class Follows (rule : Rule σ) (work : StateM σ α) : Prop where
  allowed : rule.Allows work

namespace Follows

variable {rule : Rule σ}

instance (value : α) : Follows rule (pure value) :=
  ⟨rule.pure value⟩

instance : Follows rule get :=
  ⟨rule.look⟩

instance {work : StateM σ α} {next : α → StateM σ β} [first : Follows rule work]
    [rest : ∀ value, Follows rule (next value)] : Follows rule (work >>= next) :=
  ⟨rule.bind first.allowed fun value => (rest value).allowed⟩

instance (value : α) : Follows rule (pure value : ExceptT ε (StateM σ) α).run :=
  ⟨rule.pure _⟩

instance (e : ε) : Follows rule (throw e : ExceptT ε (StateM σ) α).run :=
  ⟨rule.pure _⟩

instance (result : Except ε α) : Follows rule (liftM result : ExceptT ε (StateM σ) α).run :=
  ⟨rule.pure result⟩

instance {work : StateM σ α} [follows : Follows rule work] :
    Follows rule (ExceptT.lift work : ExceptT ε (StateM σ) α).run :=
  inferInstanceAs (Follows rule (work >>= fun value => pure (Except.ok value)))

instance {work : StateM σ α} [follows : Follows rule work] :
    Follows rule (liftM work : ExceptT ε (StateM σ) α).run :=
  inferInstanceAs (Follows rule (ExceptT.lift work : ExceptT ε (StateM σ) α).run)

instance : Follows rule (get : ExceptT ε (StateM σ) σ).run :=
  inferInstanceAs (Follows rule (ExceptT.lift get : ExceptT ε (StateM σ) σ).run)

theorem bind {work : ExceptT ε (StateM σ) α} {next : α → ExceptT ε (StateM σ) β}
    (first : Follows rule work.run) (rest : ∀ value, Follows rule (next value).run) :
    Follows rule (work >>= next).run := by
  have matched (result : Except ε α) :
      Follows rule (ExceptT.bindCont next result : StateM σ (Except ε β)) := by
    cases result with
    | ok value => exact rest value
    | error e => exact inferInstanceAs (Follows rule (pure (Except.error e) : StateM σ _))
  exact inferInstanceAs (Follows rule (work.run >>= ExceptT.bindCont next))

instance {work : ExceptT ε (StateM σ) α} {next : α → ExceptT ε (StateM σ) β}
    [first : Follows rule work.run] [rest : ∀ value, Follows rule (next value).run] :
    Follows rule (work >>= next).run :=
  bind first rest

instance {work : ExceptT ε (StateM σ) α} {f : α → β} [Follows rule work.run] :
    Follows rule (f <$> work).run :=
  inferInstanceAs (Follows rule (work >>= fun value => pure (f value)).run)

instance {p : Prop} [Decidable p] {yes no : ExceptT ε (StateM σ) α} [Follows rule yes.run]
    [Follows rule no.run] : Follows rule (if p then yes else no).run := by
  split <;> infer_instance

end Follows

def Rule.keeping {τ : Type} (part : σ → τ) : Rule σ where
  Allows work := ∀ s, part (work.run s).2 = part s
  pure _ _ := rfl
  bind first rest s := (rest _ _).trans (first s)
  look _ := rfl

abbrev Keeps {τ : Type} (part : σ → τ) (work : StateM σ α) : Prop :=
  Follows (.keeping part) work

namespace Keeps

variable {τ : Type} {part : σ → τ}

theorem same {work : StateM σ α} (keeps : Keeps part work) (s : σ) :
    part (work.run s).2 = part s :=
  keeps.allowed s

theorem of_modify {f : σ → σ} (same : ∀ s, part (f s) = part s) :
    Keeps part (modify f : StateM σ PUnit) :=
  ⟨same⟩

theorem of_modifyGet {f : σ → α × σ} (same : ∀ s, part (f s).2 = part s) :
    Keeps part (modifyGet f : StateM σ α) :=
  ⟨same⟩

theorem of_change {f : σ → σ} (same : ∀ s, part (f s) = part s) :
    Keeps part (modify f : ExceptT ε (StateM σ) PUnit).run :=
  ⟨same⟩

theorem of_look {next : σ → ExceptT ε (StateM σ) α}
    (same : ∀ s, part ((next s).run.run s).2 = part s) :
    Keeps part (get >>= next : ExceptT ε (StateM σ) α).run :=
  ⟨same⟩

end Keeps

/-! What work preserves. -/

def Rule.preserving (holds : σ → Prop) : Rule σ where
  Allows work := ∀ s, holds s → holds (work.run s).2
  pure _ _ := id
  bind first rest s before := rest _ _ (first s before)
  look _ := id

abbrev Preserves (holds : σ → Prop) (work : StateM σ α) : Prop :=
  Follows (.preserving holds) work

class Agrees {τ : Type} (related : σ → τ → Prop) (work : StateM σ α) (other : StateM τ α) :
    Prop where
  agreed {s : σ} {t : τ} (before : related s t) :
    (work s).1 = (other t).1 ∧ related (work s).2 (other t).2

namespace Agrees

variable {τ : Type} {related : σ → τ → Prop}

instance (value : α) : Agrees related (pure value) (pure value) :=
  ⟨fun before => ⟨rfl, before⟩⟩

instance {work : StateM σ α} {other : StateM τ α} {next : α → StateM σ β} {rest : α → StateM τ β}
    [first : Agrees related work other] [each : ∀ value, Agrees related (next value) (rest value)] :
    Agrees related (work >>= next) (other >>= rest) where
  agreed {s t} before := by
    obtain ⟨value, after⟩ := first.agreed before
    change (next (work s).1 (work s).2).1 = (rest (other t).1 (other t).2).1 ∧
      related (next (work s).1 (work s).2).2 (rest (other t).1 (other t).2).2
    rw [value]
    exact (each _).agreed after

theorem of_look {next : σ → StateM σ α} {rest : τ → StateM τ α}
    (each : ∀ {s t}, related s t → Agrees related (next s) (rest t)) :
    Agrees related (get >>= next) (get >>= rest) :=
  ⟨fun before => (each before).agreed before⟩

instance {f : β → StateM σ PUnit} {g : β → StateM τ PUnit}
    [each : ∀ item, Agrees related (f item) (g item)] (items : List β) :
    Agrees related (items.forM f) (items.forM g) := by
  induction items with
  | nil => exact inferInstanceAs (Agrees related (pure PUnit.unit) (pure PUnit.unit))
  | cons item rest ih =>
    exact inferInstanceAs
      (Agrees related (f item >>= fun _ => rest.forM f) (g item >>= fun _ => rest.forM g))

instance (value : α) : Agrees related (pure value : ExceptT ε (StateM σ) α).run
    (pure value : ExceptT ε (StateM τ) α).run :=
  ⟨fun before => ⟨rfl, before⟩⟩

instance (e : ε) : Agrees related (throw e : ExceptT ε (StateM σ) α).run
    (throw e : ExceptT ε (StateM τ) α).run :=
  ⟨fun before => ⟨rfl, before⟩⟩

instance (result : Except ε α) : Agrees related (liftM result : ExceptT ε (StateM σ) α).run
    (liftM result : ExceptT ε (StateM τ) α).run :=
  ⟨fun before => ⟨rfl, before⟩⟩

instance {work : StateM σ α} {other : StateM τ α} [agrees : Agrees related work other] :
    Agrees related (liftM work : ExceptT ε (StateM σ) α).run
      (liftM other : ExceptT ε (StateM τ) α).run :=
  inferInstanceAs (Agrees related (work >>= fun value => pure (Except.ok value))
    (other >>= fun value => pure (Except.ok value)))

theorem bind {work : ExceptT ε (StateM σ) α} {other : ExceptT ε (StateM τ) α}
    {next : α → ExceptT ε (StateM σ) β} {rest : α → ExceptT ε (StateM τ) β}
    (first : Agrees related work.run other.run)
    (each : ∀ value, Agrees related (next value).run (rest value).run) :
    Agrees related (work >>= next).run (other >>= rest).run := by
  have matched (result : Except ε α) : Agrees related
      (ExceptT.bindCont next result : StateM σ (Except ε β))
      (ExceptT.bindCont rest result : StateM τ (Except ε β)) := by
    cases result with
    | ok value => exact each value
    | error e =>
      exact inferInstanceAs (Agrees related (pure (Except.error e) : StateM σ _)
        (pure (Except.error e) : StateM τ _))
  exact inferInstanceAs (Agrees related (work.run >>= ExceptT.bindCont next)
    (other.run >>= ExceptT.bindCont rest))

instance {work : ExceptT ε (StateM σ) α} {other : ExceptT ε (StateM τ) α}
    {next : α → ExceptT ε (StateM σ) β} {rest : α → ExceptT ε (StateM τ) β}
    [first : Agrees related work.run other.run]
    [each : ∀ value, Agrees related (next value).run (rest value).run] :
    Agrees related (work >>= next).run (other >>= rest).run :=
  bind first each

theorem of_inspect {next : σ → ExceptT ε (StateM σ) α} {rest : τ → ExceptT ε (StateM τ) α}
    (each : ∀ {s t}, related s t → Agrees related (next s).run (rest t).run) :
    Agrees related (get >>= next : ExceptT ε (StateM σ) α).run
      (get >>= rest : ExceptT ε (StateM τ) α).run :=
  ⟨fun before => (each before).agreed before⟩

instance {p : Prop} [Decidable p] {yes no : ExceptT ε (StateM σ) α}
    {same other : ExceptT ε (StateM τ) α} [Agrees related yes.run same.run]
    [Agrees related no.run other.run] :
    Agrees related (if p then yes else no).run (if p then same else other).run := by
  split <;> infer_instance

end Agrees

theorem bind_eq_ok {work : ExceptT ε (StateM σ) α} {next : α → ExceptT ε (StateM σ) β} {s t : σ}
    {value : β} (succeeds : (work >>= next).run s = (.ok value, t)) :
    ∃ first between, work.run s = (.ok first, between) ∧
      (next first).run between = (.ok value, t) := by
  rw [run_bind] at succeeds
  revert succeeds
  rcases work.run s with ⟨e | first, between⟩ <;> intro succeeds
  · cases succeeds
  · exact ⟨first, between, rfl, succeeds⟩

theorem bind_eq_error {work : ExceptT ε (StateM σ) α} {next : α → ExceptT ε (StateM σ) β} {s t : σ}
    {e : ε} (fails : (work >>= next).run s = (.error e, t)) :
    work.run s = (.error e, t) ∨ ∃ first between, work.run s = (.ok first, between) ∧
      (next first).run between = (.error e, t) := by
  rw [run_bind] at fails
  revert fails
  rcases work.run s with ⟨e | first, between⟩ <;> intro fails
  · cases fails
    exact .inl rfl
  · exact .inr ⟨first, between, rfl, fails⟩

end SandboxBridge.Work

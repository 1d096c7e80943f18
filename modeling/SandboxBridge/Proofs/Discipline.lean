import SandboxBridge.Proofs.Frame
import SandboxBridge.Proofs.Task

/-!
Disciplines: what can be demanded of work that calls out, so that longer work meets the demand when
its parts do. A discipline for such work is also a rule for the work in it that calls nobody.
-/

namespace SandboxBridge

open Machine Work

variable {α β : Type}

structure Discipline where
  Allows : {α : Type} → Run α → Prop
  pure {α : Type} (value : α) : Allows (pure value)
  bind {α β : Type} {run : Run α} {next : α → Run β} (first : Allows run)
    (rest : ∀ value, Allows (next value)) : Allows (run >>= next)
  look : Allows (Run.ofState get)
  abort {α : Type} : Allows (fun _ => .abort : Run α)

def Discipline.rule (d : Discipline) : Rule Machine where
  Allows work := d.Allows (Run.ofState work)
  pure value := d.pure value
  bind first rest := d.bind first rest
  look := d.look

class Run.Obeys (d : Discipline) (run : Run α) : Prop where
  allowed : d.Allows run

namespace Run.Obeys

variable {d : Discipline} {ε δ : Type}

instance (value : α) : Obeys d (pure value : Run α) :=
  ⟨d.pure value⟩

instance {run : Run α} {next : α → Run β} [first : Obeys d run]
    [rest : ∀ value, Obeys d (next value)] : Obeys d (run >>= next) :=
  ⟨d.bind first.allowed fun value => (rest value).allowed⟩

instance (found : Option α) : Obeys d (ofOption found) := by
  cases found with
  | some value => exact inferInstanceAs (Obeys d (pure value))
  | none => exact ⟨d.abort⟩

instance {work : StateM Machine α} [follows : Follows d.rule work] : Obeys d (ofState work) :=
  ⟨follows.allowed⟩

instance {work : StateM Machine α} [Follows d.rule work] : Obeys d (liftM work : Run α) :=
  inferInstanceAs (Obeys d (ofState work))

instance : Obeys d (get : Run Machine) :=
  inferInstanceAs (Obeys d (ofState get))

instance {run : Run α} {f : α → β} [Obeys d run] : Obeys d (f <$> run) :=
  inferInstanceAs (Obeys d (run >>= fun value => pure (f value)))

instance (value : α) : Obeys d (pure value : ExceptT ε Run α).run :=
  inferInstanceAs (Obeys d (pure (Except.ok value) : Run (Except ε α)))

instance (e : ε) : Obeys d (throw e : ExceptT ε Run α).run :=
  inferInstanceAs (Obeys d (pure (Except.error e) : Run (Except ε α)))

theorem bind {work : ExceptT ε Run α} {next : α → ExceptT ε Run β}
    (first : Obeys d work.run) (rest : ∀ value, Obeys d (next value).run) :
    Obeys d (work >>= next).run := by
  have matched (result : Except ε α) : Obeys d (ExceptT.bindCont next result) := by
    cases result with
    | ok value => exact rest value
    | error e => exact inferInstanceAs (Obeys d (pure (Except.error e) : Run (Except ε β)))
  exact inferInstanceAs (Obeys d (work.run >>= ExceptT.bindCont next))

instance {work : ExceptT ε Run α} {next : α → ExceptT ε Run β} [first : Obeys d work.run]
    [rest : ∀ value, Obeys d (next value).run] : Obeys d (work >>= next).run :=
  bind first rest

instance {work : ExceptT ε Run α} {f : α → β} [Obeys d work.run] : Obeys d (f <$> work).run :=
  inferInstanceAs (Obeys d (work >>= fun value => pure (f value)).run)

instance {p : Prop} [Decidable p] {yes no : ExceptT ε Run α} [Obeys d yes.run]
    [Obeys d no.run] : Obeys d (if p then yes else no).run := by
  split <;> infer_instance

instance {run : Run (Except ε α)} [obeys : Obeys d run] : Obeys d (ExceptT.mk run).run :=
  obeys

instance {run : Run α} [Obeys d run] : Obeys d (liftM run : ExceptT ε Run α).run :=
  inferInstanceAs (Obeys d (run >>= fun value => pure (Except.ok value)))

instance (found : Option α) : Obeys d (present found : ExceptT ε Run α).run :=
  inferInstanceAs (Obeys d (ofOption found >>= fun value => pure (Except.ok value)))

instance {work : Local α} [Follows d.rule work.run] : Obeys d (liftM work : Op α).run :=
  inferInstanceAs (Obeys d (ofState work.run))

instance (result : Except Error α) : Obeys d (liftM result : Op α).run :=
  inferInstanceAs (Obeys d (pure result : Run (Except Error α)))

instance {work : StateM Machine α} [Follows d.rule work] : Obeys d (liftM work : Op α).run :=
  inferInstanceAs (Obeys d (ofState work >>= fun value => pure (Except.ok value)))

instance {work : Op α} [Obeys d work.run] : Obeys d (liftM work : Host α).run :=
  inferInstanceAs (Obeys d (trapped <$> work.run))

instance {run : Run α} [Obeys d run] : Obeys d (liftM run : Host α).run :=
  inferInstanceAs (Obeys d (trapped <$> (liftM run : Op α).run))

instance {work : Local α} [Follows d.rule work.run] : Obeys d (liftM work : Host α).run :=
  inferInstanceAs (Obeys d (trapped <$> ofState work.run))

instance {work : StateM Machine α} [Follows d.rule work] : Obeys d (liftM work : Host α).run :=
  inferInstanceAs (Obeys d (ofState work >>= fun value => pure (Except.ok value)))

instance (result : Except Error α) : Obeys d (liftM result : Host α).run :=
  inferInstanceAs (Obeys d (trapped <$> (pure result : Run (Except Error α))))

instance : Obeys d (get : Op Machine).run :=
  inferInstanceAs (Obeys d (ofState get >>= fun value => pure (Except.ok value)))

instance : Obeys d (get : Host Machine).run :=
  inferInstanceAs (Obeys d (ofState get >>= fun value => pure (Except.ok value)))

instance {work : Store.Completion α} [Follows d.rule (build work.run)] :
    Obeys d (attempt work).run :=
  inferInstanceAs (Obeys d (thrown <$> ofState (build work.run)))

instance {work : ExceptT ε Run α} [Obeys d work.run] :
    Obeys d (outcome work : ExceptT δ Run (Except ε α)).run :=
  inferInstanceAs (Obeys d (Except.ok <$> work.run))

end Run.Obeys

end SandboxBridge

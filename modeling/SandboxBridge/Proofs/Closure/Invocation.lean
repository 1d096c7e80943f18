import SandboxBridge.Proofs.Closure.Respect
import SandboxBridge.Proofs.Discipline.Requests

/-!
What the bridge does to closures respects their lives: making, calling, destroying and dropping.
-/

namespace SandboxBridge

open Machine Work

namespace Machine

def withClosure (m : Machine) (index : Nat) (c : Closure) : Machine :=
  { m with store := { m.store with closures := m.store.closures.set! index c } }

theorem withClosure_own {m : Machine} {index : Nat} {stored : Closure}
    (found : m.closures[index]? = some stored) (c : Closure) :
    (m.withClosure index c).closures[index]? = some c := by
  have inside : index < m.store.closures.size := (Array.getElem?_eq_some_iff.mp found).1
  simp [closures, withClosure, inside]

theorem withClosure_other {index closure : Nat} (other : closure ≠ index) (m : Machine)
    (c : Closure) : (m.withClosure closure c).closures[index]? = m.closures[index]? := by
  simp [closures, withClosure, other]

theorem closure_eq {m : Machine} {index : Nat} {c : Closure}
    (found : m.closures[index]? = some c) : m.closure index = c := by
  have found : m.store.closures[index]? = some c := found
  simp [closure, found]

theorem closure_eq_missing {m : Machine} {index : Nat} (none : m.closures[index]? = none) :
    m.closure index = .missing := by
  have none : m.store.closures[index]? = .none := none
  simp [closure, none]

end Machine

theorem wrapClosure_eq (word environment invoke destructor : UInt32) (m : Machine) :
    wrapClosure word environment invoke destructor m =
      let c := Closure.wrap word environment invoke destructor
      let made := { m with store := { m.store with closures := m.store.closures.push c } }
      .pass (.made m.closures.size word environment invoke destructor) made
        (.done (.closure m.closures.size) made) :=
  rfl

theorem run_enterClosure (index : Nat) (m : Machine) :
    (enterClosure index).run m = match (m.closure index).enter with
      | .ok (lent, entered) => (.ok lent, m.withClosure index entered)
      | .error e => (.error e, m) := by
  unfold enterClosure
  rw [Work.run_bind, Work.run_get]
  simp only [Work.run_bind, Work.run_liftExcept]
  cases (m.closure index).enter <;> rfl

theorem invokeClosure_eq (index : Nat) (args : List Value) (m : Machine) :
    (invokeClosure index args).run m = match (m.closure index).enter with
      | .ok (lent, entered) =>
        .pass (.entered index lent) (m.withClosure index entered)
          ((serveClosure index lent args).run (m.withClosure index entered))
      | .error e => .done (.error (.trap e)) m := by
  unfold invokeClosure
  rw [Host.run_local_bind, run_enterClosure]
  cases (m.closure index).enter <;> rfl

theorem leaveClosure_eq (index : Nat) (lent : Option UInt32) (m : Machine) :
    (leaveClosure index lent).run m =
      let (destroy, left) := (m.closure index).leave lent
      .pass (.left index lent) (m.withClosure index left) (match destroy with
        | some word => (destroyClosure index word).run (m.withClosure index left)
        | none => .done (.ok ()) (m.withClosure index left)) := by
  unfold leaveClosure
  rw [Op.run_get_bind]
  rcases (m.closure index).leave lent with ⟨_ | word, left⟩ <;> rfl

theorem destroyClosure_eq (index : Nat) (word : UInt32) (m : Machine) :
    (destroyClosure index word).run m =
      let c := m.closure index
      let noted := note .debug LogTarget.closure
        s!"closure ({word.toNat}, {c.environment.toNat}) destroyed"
      .call (.exported (.destructor index) c.destructor.toNat [.i32 word, .i32 c.environment])
        (noted.run m).2 fun outcome m => .done (outcome.map fun _ => ()) m := by
  unfold destroyClosure
  rw [Op.run_get_bind]
  change Task.call _ _ _ = Task.call _ _ _
  congr 1
  funext outcome m
  cases outcome <;> rfl

theorem dropClosure_eq (index : Nat) (m : Machine) :
    (dropClosure index).run m = match (m.closure index).drop with
      | (.ok (.destroy word), dropped) =>
        .pass (.dropped index) (m.withClosure index dropped)
          (((destroyClosure index word).run (m.withClosure index dropped)).bind fun result m =>
            .done (result.map fun _ => true) m)
      | (.ok (.deferred calls), dropped) =>
        let noted := note .debug LogTarget.closure
          s!"closure drop deferred; {calls} call(s) in flight"
        .pass (.dropped index) (m.withClosure index dropped)
          (.done (.ok false) (noted.run (m.withClosure index dropped)).2)
      | (.error e, dropped) => .done (.error e) (m.withClosure index dropped) := by
  unfold dropClosure
  rw [Op.run_get_bind]
  rcases (m.closure index).drop with ⟨e | calls | word, dropped⟩
  · rfl
  · rfl
  · change Task.pass _ _ ((destroyClosure index word >>= fun _ => pure true : Op Bool).run _) = _
    rw [Op.run_bind_pure]
    rfl

def takeAnswer : Except Error (List Word) → Run (Except Fault Value)
  | .ok results => (takeResult results).run
  | .error e => pure (.error (.trap e))

theorem callShim_eq (index : Nat) (word : UInt32) (args : List Value) (m : Machine) :
    (callShim index word args).run m = match (allocateAll [] args).run m with
      | (.ok handles, m') =>
        let c := m.closure index
        let words := handles.map fun handle => Word.ofNat handle.index
        .call (.exported (.shim index) c.invoke.toNat (.i32 word :: .i32 c.environment :: words)) m'
          takeAnswer
      | (.error e, m') => .done (.error (.trap e)) m' := by
  unfold callShim
  rw [Host.run_get_bind, Host.run_local_bind]
  rcases (allocateAll [] args).run m with ⟨e | handles, m'⟩
  · rfl
  · change Task.call _ _ _ = Task.call _ _ _
    congr 1
    funext outcome m
    cases outcome <;> rfl

/-- Ends a call that was lent `lent`, whatever has come of it. -/
def concludeCall (index : Nat) (lent : Option UInt32) (result : Except Fault Value) :
    Run (Except Fault Value) := fun m =>
  ((leaveClosure index lent).run m).bind fun left => (settleCall result left).run

theorem serveClosure_lent_eq (index : Nat) (word : UInt32) (args : List Value) (m : Machine) :
    (serveClosure index (some word) args).run m =
      ((callShim index word args).run m).bind (concludeCall index (some word)) := by
  unfold serveClosure concludeCall
  simp only [Host.run_outcome_bind]

theorem serveClosure_refused_eq (index : Nat) (args : List Value) (m : Machine) :
    (serveClosure index none args).run m =
      concludeCall index none (.error (.trap .invokedRecursively)) m := by
  unfold serveClosure concludeCall
  simp only [Host.run_outcome_bind]
  rfl

theorem concludeCall_leaves (index : Nat) (lent : Option UInt32) (result : Except Fault Value)
    (m : Machine) : (concludeCall index lent result m).Leaves index lent := by
  unfold concludeCall
  rw [leaveClosure_eq]
  exact Task.Leaves.bind ⟨_, _, rfl⟩ _

theorem takeAnswer_done (outcome : Except Error (List Word)) (m : Machine) :
    ∃ result m', takeAnswer outcome m = .done result m' ∧ m'.closures = m.closures := by
  cases outcome with
  | error e => exact ⟨_, m, rfl, rfl⟩
  | ok results =>
    change ∃ result m', (takeResult results).run m = .done result m' ∧ m'.closures = m.closures
    unfold takeResult
    cases results.head? with
    | none => exact ⟨_, m, rfl, rfl⟩
    | some result =>
      dsimp only
      cases result.asUInt32 with
      | error e => exact ⟨_, m, rfl, rfl⟩
      | ok word =>
        have keeps : Keeps closures (take (.ofWord word)).run := inferInstance
        exact ⟨_, _, Host.run_local (take (.ofWord word)) m, keeps.same m⟩

/-! Making a closure. -/

theorem respects_wrap (index : Nat) (word environment invoke destructor : UInt32) :
    Run.Respects index (wrapClosure word environment invoke destructor) where
  allowed m l agrees settled := by
    rw [wrapClosure_eq]
    have pushed (c : Closure) : (m.closures.push c)[index]? =
        if index = m.closures.size then some c else m.closures[index]? := by
      rw [Array.getElem?_push]
    by_cases own : m.closures.size = index
    · have new : l = {} := by rwa [Array.getElem?_eq_none (Nat.le_of_eq own)] at agrees
      subst new
      have agrees' : Life.Agrees { origin := some ⟨word, environment, invoke, destructor⟩ }
          (m.closures.push (.wrap word environment invoke destructor))[index]? := by
        rw [pushed, if_pos own.symm]
        exact ⟨_, .wrap ⟨word, environment, invoke, destructor⟩⟩
      refine .pass_own own settled.paid rfl agrees' ⟨agrees', ⟨?_, rfl⟩, nofun, rfl, rfl⟩
      simp [Life.Owes, Life.after]
    · have agrees' : l.Agrees
          (m.closures.push (.wrap word environment invoke destructor))[index]? := by
        rwa [pushed, if_neg (Ne.symm own)]
      exact .pass_other own settled agrees' ⟨agrees', settled, .refl l⟩

section Other

variable {index closure : Nat}

theorem destroyClosure_other (other : closure ≠ index) (word : UInt32) :
    Run.Respects index (destroyClosure closure word).run := by
  unfold destroyClosure callTable
  have (target : Nat) (args : List Word) :
      Run.Respects index (Run.call (.exported (.destructor closure) target args)) :=
    .call fun found => other (Option.some.inj found)
  infer_instance

theorem leaveClosure_other (other : closure ≠ index) (lent : Option UInt32) :
    Run.Respects index (leaveClosure closure lent).run where
  allowed m l agrees settled := by
    rw [leaveClosure_eq]
    rcases (m.closure closure).leave lent with ⟨destroy, left⟩
    rw [← withClosure_other other m left] at agrees
    refine .pass_other other settled agrees ?_
    cases destroy with
    | none => exact ⟨agrees, settled, .refl l⟩
    | some word => exact (destroyClosure_other other word).task _ l agrees settled

theorem dropClosure_other (other : closure ≠ index) :
    Run.Respects index (dropClosure closure).run where
  allowed m l agrees settled := by
    rw [dropClosure_eq]
    rcases (m.closure closure).drop with ⟨e | calls | word, dropped⟩ <;>
      rw [← withClosure_other other m dropped] at agrees
    · exact ⟨agrees, settled, .refl l⟩
    · exact .pass_other other settled agrees ⟨agrees, settled, .refl l⟩
    · have destroyed := (destroyClosure_other other word).task _ l agrees settled
      exact .pass_other other settled agrees
        (destroyed.bind fun _ _ _ agrees' settled' resumes => ⟨agrees', settled', resumes⟩)

instance (result : Except Fault Value) (left : Except Error Unit) :
    Run.Respects index (settleCall result left).run := by
  unfold settleCall
  split <;> infer_instance

theorem callShim_other (other : closure ≠ index) (word : UInt32) (args : List Value) :
    Run.Respects index (callShim closure word args).run := by
  unfold callShim callTable
  have (target : Nat) (args : List Word) :
      Run.Respects index (Run.call (.exported (.shim closure) target args)) :=
    .call fun found => other (Option.some.inj found)
  infer_instance

theorem serveClosure_other (other : closure ≠ index) (lent : Option UInt32) (args : List Value) :
    Run.Respects index (serveClosure closure lent args).run := by
  have left := leaveClosure_other other
  have run := callShim_other other
  unfold serveClosure
  cases lent <;> infer_instance

theorem invokeClosure_other (other : closure ≠ index) (args : List Value) :
    Run.Respects index (invokeClosure closure args).run where
  allowed m l agrees settled := by
    rw [invokeClosure_eq]
    cases (m.closure closure).enter with
    | error e => exact ⟨agrees, settled, .refl l⟩
    | ok entered =>
      obtain ⟨lent, entered⟩ := entered
      rw [← withClosure_other other m entered] at agrees
      exact .pass_other other settled agrees
        ((serveClosure_other other lent args).task _ l agrees settled)

end Other

section Own

variable {index : Nat} {m : Machine} {l base : Life} {w : Wrapping} {c : Closure}

theorem destroyClosure_own (t : l.Tallies w c) (found : m.closures[index]? = some c)
    (owes : l.Owes) (served : l.shims = l.loans.length) (earlier : base.Resumes l) :
    ((destroyClosure index w.word).run m).Respects index base l := by
  rw [destroyClosure_eq, closure_eq found]
  have agrees : l.Agrees m.closures[index]? := by
    rw [found]
    exact ⟨w, t⟩
  refine .call_own rfl ⟨w, t.origin, owes, ?_, ?_⟩ nofun agrees ?_ ?_
  · rw [t.made.2.2]
  · rw [t.made.1]
  · exact ⟨by simp [Life.Owes, Life.after], served⟩
  · intro outcome m' l' agrees' settled' resumes
    have begun : l.Resumes (l.after (.called (.exported (.destructor index) c.destructor.toNat
        [.i32 w.word, .i32 c.environment]))) := ⟨fun _ => rfl, rfl, rfl⟩
    exact ⟨agrees', settled', earlier.trans (begun.trans resumes)⟩

theorem leaveClosure_lent (t : l.Tallies w c) (found : m.closures[index]? = some c)
    (loans : l.loans = [some w.word]) (quiet : l.shims = 0)
    (earlier : base.Resumes (l.after (.passed (.left index (some w.word))))) :
    ((leaveClosure index (some w.word)).run m).Respects index base l := by
  obtain ⟨left, leaves, -, tallies⟩ := t.leave_lent index loans quiet
  have stored := withClosure_own found left
  have agrees : (l.after (.passed (.left index (some w.word)))).Agrees
      (m.withClosure index left).closures[index]? := by
    rw [stored]
    exact ⟨w, tallies⟩
  rw [leaveClosure_eq, closure_eq found, leaves]
  refine .pass_own rfl ?_ ?_ agrees ?_
  · simp [Life.Owes, loans]
  · simp [Life.Allows, loans]
  · have served : l.shims = (l.loans.erase (some w.word)).length := by simp [loans, quiet]
    cases gone : l.dropped with
    | true =>
      exact destroyClosure_own tallies stored (t.owes_after_left index loans gone) served earlier
    | false =>
      refine ⟨agrees, ⟨?_, served⟩, earlier⟩
      simp [Life.Owes, gone]

theorem leaveClosure_refused {rest : List (Option UInt32)} (t : l.Tallies w c)
    (found : m.closures[index]? = some c) (loans : l.loans = none :: rest)
    (served : l.shims = rest.length)
    (earlier : base.Resumes (l.after (.passed (.left index none)))) :
    ((leaveClosure index none).run m).Respects index base l := by
  obtain ⟨leaves, more, tallies⟩ := t.leave_refused index loans
  have agrees : (l.after (.passed (.left index none))).Agrees
      (m.withClosure index { c with references := c.references - 1 }).closures[index]? := by
    rw [withClosure_own found]
    exact ⟨w, tallies⟩
  rw [leaveClosure_eq, closure_eq found, leaves]
  refine .pass_own rfl ?_ ?_ agrees ⟨agrees, ⟨?_, ?_⟩, earlier⟩
  · simp [Life.Owes, loans]
  · simp [Life.Allows, loans]
  · rw [tallies.owes_iff]
    simp only
    omega
  · simp [loans, served]

theorem dropClosure_own (agrees : l.Agrees m.closures[index]?) (settled : l.Settled) :
    ((dropClosure index).run m).Respects index l l := by
  rw [dropClosure_eq]
  cases found : m.closures[index]? with
  | none =>
    rw [closure_eq_missing found]
    have outside : m.closures.size ≤ index := Array.getElem?_eq_none_iff.mp found
    have same : (m.withClosure index .missing).closures = m.closures := by
      exact Array.setIfInBounds_eq_of_size_le outside
    rw [← same] at agrees
    exact ⟨agrees, settled, .refl l⟩
  | some c =>
    rw [found] at agrees
    obtain ⟨w, t⟩ := agrees
    rw [closure_eq found]
    cases gone : l.dropped with
    | true =>
      rw [t.drop_again gone]
      refine ⟨?_, settled, .refl l⟩
      rw [withClosure_own found]
      exact ⟨w, t⟩
    | false =>
      obtain ⟨dropped, drops, -, tallies⟩ := t.drop_first index gone
      have stored := withClosure_own found dropped
      have agrees : (l.after (.passed (.dropped index))).Agrees
          (m.withClosure index dropped).closures[index]? := by
        rw [stored]
        exact ⟨w, tallies⟩
      have begun : l.Resumes (l.after (.passed (.dropped index))) := ⟨fun _ => rfl, rfl, rfl⟩
      rw [drops]
      -- Without loans the destructor is called here; otherwise the last call that leaves owes it.
      by_cases idle : l.loans = []
      · rw [if_pos idle]
        have fresh := t.destructions
        have count := t.references
        rw [t.alive, gone] at count
        rw [if_neg (by simp at count; omega), Nat.le_zero] at fresh
        refine .pass_own rfl settled.paid gone agrees ?_
        exact (destroyClosure_own tallies stored ⟨rfl, idle, fresh⟩ settled.served begun).bind
          fun _ _ _ agrees' settled' resumes => ⟨agrees', settled', resumes⟩
      · rw [if_neg idle]
        exact .pass_own rfl settled.paid gone agrees
          ⟨agrees, ⟨fun owes => idle owes.2.1, settled.served⟩, begun⟩

theorem concludeCall_lent (t : l.Tallies w c) (found : m.closures[index]? = some c)
    (loans : l.loans = [some w.word]) (quiet : l.shims = 0)
    (earlier : base.Resumes (l.after (.passed (.left index (some w.word)))))
    (result : Except Fault Value) :
    (concludeCall index (some w.word) result m).Respects index base l := by
  apply (leaveClosure_lent t found loans quiet earlier).bind
  intro left m' l' agrees settled resumes
  have rest : Run.Respects index (settleCall result left).run := inferInstance
  exact (rest.task m' l' agrees settled).weaken resumes

theorem serveClosure_lent (t : l.Tallies w c) (found : m.closures[index]? = some c)
    (loans : l.loans = [some w.word]) (quiet : l.shims = 0) (args : List Value)
    (earlier : ∀ l' : Life, l.Resumes l' →
      base.Resumes (l'.after (.passed (.left index (some w.word))))) :
    ((serveClosure index (some w.word) args).run m).Respects index base l := by
  have keeps : Keeps closures (allocateAll [] args).run := inferInstance
  have placed : ((allocateAll [] args).run m).2.closures = m.closures := keeps.same m
  rw [serveClosure_lent_eq, callShim_eq, closure_eq found]
  revert placed
  generalize (allocateAll [] args).run m = done
  rcases done with ⟨e | handles, reached⟩ <;> intro placed <;> rw [← placed] at found
  · exact concludeCall_lent t found loans quiet (earlier l (.refl l)) _
  · have agrees : l.Agrees reached.closures[index]? := by
      rw [found]
      exact ⟨w, t⟩
    refine .call_own rfl ⟨w, t.origin, loans, quiet, ?_, ?_⟩ ?_ agrees ?_ ?_
    · rw [t.made.2.1]
    · rw [t.made.1]
      exact ⟨_, rfl⟩
    · intro _
      refine ⟨w, t.origin, ?_⟩
      intro outcome m'
      obtain ⟨result, m'', answered, -⟩ := takeAnswer_done outcome m'
      rw [answered]
      exact concludeCall_leaves index (some w.word) result m''
    · exact ⟨by simp [Life.Owes, Life.after, loans], by simp [Life.after, loans, quiet]⟩
      -- Back from the shim: the module may have called this closure meanwhile, or dropped it.
    · intro outcome m' l' agrees' _ resumes
      have returned := agrees'.returned index (.exported (.shim index) c.invoke.toNat
        (.i32 w.word :: .i32 c.environment :: handles.map fun handle => Word.ofNat handle.index))
      rw [Life.next_own rfl] at returned
      have resumed : l.Resumes { l' with shims := l'.shims - 1 } :=
        ⟨resumes.origin, resumes.loans, by simp only [resumes.shims]; rfl⟩
      obtain ⟨result, m'', answered, same⟩ := takeAnswer_done outcome m'
      rw [← same] at returned
      obtain ⟨c', found', t'⟩ :=
        returned.tallies ((resumed.origin (by rw [t.origin]; rfl)).trans t.origin)
      change (Task.bind (takeAnswer outcome m') _).Respects index base _
      rw [answered]
      exact concludeCall_lent t' found' (resumed.loans.trans loans) (resumed.shims.trans quiet)
        (earlier _ resumed) result

theorem serveClosure_refused {rest : List (Option UInt32)} (t : l.Tallies w c)
    (found : m.closures[index]? = some c) (loans : l.loans = none :: rest)
    (served : l.shims = rest.length) (args : List Value)
    (earlier : base.Resumes (l.after (.passed (.left index none)))) :
    ((serveClosure index none args).run m).Respects index base l := by
  rw [serveClosure_refused_eq]
  apply (leaveClosure_refused t found loans served earlier).bind
  intro left m' l' agrees settled resumes
  have rest : Run.Respects index
      (settleCall (.error (.trap .invokedRecursively)) left).run := inferInstance
  exact (rest.task m' l' agrees settled).weaken resumes

theorem invokeClosure_own (agrees : l.Agrees m.closures[index]?) (settled : l.Settled)
    (args : List Value) : ((invokeClosure index args).run m).Respects index l l := by
  rw [invokeClosure_eq]
  cases found : m.closures[index]? with
  | none =>
    rw [closure_eq_missing found]
    exact ⟨agrees, settled, .refl l⟩
  | some c =>
    have whole := agrees
    rw [found] at agrees
    obtain ⟨w, t⟩ := agrees
    rw [closure_eq found]
    by_cases gone : c.references = 0
    · rw [t.enter_gone gone]
      exact ⟨whole, settled, .refl l⟩
    have fresh := t.destructions
    rw [if_neg gone, Nat.le_zero] at fresh
    by_cases idle : l.loans = []
    · have quiet := t.shims
      rw [idle] at quiet
      have tallies := t.entered index gone (.start idle)
      have stored := withClosure_own found
        { c with context := .borrowed, references := c.references + 1 }
      rw [t.enter_idle gone idle]
      refine .pass_own rfl settled.paid fresh (by rw [stored]; exact ⟨w, tallies⟩) ?_
      refine serveClosure_lent tallies stored ?_ (Nat.le_zero.mp quiet) args fun l' resumes => ?_
      · simp [Life.after, idle]
      · refine ⟨resumes.origin, ?_, resumes.shims⟩
        simp [Life.after, resumes.loans]
    · have tallies := t.entered index gone (t.loans.resolve_left idle).refuse
      have stored := withClosure_own found
        { c with context := .borrowed, references := c.references + 1 }
      rw [t.enter_busy idle]
      refine .pass_own rfl settled.paid fresh (by rw [stored]; exact ⟨w, tallies⟩) ?_
      refine serveClosure_refused tallies stored rfl settled.served args ⟨fun _ => rfl, ?_, rfl⟩
      simp [Life.after]

end Own

theorem respects_drop (index closure : Nat) : Run.Respects index (dropClosure closure).run := by
  by_cases own : closure = index
  · subst own
    exact ⟨fun _ _ agrees settled => dropClosure_own agrees settled⟩
  · exact dropClosure_other own

theorem respects_invoke (index closure : Nat) (args : List Value) :
    Run.Respects index (invokeClosure closure args).run := by
  by_cases own : closure = index
  · subst own
    exact ⟨fun _ _ agrees settled => invokeClosure_own agrees settled args⟩
  · exact invokeClosure_other own args

/-- So whatever is asked of a bridge respects the lives of closures. -/
instance (index : Nat) : (Life.discipline index).AllowsService where
  call _ other := (Run.Respects.call (other ▸ nofun)).allowed
  invoke closure args := (respects_invoke index closure args).allowed
  wrap word environment invoke destructor :=
    (respects_wrap index word environment invoke destructor).allowed
  drop closure := (respects_drop index closure).allowed

end SandboxBridge

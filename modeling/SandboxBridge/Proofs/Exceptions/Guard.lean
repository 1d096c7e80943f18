import SandboxBridge.Proofs.Exceptions.Slot
import SandboxBridge.Proofs.Imports.Accounting
import SandboxBridge.Proofs.Rendering.Texts

/-!
The guard at work. However a guarded call comes to its end, and whatever the code around the bridge
does meanwhile, an exception of the host is parked and leaves a neutral answer, a trap goes on as it
is, and in any other case the guard does nothing. So a call fails for its arguments, for a trap, or
for want of a handle. It comes to no end where the text of a value is asked for that is endless.
-/

namespace SandboxBridge

open Machine Work Contract

/-- From `m` to `m'`, an exception has come into the slot, behind a fresh handle. The handle that the
slot held before is released, and nothing else has changed but the log. -/
structure Machine.Parked (exception : Value) (m m' : Machine) : Prop where
  holds : ∃ h, m'.pending.current = some h ∧ m.table.isLive h = false ∧
    m'.table.get h = .ok exception ∧
    ∀ other, other ≠ h → m.pending.current ≠ some other → m'.table.get other = m.table.get other
  superseded : ∀ old, m.pending.current = some old → m'.table.isLive old = false
  memory : m'.memory = m.memory
  guest : m'.guest = m.guest
  store : m'.store = m.store

theorem Machine.Parks.parked {exception : Value} {m m' : Machine}
    (parks : Parks exception m (.ok (), m'))
    (live : ∀ old, m.pending.current = some old → m.table.isLive old) :
    m.Parked exception m' := by
  cases parks with
  | @empty h t journal none formed gains =>
    refine ⟨⟨h, rfl, gains.fresh, gains.denotes, fun other different _ =>
      gains.others other different⟩, fun old pending => ?_, rfl, rfl, rfl⟩
    rw [none] at pending
    cases pending
  | @superseding h old t t' journal pending formed gains loses =>
    have different : h ≠ old := gains.ne_of_isLive (live old pending) |>.symm
    refine ⟨⟨h, rfl, gains.fresh, (loses.others h different).trans gains.denotes,
      fun other apart mine => ?_⟩, fun other same => ?_, rfl, rfl, rfl⟩
    · have kept : other ≠ old := fun same => mine (same ▸ pending)
      exact (loses.others other kept).trans (gains.others other apart)
    · rw [pending] at same
      cases same
      exact loses.after

/-- From `m` to `m'`, an answer has been made of what the host has come to: the slot for exceptions
is as it was, and there is at most a fresh handle more. Without a handle for it there is no answer,
and one that is written can fail for other reasons, too. -/
structure Machine.Delivers {α : Type} (writes : Prop) (m : Machine) (answer : Except Error α)
    (m' : Machine) : Prop where
  pending : m'.pending = m.pending
  creates : ∃ created, m.table.Creates created m'.table
  failed : ∀ e, answer = .error e →
    m'.table = m.table ∧ (e = .tableFull ∧ m.table.Full ∨ writes)

namespace Machine

variable {α : Type} {m : Machine}

theorem delivers_pure (value : α) (writes : Prop) (m : Machine) :
    m.Delivers writes (.ok value) m :=
  ⟨rfl, ⟨none, .nothing⟩, nofun⟩

theorem delivers_allocate (formed : m.table.WellFormed) (value : Value) (writes : Prop) :
    m.Delivers writes ((allocate value).run m).1 ((allocate value).run m).2 := by
  cases next : m.table.next with
  | error e =>
    have full := (formed.next_error_iff e).mp next
    rw [run_allocate_error value next]
    refine ⟨rfl, ⟨none, .nothing⟩, ?_⟩
    rintro _ ⟨⟩
    exact ⟨rfl, .inl full⟩
  | ok h =>
    obtain ⟨journal, ran⟩ := run_allocate_ok value next
    rw [ran]
    exact ⟨rfl, ⟨some h, .fresh (formed.occupy next value).2⟩, nofun⟩

theorem delivers_allocateOptional (formed : m.table.WellFormed) (value : Value) (writes : Prop) :
    m.Delivers writes ((allocateOptional value).run m).1 ((allocateOptional value).run m).2 := by
  unfold allocateOptional
  cases value.isNullish with
  | true => exact delivers_pure _ writes m
  | false => exact delivers_allocate formed value writes

theorem Delivers.map {β : Type} {writes : Prop} {work : Local α} (f : α → β)
    (delivers : m.Delivers writes (work.run m).1 (work.run m).2) :
    m.Delivers writes ((f <$> work).run m).1 ((f <$> work).run m).2 := by
  rw [map_eq_pure_bind, run_bind_pure]
  refine ⟨delivers.pending, delivers.creates, fun e failed => delivers.failed e ?_⟩
  cases result : (work.run m).1 with
  | ok value =>
    rw [result] at failed
    cases failed
  | error e' =>
    rw [result] at failed
    cases failed
    rfl

theorem delivers_writing {work : Local α} (keeps : Keeps core work.run) (m : Machine) :
    m.Delivers True (work.run m).1 (work.run m).2 := by
  have same := (keeps_custody keeps).same m
  simp only [custody, Prod.mk.injEq] at same
  refine ⟨same.2.1, ⟨none, ?_⟩, fun _ _ => ⟨same.1, .inr trivial⟩⟩
  change m.table.Creates none ((work.run.run m).2).table
  rw [same.1]
  exact .nothing

end Machine

namespace GuardedCall

def Writes : GuardedCall → Prop
  | .storageGetItem .. => True
  | _ => False

theorem delivers_deliver {m : Machine} (formed : m.table.WellFormed) (g : GuardedCall)
    (value : Value) :
    m.Delivers g.Writes ((g.deliver value).run m).1 ((g.deliver value).run m).2 := by
  cases g with
  | getProperty | callMethod => exact (delivers_allocateOptional formed value _).map some
  | call | customEventNew => exact (delivers_allocate formed value _).map some
  | storageGetItem slot =>
    refine delivers_writing ?_ m
    dsimp only [deliver]
    infer_instance
  | _ => exact delivers_pure _ _ m

/-- How the guard settles a call whose errand has come to a result, from the machine of then. -/
def Settles (g : GuardedCall) (m : Machine) (result : Except Fault Value)
    (answer : Except Error g.Answer) (m' : Machine) : Prop :=
  match result with
  | .ok value => (g.deliver value).run m = (answer.map some, m') ∧ m.Delivers g.Writes answer m'
  | .error (.trap e) => answer = .error e ∧ m' = m
  | .error (.thrown exception) =>
    ¬m.table.Full ∧ answer = .ok g.neutral ∧ m.Parked exception m' ∨
      m.table.Full ∧ answer = .error .tableFull ∧ ∃ journal, m' = { m with journal }

/-- The text of a value is asked for that is endless: of what was thrown, or of an item that is to be
written. -/
inductive Textless (m : Machine) : GuardedCall → Except Fault Value → Prop
  | thrown {g : GuardedCall} {exception : Value} (endless : m.store.Endless exception) :
    Textless m g (.error (.thrown exception))
  | item {slot : Nat} {storage : Handle} {start length : Nat} {item : Value}
    (endless : m.store.Endless item) :
    Textless m (.storageGetItem slot storage start length) (.ok item)

/-- A property is to be set whose key is a value with an endless text. -/
inductive Nameless (m : Machine) : GuardedCall → Prop
  | key {target key value : Handle} {object name : Value} (found : m.table.get target = .ok object)
    (named : m.table.get key = .ok name) (endless : m.store.Endless name) :
    Nameless m (.reflectSet target key value)

variable {g : GuardedCall} {m m' : Machine} {result : Except Fault Value}

theorem showing_eq_none {α : Type} (value : Value) (next : String → Local (Option α))
    (silent : ∀ text, ((next text).run m).1 ≠ .ok none) :
    ((showing value next).run m).1 = .ok none ↔ m.store.Endless value := by
  rw [run_showing, ← Store.display?_eq_none_iff]
  cases m.store.display? value with
  | none => exact iff_of_true rfl rfl
  | some text => exact iff_of_false (silent text) nofun

theorem map_some_ne_none {α : Type} (work : Local α) :
    ((some <$> work).run m).1 ≠ .ok none := by
  rw [map_eq_pure_bind, run_bind_pure]
  cases (work.run m).1 <;> nofun

theorem bind_ne_none {α β : Type} {work : Local α} {next : α → Local (Option β)}
    (some : ∀ value m, ((next value).run m).1 ≠ .ok none) (m : Machine) :
    ((work >>= next).run m).1 ≠ .ok none := by
  rw [run_bind]
  rcases work.run m with ⟨e | value, m'⟩
  · nofun
  · exact some value m'

theorem pure_ne_none {α : Type} (value : α) (m : Machine) :
    ((pure (some value) : Local (Option α)).run m).1 ≠ .ok none :=
  fun same : Except.ok (some value) = Except.ok none => nomatch same

theorem nameless_iff : (g.resolve.run m).1 = .ok none ↔ g.Nameless m := by
  cases g with
  | reflectSet target key value =>
    unfold resolve object
    simp only [run_bind, run_get, run_liftExcept]
    cases found : m.table.get target with
    | error e =>
      refine iff_of_false (fun same => ?_) fun nameless => ?_
      · cases same
      · cases nameless with
        | key present => cases found.symm.trans present
    | ok object =>
      dsimp only
      cases named : m.table.get key with
      | error e =>
        refine iff_of_false (fun same => ?_) fun nameless => ?_
        · cases same
        · cases nameless with
          | key _ present => cases named.symm.trans present
      | ok name =>
        refine (showing_eq_none name _ fun text => bind_ne_none (fun _ => pure_ne_none _) m).trans
          ⟨.key found named, fun nameless => ?_⟩
        cases nameless with
        | key _ present endless =>
          cases named.symm.trans present
          exact endless
  | callMethod | setProperty | addEventListener | storageSetItem =>
    refine iff_of_false (bind_ne_none (fun _ => bind_ne_none fun _ =>
      bind_ne_none fun _ => pure_ne_none _) m) fun nameless => ?_
    cases nameless
  | _ =>
    refine iff_of_false (bind_ne_none (fun _ => bind_ne_none fun _ => pure_ne_none _) m)
      fun nameless => ?_
    cases nameless

theorem textless_iff : ((g.settle result).run m).1 = .ok none ↔ g.Textless m result := by
  -- Texts are made of what was thrown, and of an item that is delivered.
  match result with
  | .error (.trap e) =>
    refine iff_of_false nofun fun textless => ?_
    cases textless
  | .error (.thrown exception) =>
    refine (showing_eq_none exception _ fun text => ?_).trans ⟨.thrown, fun textless => ?_⟩
    · have parked := run_bind_pure (park exception) (fun _ => some g.neutral)
        (notingThrow g.operation text m)
      intro nothing
      have same := (congrArg Prod.fst parked).symm.trans nothing
      cases made : ((park exception).run (notingThrow g.operation text m)).1 with
      | ok _ =>
        rw [made] at same
        cases same
      | error e =>
        rw [made] at same
        cases same
    · cases textless with
      | thrown endless => exact endless
  | .ok value =>
    change ((g.deliver value).run m).1 = _ ↔ _
    cases g with
    | storageGetItem slot storage start length =>
      dsimp only [deliver]
      constructor
      · intro nothing
        split at nothing
        next => exact absurd nothing (map_some_ne_none _)
        next => exact .item ((showing_eq_none _ _ fun text => map_some_ne_none _).mp nothing)
      · intro textless
        cases textless with
        | item endless =>
          have filled : value.isNullish = false := by
            obtain ⟨id, -, rfl, -⟩ := endless
            rfl
          rw [filled, if_neg Bool.false_ne_true]
          exact (showing_eq_none _ _ fun text => map_some_ne_none _).mpr endless
    | getProperty | callMethod | call | customEventNew =>
      refine iff_of_false (map_some_ne_none _) fun textless => ?_
      cases textless
    | _ =>
      refine iff_of_false nofun fun textless => ?_
      cases textless

theorem settles {waiting : Option Value} (awaits : m.Awaits waiting)
    {answer : Except Error g.Answer} (settled : (g.settle result).run m = (answer.map some, m')) :
    g.Settles m result answer m' := by
  match result with
  | .ok value =>
    have delivers := g.delivers_deliver awaits.formed value (m := m)
    change (g.deliver value).run m = _ at settled
    rw [settled] at delivers
    refine ⟨settled, delivers.pending, delivers.creates, fun e failed => delivers.failed e ?_⟩
    rw [failed]
    rfl
  | .error (.trap e) =>
    obtain ⟨made, rfl⟩ := Prod.mk.inj settled
    cases answer with
    | ok value => cases made
    | error e' =>
      cases made
      exact ⟨rfl, rfl⟩
  | .error (.thrown exception) =>
    change (catchFault g.operation g.neutral (.thrown exception)).run m = _ at settled
    rw [run_catchFault_thrown] at settled
    cases shown : m.store.display? exception with
    | none =>
      rw [shown] at settled
      cases answer <;> cases settled
    | some text =>
      rw [shown] at settled
      dsimp only at settled
      have awaits : (notingThrow g.operation text m).Awaits waiting := awaits.of_custody rfl
      have parks := awaits.parks exception
      -- In a full table the exception cannot be parked, and the call fails with that instead.
      by_cases full : m.table.Full
      · rw [awaits.park_full full exception] at settled
        cases answer with
        | ok value => cases settled
        | error e =>
          cases settled
          exact .inr ⟨full, rfl, _, rfl⟩
      · revert parks settled
        rcases (park exception).run (notingThrow g.operation text m) with ⟨e | _, m'⟩ <;>
          intro settled parks
        · cases parks with
          | full none => exact absurd none full
        · have parked := parks.parked fun _ => awaits.live
          cases answer with
          | error e => cases settled
          | ok value =>
            cases settled
            exact .inl ⟨full, rfl, parked.holds, parked.superseded, parked.memory, parked.guest,
              parked.store⟩

/-! Calls from beginning to end. -/

theorem conclude_done {answer : Except Error g.Answer}
    (settled : (g.settle result).run m = (answer.map some, m')) :
    (g.conclude result).run m = .done answer m' := by
  unfold conclude
  rw [Op.run_present, settled]
  cases answer <;> rfl

theorem conclude_abort (textless : g.Textless m result) : (g.conclude result).run m = .abort := by
  have nothing := textless_iff.mpr textless
  unfold conclude
  rw [Op.run_present]
  revert nothing
  rcases (g.settle result).run m with ⟨e | _ | answer, m'⟩ <;> intro nothing
  · cases nothing
  · rfl
  · cases nothing

theorem settled_or_textless (g : GuardedCall) (m : Machine) (result : Except Fault Value) :
    (∃ (answer : Except Error g.Answer) (m' : Machine),
      (g.settle result).run m = (answer.map some, m')) ∨ g.Textless m result := by
  rcases settled : (g.settle result).run m with ⟨e | _ | answer, m'⟩
  · exact .inl ⟨.error e, m', rfl⟩
  · exact .inr (textless_iff.mp (congrArg Prod.fst settled))
  · exact .inl ⟨.ok answer, m', rfl⟩

theorem ends_perform_iff {errand : Errand} {m₁ : Machine}
    (resolved : g.resolve.run m = (.ok (some errand), m₁)) {may : Exchange → Prop}
    {exchanges : List Exchange} {answer : Except Error g.Answer} :
    (g.perform.run m).Ends may exchanges answer m' ↔
      ∃ result m₂, (errand.perform.run m₁).Ends may exchanges result m₂ ∧
        (g.settle result).run m₂ = (answer.map some, m') := by
  rw [run_perform, resolved]
  dsimp only
  rw [run_guarded_errand]
  refine Task.ends_bind.trans ⟨?_, ?_⟩
  · rintro ⟨early, late, result, m₂, rfl, first, last⟩
    rcases g.settled_or_textless m₂ result with ⟨answer', m₃, settled⟩ | textless
    · rw [conclude_done settled] at last
      obtain ⟨rfl, rfl, rfl⟩ := Task.ends_done.mp last
      exact ⟨result, m₂, by rwa [List.append_nil], settled⟩
    · rw [conclude_abort textless] at last
      cases last
  · rintro ⟨result, m₂, first, settled⟩
    refine ⟨exchanges, [], result, m₂, (List.append_nil _).symm, first, ?_⟩
    rw [conclude_done settled]
    exact .done

/-- A guarded call aborts with its errand, or for want of a text. -/
theorem aborts_perform_iff {errand : Errand} {m₁ : Machine}
    (resolved : g.resolve.run m = (.ok (some errand), m₁)) {may : Exchange → Prop}
    {exchanges : List Exchange} :
    (g.perform.run m).Aborts may exchanges ↔ (errand.perform.run m₁).Aborts may exchanges ∨
      ∃ result m₂, (errand.perform.run m₁).Ends may exchanges result m₂ ∧
        g.Textless m₂ result := by
  rw [run_perform, resolved]
  dsimp only
  rw [run_guarded_errand]
  refine Task.aborts_bind.trans (or_congr .rfl ⟨?_, ?_⟩)
  · rintro ⟨early, late, result, m₂, rfl, first, last⟩
    rcases g.settled_or_textless m₂ result with ⟨answer', m₃, settled⟩ | textless
    · rw [conclude_done settled] at last
      cases last
    · rw [conclude_abort textless] at last
      cases last
      exact ⟨result, m₂, by rwa [List.append_nil], textless⟩
  · rintro ⟨result, m₂, first, textless⟩
    refine ⟨exchanges, [], result, m₂, (List.append_nil _).symm, first, ?_⟩
    rw [conclude_abort textless]
    exact .abort

end GuardedCall

instance : IgnoresHandles Machine.memory :=
  ⟨fun _ _ _ _ => rfl⟩

theorem keeping_memory {α : Type} {work : StateM Machine α} (keeps : Keeps Machine.memory work) :
    (keeping Machine.memory).discipline.rule.Allows work :=
  allows_of_leads fun m _ => keeps.same m

instance : AllowsAside (keeping Machine.memory).discipline.rule where
  aside keeps := keeping_memory ⟨fun m => congrArg (fun frame => frame.2.1) (keeps.same m)⟩

instance : AllowsTaking (keeping Machine.memory).discipline.rule :=
  .of_keeping keeping_memory ⟨fun _ => rfl⟩

instance : AllowsClosures (keeping Machine.memory) :=
  .of_taking fun keeps m _ =>
    congrArg (fun (holdings : _ × Memory × _) => holdings.2.1) (keeps.same m)

namespace Errand

/-- The errand ends with a result, while nobody gives up the handle of an exception that waits. -/
def Ends (errand : Errand) (m : Machine) (exchanges : List Exchange) (result : Except Fault Value)
    (m' : Machine) : Prop :=
  (errand.perform.run m).Ends exceptions.Serves exchanges result m'

variable {errand : Errand} {m m' : Machine} {exchanges : List Exchange}
  {result : Except Fault Value}

theorem Ends.awaits {waiting : Option Value} (ends : errand.Ends m exchanges result m')
    (awaits : m.Awaits waiting) : ∃ waiting, m'.Awaits waiting := by
  have obeys : Run.Obeys exceptions.discipline errand.perform.run := inferInstance
  exact sound_of_ends (fun e sound ⟨⟨_, reached⟩, _⟩ => Account.sound_of_reaches sound reached)
    ⟨_, awaits⟩ (obeys.allowed m ⟨_, awaits⟩) ends

theorem Ends.byte? (ends : errand.Ends m exchanges result m') (address : Nat)
    (kept : ∀ e ∈ exchanges, e.answered.memory.byte? address = e.asked.memory.byte? address) :
    m'.memory.byte? address = m.memory.byte? address := by
  have obeys : Run.Obeys (keeping Machine.memory).discipline errand.perform.run := inferInstance
  exact kept_of_ends (obeys.allowed m trivial) ends (Memory.byte? · address) kept

end Errand

/-- What a guarded call comes to. It fails at once if its arguments cannot be resolved, and else it is
settled by what the errand ends with. -/
structure GuardedCall.Answered (g : GuardedCall) (m : Machine) : Prop where
  refused : ∀ e, (g.resolve.run m).1 = .error e →
    ∃ m', g.perform.run m = .done (.error e) m' ∧ m.Untouched m'
  settled : ∀ errand m₁, g.resolve.run m = (.ok (some errand), m₁) → m.Untouched m₁ ∧
    ∀ exchanges answer m', (g.perform.run m).Ends exceptions.Serves exchanges answer m' →
      ∃ result m₂, errand.Ends m₁ exchanges result m₂ ∧ g.Settles m₂ result answer m'
  answered : ∀ errand m₁, g.resolve.run m = (.ok (some errand), m₁) →
    ∀ exchanges result m₂, errand.Ends m₁ exchanges result m₂ → ¬g.Textless m₂ result →
      ∃ answer m', (g.perform.run m).Ends exceptions.Serves exchanges answer m' ∧
        g.Settles m₂ result answer m'
  /-- After a throw, the memory is what the code around the bridge has made of it. -/
  unwritten : ∀ errand m₁, g.resolve.run m = (.ok (some errand), m₁) →
    ∀ exchanges exception m₂, errand.Ends m₁ exchanges (.error (.thrown exception)) m₂ →
      ∀ answer m', g.Settles m₂ (.error (.thrown exception)) answer m' → ∀ address,
        (∀ e ∈ exchanges, e.answered.memory.byte? address = e.asked.memory.byte? address) →
        m'.memory.byte? address = m.memory.byte? address
  /-- A throw is no failure. -/
  failed : ∀ exchanges e m', (g.perform.run m).Ends exceptions.Serves exchanges (.error e) m' →
    (g.resolve.run m).1 = .error e ∨ ∃ errand m₁, g.resolve.run m = (.ok (some errand), m₁) ∧
      (errand.Ends m₁ exchanges (.error (.trap e)) m' ∨ e = .tableFull ∧ m'.table.Full ∨
        g.Writes ∧ ∃ value m₂, errand.Ends m₁ exchanges (.ok value) m₂ ∧
          (g.deliver value).run m₂ = (.error e, m'))
  /-- The process ends only where the text of a value is endless: of the key of a property that is to
  be set, of what the errand needs the text of, and of what the guard does. -/
  aborted : ∀ exchanges, (g.perform.run m).Aborts exceptions.Serves exchanges ↔
    exchanges = [] ∧ g.Nameless m ∨ ∃ errand m₁, g.resolve.run m = (.ok (some errand), m₁) ∧
      ((errand.perform.run m₁).Aborts exceptions.Serves exchanges ∨
        ∃ result m₂, errand.Ends m₁ exchanges result m₂ ∧ g.Textless m₂ result)

theorem Machine.Untouched.byte?_eq {m m' : Machine} (untouched : m.Untouched m') (address : Nat) :
    m'.memory.byte? address = m.memory.byte? address := by
  simp only [Memory.byte?, Memory.buffer, Memory.bufferAt, untouched.buffers, untouched.current]

namespace GuardedCall

variable {g : GuardedCall} {m m' : Machine}

theorem Settles.memory {exception : Value} {answer : Except Error g.Answer}
    (settles : g.Settles m (.error (.thrown exception)) answer m') : m'.memory = m.memory := by
  rcases settles with ⟨-, -, parked⟩ | ⟨-, -, journal, rfl⟩
  · exact parked.memory
  · rfl

theorem Settles.failed {result : Except Fault Value} {e : Error}
    (settles : g.Settles m result (.error e) m') :
    result = .error (.trap e) ∧ m' = m ∨ e = .tableFull ∧ m'.table.Full ∨
      g.Writes ∧ ∃ value, result = .ok value ∧ (g.deliver value).run m = (.error e, m') := by
  match result with
  | .ok value =>
    obtain ⟨ran, delivers⟩ := settles
    obtain ⟨table, ⟨rfl, full⟩ | writes⟩ := delivers.failed e rfl
    · exact .inr (.inl ⟨rfl, table ▸ full⟩)
    · exact .inr (.inr ⟨writes, value, rfl, ran⟩)
  | .error (.trap reason) =>
    obtain ⟨same, rfl⟩ := settles
    cases same
    exact .inl ⟨rfl, rfl⟩
  | .error (.thrown exception) =>
    rcases settles with ⟨-, ⟨⟩, -⟩ | ⟨full, ⟨⟩, journal, rfl⟩
    exact .inr (.inl ⟨rfl, full⟩)

theorem resolves {waiting : Option Value} (awaits : m.Awaits waiting) {errand : Errand}
    {m₁ : Machine} (resolved : g.resolve.run m = (.ok (some errand), m₁)) :
    m.Untouched m₁ ∧ m₁.Awaits waiting := by
  have keeps : Keeps core g.resolve.run := inferInstance
  have custody := (keeps_custody keeps).same m
  have untouched := (g.looks_resolve m).1
  change (g.resolve.run m).2.custody = m.custody at custody
  rw [resolved] at custody untouched
  exact ⟨untouched, awaits.of_custody custody⟩

theorem settled {waiting : Option Value} (awaits : m.Awaits waiting) {errand : Errand}
    {m₁ : Machine} (resolved : g.resolve.run m = (.ok (some errand), m₁))
    {exchanges : List Exchange} {answer : Except Error g.Answer}
    (ends : (g.perform.run m).Ends exceptions.Serves exchanges answer m') :
    ∃ result m₂, errand.Ends m₁ exchanges result m₂ ∧ g.Settles m₂ result answer m' := by
  obtain ⟨result, m₂, ends, settled⟩ := (ends_perform_iff resolved).mp ends
  obtain ⟨_, awaits⟩ := Errand.Ends.awaits ends (resolves awaits resolved).2
  exact ⟨result, m₂, ends, settles awaits settled⟩

theorem aborted (g : GuardedCall) (m : Machine) (exchanges : List Exchange) :
    (g.perform.run m).Aborts exceptions.Serves exchanges ↔
      exchanges = [] ∧ g.Nameless m ∨ ∃ errand m₁, g.resolve.run m = (.ok (some errand), m₁) ∧
        ((errand.perform.run m₁).Aborts exceptions.Serves exchanges ∨
          ∃ result m₂, errand.Ends m₁ exchanges result m₂ ∧ g.Textless m₂ result) := by
  rw [← nameless_iff]
  rcases resolved : g.resolve.run m with ⟨e | _ | errand, m₁⟩
  · rw [run_perform, resolved]
    refine iff_of_false nofun ?_
    rintro (⟨-, ⟨⟩⟩ | ⟨_, _, ⟨⟩, -⟩)
  · rw [run_perform, resolved]
    constructor
    · intro aborts
      cases aborts
      exact .inl ⟨rfl, rfl⟩
    · rintro (⟨rfl, -⟩ | ⟨_, _, ⟨⟩, -⟩)
      exact .abort
  · rw [aborts_perform_iff resolved]
    constructor
    · exact fun aborts => .inr ⟨errand, m₁, rfl, aborts⟩
    · rintro (⟨-, ⟨⟩⟩ | ⟨_, _, ⟨⟩, aborts⟩)
      exact aborts

theorem answered {waiting : Option Value} (awaits : m.Awaits waiting) (g : GuardedCall) :
    g.Answered m := by
  refine ⟨fun e unresolved => ?_, fun errand m₁ resolved => ?_, fun errand m₁ resolved => ?_,
    fun errand m₁ resolved => ?_, fun exchanges e m' ends => ?_, g.aborted m⟩
  case refine_1 =>
    have ran : g.resolve.run m = (.error e, (g.resolve.run m).2) := Prod.ext unresolved rfl
    refine ⟨(g.resolve.run m).2, ?_, (g.looks_resolve m).1⟩
    rw [run_perform, ran]
  case refine_2 => exact ⟨(resolves awaits resolved).1, fun _ _ _ => settled awaits resolved⟩
  case refine_3 =>
    intro exchanges result m₂ ends texted
    obtain ⟨_, awaits⟩ := ends.awaits (resolves awaits resolved).2
    obtain ⟨answer, m', settled⟩ := (g.settled_or_textless m₂ result).resolve_right texted
    exact ⟨answer, m', (ends_perform_iff resolved).mpr ⟨result, m₂, ends, settled⟩,
      settles awaits settled⟩
  case refine_4 =>
    intro exchanges exception m₂ ends answer m' settles address kept
    rw [settles.memory]
    exact (ends.byte? address kept).trans ((resolves awaits resolved).1.byte?_eq address)
  case refine_5 =>
    rcases resolved : g.resolve.run m with ⟨reason | _ | errand, m₁⟩
    · rw [run_perform, resolved] at ends
      obtain ⟨-, same, -⟩ := Task.ends_done.mp ends
      cases same
      exact .inl rfl
    · rw [run_perform, resolved] at ends
      cases ends
    · obtain ⟨result, m₂, ends, settles⟩ := settled awaits resolved ends
      refine .inr ⟨errand, m₁, rfl, ?_⟩
      rcases settles.failed with ⟨rfl, rfl⟩ | full | ⟨writes, value, rfl, ran⟩
      · exact .inl ends
      · exact .inr (.inl full)
      · exact .inr (.inr ⟨writes, value, m₂, ends, ran⟩)

end GuardedCall

namespace Execution

end Execution

end SandboxBridge

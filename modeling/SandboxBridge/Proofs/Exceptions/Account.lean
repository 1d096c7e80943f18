import SandboxBridge.Proofs.Ending
import SandboxBridge.Proofs.Exceptions.Contract
import SandboxBridge.Proofs.Imports.Guarded

/-!
Executions in account: which exception waits is told by the requests that have come to their end. One
that parks an exception leaves that exception, one that takes or drops it leaves none, and any other
leaves what waited before. A guarded call parks what the host throws in its course.
-/

namespace SandboxBridge

open Machine Contract Work

/-- The request, of the machine `m` and with these exchanges on its way, parks an exception: it asks
for that, or the host throws it under the guard, and there is a handle for it. -/
inductive Request.Parks (m : Machine) (exception : Value) : Request → List Exchange → Prop
  | park (room : ¬m.table.Full) : Parks m exception (.park exception) []
  | guarded {operation : String} (room : ¬m.table.Full) :
    Parks m exception (.guarded operation (.error (.thrown exception))) []
  | called {name : String} {args : List Word} {i : Import} {g : GuardedCall} {errand : Errand}
    {m₁ m₂ : Machine} {exchanges : List Exchange}
    (registered : m.imports.find? m.settings.importModule name = some (.adapter i))
    (reads : GuardedCall.read args i = some (.ok g))
    (resolved : g.resolve.run (m.noting name) = (.ok (some errand), m₁))
    (threw : (errand.perform.run m₁).Ends (fun _ => True) exchanges (.error (.thrown exception)) m₂)
    (room : ¬m₂.table.Full) : Parks m exception (.callImport name args) exchanges

inductive Request.Clears (m : Machine) : Request → Prop
  | takePending : Clears m .takePending
  | reset : Clears m .reset
  | exnTake {name : String} {args : List Word}
    (registered : m.imports.find? m.settings.importModule name = some (.adapter .exnTake)) :
    Clears m (.callImport name args)

/-- What waits when a request of the machine `m` comes to its end, if `before` has waited until
then. -/
inductive Request.Leaves (request : Request) (m : Machine) (exchanges : List Exchange)
    (before : Option Value) : Option Value → Prop
  | parked {exception : Value} (parks : request.Parks m exception exchanges) :
    Leaves request m exchanges before (some exception)
  | cleared (clears : request.Clears m) : Leaves request m exchanges before none
  | kept (parks : ∀ exception, ¬request.Parks m exception exchanges) (clears : ¬request.Clears m) :
    Leaves request m exchanges before before

theorem Request.exists_leaves (request : Request) (m : Machine) (exchanges : List Exchange)
    (before : Option Value) : ∃ after, request.Leaves m exchanges before after := by
  by_cases parks : ∃ exception, request.Parks m exception exchanges
  · obtain ⟨exception, parks⟩ := parks
    exact ⟨_, .parked parks⟩
  · by_cases clears : request.Clears m
    · exact ⟨_, .cleared clears⟩
    · exact ⟨_, .kept (not_exists.mp parks) clears⟩

/-- From the machine `m` on, the task leaves the exception waiting that waits, until it ends with what
`leaves` says after the exchanges on its way. -/
def Task.Settles {α : Type} : Task α → Machine →
    (List Exchange → Option Value → Option Value → Prop) → Prop
  | .done _ reached, m, leaves =>
    ∀ before after, m.Awaits before → leaves [] before after → reached.Awaits after
  | .call callee reached resume, m, leaves => exceptions.Leads m reached ∧
    ∀ outcome m', exceptions.Sound m' → exceptions.Answers m' callee outcome →
      (resume outcome m').Settles m' fun later => leaves (⟨callee, reached, outcome, m'⟩ :: later)
  | .pass _ reached rest, m, leaves => exceptions.Leads m reached ∧ rest.Settles reached leaves
  | .abort, _, _ => True

namespace Task

variable {α β : Type} {m : Machine} {task : Task α}
  {leaves : List Exchange → Option Value → Option Value → Prop}

theorem Settles.since {m' : Machine} (leads : exceptions.Leads m m')
    (settles : task.Settles m' leaves) : task.Settles m leaves := by
  cases task with
  | done value reached =>
    exact fun before after awaits left => settles before after (leads before awaits) left
  | call callee reached resume => exact ⟨exceptions.trans leads settles.1, settles.2⟩
  | pass milestone reached rest => exact ⟨exceptions.trans leads settles.1, settles.2⟩
  | abort => trivial

theorem Settles.then_done {f : α → β} (settles : task.Settles m leaves) :
    (task.bind fun value m => .done (f value) m).Settles m leaves := by
  induction task generalizing m leaves with
  | done value reached => exact settles
  | call callee reached resume ih =>
    exact ⟨settles.1, fun outcome m' sound answers =>
      ih outcome m' (settles.2 outcome m' sound answers)⟩
  | pass milestone reached rest ih => exact ⟨settles.1, ih settles.2⟩
  | abort => trivial

theorem Fulfils.settles (fulfils : task.Fulfils exceptions m)
    (kept : ∀ exchanges before after, leaves exchanges before after → after = before) :
    task.Settles m leaves := by
  induction task generalizing m leaves with
  | done value reached =>
    intro before after awaits left
    rw [kept [] before after left]
    exact fulfils before awaits
  | call callee reached resume ih =>
    exact ⟨fulfils.1, fun outcome m' sound answers =>
      ih outcome m' (fulfils.2 outcome m' sound answers) fun later => kept (_ :: later)⟩
  | pass milestone reached rest ih => exact ⟨fulfils.1, ih fulfils.2 kept⟩
  | abort => trivial

theorem Fulfils.settles_bind {next : α → Machine → Task β} (sound : exceptions.Sound m)
    (first : task.Fulfils exceptions m)
    (rest : ∀ exchanges value m', task.Ends (fun _ => True) exchanges value m' →
      exceptions.Sound m' → (next value m').Settles m' fun later => leaves (exchanges ++ later)) :
    (task.bind next).Settles m leaves := by
  induction task generalizing m leaves with
  | done value reached =>
    exact (rest [] value reached .done (exceptions.sound first sound)).since first
  | call callee reached resume ih =>
    refine ⟨first.1, fun outcome m' sound answers =>
      ih outcome m' sound (first.2 outcome m' sound answers) fun exchanges value m'' ends =>
        rest (_ :: exchanges) value m'' (.call trivial ends)⟩
  | pass milestone reached task ih =>
    exact ⟨first.1, ih (exceptions.sound first.1 sound) first.2 fun exchanges value m' ends =>
      rest exchanges value m' (.pass ends)⟩
  | abort => trivial

end Task

variable {m : Machine}

theorem settles_catchFault {α : Type} (operation : String) (neutral : α) (fault : Fault)
    {leaves : List Exchange → Option Value → Option Value → Prop}
    (threw : ∀ exception before after, fault = .thrown exception → leaves [] before after →
      ¬m.table.Full ∧ after = some exception ∨ m.table.Full ∧ after = before)
    (trapped : ∀ error before after, fault = .trap error → leaves [] before after → after = before) :
    ((liftM (GuardedCall.catchFault operation neutral fault) >>= present : Op α).run m).Settles m
      leaves := by
  rw [Op.run_present]
  cases fault with
  | trap error =>
    intro before after awaits left
    rw [trapped error before after rfl left]
    exact awaits
  | thrown exception =>
    rw [GuardedCall.run_catchFault_thrown]
    cases m.store.display? exception with
    | none => trivial
    | some text =>
      dsimp only
      have settles (result : Except Error Unit) (m' : Machine)
          (parked : (park exception).run (GuardedCall.notingThrow operation text m) = (result, m'))
          (before after : Option Value) (awaits : m.Awaits before) (left : leaves [] before after) :
          m'.Awaits after := by
        have awaits : (GuardedCall.notingThrow operation text m).Awaits before :=
          awaits.of_custody rfl
        obtain ⟨room, rfl⟩ | ⟨full, rfl⟩ := threw exception before after rfl left
        · have later := awaits.park room exception
          rwa [parked] at later
        · rw [awaits.park_full full exception] at parked
          cases parked
          exact awaits
      cases parked : (park exception).run (GuardedCall.notingThrow operation text m) with
      | mk result m' => cases result <;> exact settles _ m' parked

namespace Request

theorem settles_park (exception : Value) :
    ((Request.park exception).perform m).Settles m ((Request.park exception).Leaves m) := by
  intro before after awaits left
  cases left with
  | parked parks =>
    cases parks with
    | park room => exact awaits.park room exception
  | cleared clears => cases clears
  | kept parks clears =>
    have full : m.table.Full := by
      by_contra room
      exact parks exception (.park room)
    change (((Machine.park exception).run m).2).Awaits before
    rw [awaits.park_full full exception]
    exact awaits

theorem settles_guarded (operation : String) (result : Except Fault Nat) :
    ((Request.guarded operation result).perform m).Settles m
      ((Request.guarded operation result).Leaves m) := by
  change ((SandboxBridge.guarded operation 0 (.mk (pure result))).run m).Settles _ _
  rw [GuardedCall.run_guarded]
  cases result with
  | ok value =>
    intro before after awaits left
    cases left with
    | parked parks => cases parks
    | cleared clears => cases clears
    | kept => exact awaits
  | error fault =>
    refine settles_catchFault operation 0 fault ?_ ?_
    · rintro exception before after rfl left
      cases left with
      | parked parks =>
        cases parks with
        | guarded room => exact .inl ⟨room, rfl⟩
      | cleared clears => cases clears
      | kept parks =>
        by_cases full : m.table.Full
        · exact .inr ⟨full, rfl⟩
        · exact absurd (.guarded full) (parks exception)
    · rintro error before after rfl left
      cases left with
      | parked parks => cases parks
      | cleared clears => cases clears
      | kept => rfl

theorem awaits_none {request : Request} {m₁ reached : Machine} (clears : request.Clears m)
    (silent : ∀ exception, ¬request.Parks m exception [])
    (emptied : ∀ before, m₁.Awaits before → reached.Awaits none) (before after : Option Value)
    (awaits : m₁.Awaits before) (left : request.Leaves m [] before after) : reached.Awaits after := by
  cases left with
  | parked parks => exact absurd parks (silent _)
  | cleared _ => exact emptied before awaits
  | kept _ uncleared => exact absurd clears uncleared

theorem settles_takePending :
    (Request.takePending.perform m).Settles m (Request.takePending.Leaves m) :=
  awaits_none .takePending (fun _ parks => nomatch parks) fun _ awaits => awaits.takePending

theorem settles_reset : (Request.reset.perform m).Settles m (Request.reset.Leaves m) :=
  awaits_none .reset (fun _ parks => nomatch parks) fun _ awaits => awaits.reset

end Request

/-! Imports that keep the account. -/

section Imports

variable {name : String} {args : List Word} {i : Import}

theorem Request.Clears.exnTake_of_adapter
    (registered : m.imports.find? m.settings.importModule name = some (.adapter i))
    (clears : (Request.callImport name args).Clears m) : i = .exnTake := by
  cases clears with
  | exnTake found =>
    rw [registered] at found
    cases found
    rfl

theorem Request.Leaves.unchanged {exchanges : List Exchange} {before after : Option Value}
    (left : (Request.callImport name args).Leaves m exchanges before after)
    (silent : ∀ exception, ¬(Request.callImport name args).Parks m exception exchanges)
    (uncleared : ¬(Request.callImport name args).Clears m) : after = before := by
  cases left with
  | parked parks => exact absurd parks (silent _)
  | cleared clears => exact absurd clears uncleared
  | kept => rfl

theorem Request.Leaves.unchanged_of_no_adapter {exchanges : List Exchange}
    {before after : Option Value}
    (left : (Request.callImport name args).Leaves m exchanges before after)
    (none : ∀ i, m.imports.find? m.settings.importModule name ≠ some (.adapter i)) :
    after = before := by
  refine left.unchanged (fun exception parks => ?_) fun clears => ?_
  · cases parks with
    | called registered => exact none _ registered
  · cases clears with
    | exnTake registered => exact none _ registered

theorem GuardedCall.excepts_of_read {read : Except Error GuardedCall}
    (reads : GuardedCall.read args i = some read) : i.excepts = true := by
  cases i <;> first | rfl | cases reads

theorem GuardedCall.ne_exnTake_of_read {read : Except Error GuardedCall}
    (reads : GuardedCall.read args i = some read) : i ≠ .exnTake := by
  rintro rfl
  cases reads

section Guarded

variable {g : GuardedCall} {exception : Value} {exchanges : List Exchange}
  (registered : m.imports.find? m.settings.importModule name = some (.adapter i))
  (reads : GuardedCall.read args i = some (.ok g))

include registered

theorem Request.Parks.threw (parks : (Request.callImport name args).Parks m exception exchanges) :
    ∃ g errand m₁ m₂, GuardedCall.read args i = some (.ok g) ∧
      g.resolve.run (m.noting name) = (.ok (some errand), m₁) ∧
      (errand.perform.run m₁).Ends (fun _ => True) exchanges (.error (.thrown exception)) m₂ ∧
      ¬m₂.table.Full := by
  cases parks with
  | called found reads resolved threw room =>
    rw [registered] at found
    cases found
    exact ⟨_, _, _, _, reads, resolved, threw, room⟩

include reads

theorem Request.Parks.resolved
    (parks : (Request.callImport name args).Parks m exception exchanges) :
    ∃ errand m₁, g.resolve.run (m.noting name) = (.ok (some errand), m₁) := by
  obtain ⟨g', errand, m₁, m₂, again, resolved, -, -⟩ := parks.threw registered
  cases reads.symm.trans again
  exact ⟨errand, m₁, resolved⟩

theorem Request.Parks.ended {errand : Errand} {m₁ m₂ : Machine} {result : Except Fault Value}
    (resolved : g.resolve.run (m.noting name) = (.ok (some errand), m₁))
    (ends : (errand.perform.run m₁).Ends (fun _ => True) exchanges result m₂)
    (parks : (Request.callImport name args).Parks m exception exchanges) :
    result = .error (.thrown exception) ∧ ¬m₂.table.Full := by
  obtain ⟨g', errand', m₁', m₂', again, same, threw, room⟩ := parks.threw registered
  cases reads.symm.trans again
  cases resolved.symm.trans same
  obtain ⟨rfl, rfl⟩ := ends.unique threw
  exact ⟨rfl, room⟩

theorem GuardedCall.settles_conclude {errand : Errand} {m₁ m₂ : Machine}
    {result : Except Fault Value} (sound : exceptions.Sound m₂)
    (resolved : g.resolve.run (m.noting name) = (.ok (some errand), m₁))
    (ends : (errand.perform.run m₁).Ends (fun _ => True) exchanges result m₂) :
    ((g.conclude result).run m₂).Settles m₂ fun later =>
      (Request.callImport name args).Leaves m (exchanges ++ later) := by
  have uncleared : ¬(Request.callImport name args).Clears m := fun clears =>
    ne_exnTake_of_read reads (clears.exnTake_of_adapter registered)
  -- A value leaves what waits alone; a fault does, too, unless an exception is thrown and there is
  -- room to park it.
  cases result with
  | ok value =>
    have silent (other : Value) : ¬(Request.callImport name args).Parks m other exchanges :=
      fun parks => nomatch (parks.ended registered reads resolved ends).1
    have follows : Follows exceptions.discipline.rule (g.deliver value).run := inferInstance
    have leads : exceptions.Leads m₂ ((g.deliver value).run m₂).2 := follows.allowed m₂ sound
    have kept (before after : Option Value) (awaits : m₂.Awaits before)
        (left : (Request.callImport name args).Leaves m (exchanges ++ []) before after) :
        ((g.deliver value).run m₂).2.Awaits after := by
      rw [List.append_nil] at left
      rw [left.unchanged silent uncleared]
      exact leads before awaits
    change ((liftM (g.deliver value) >>= present : Op g.Answer).run m₂).Settles _ _
    rw [Op.run_present]
    revert kept
    rcases (g.deliver value).run m₂ with ⟨e | _ | answer, m₃⟩ <;> intro kept
    · exact kept
    · trivial
    · exact kept
  | error fault =>
    refine settles_catchFault g.operation g.neutral fault ?_ ?_
    · rintro exception before after rfl left
      rw [List.append_nil] at left
      by_cases full : m₂.table.Full
      · have silent (other : Value) : ¬(Request.callImport name args).Parks m other exchanges :=
          fun parks => (parks.ended registered reads resolved ends).2 full
        exact .inr ⟨full, left.unchanged silent uncleared⟩
      · cases left with
        | parked parks =>
          obtain ⟨same, -⟩ := parks.ended registered reads resolved ends
          cases same
          exact .inl ⟨full, rfl⟩
        | cleared clears => exact absurd clears uncleared
        | kept silent =>
          exact absurd (.called registered reads resolved ends full) (silent exception)
    · rintro error before after rfl left
      rw [List.append_nil] at left
      refine left.unchanged (fun other parks => ?_) uncleared
      cases (parks.ended registered reads resolved ends).1

theorem GuardedCall.settles_perform (sound : exceptions.Sound m) :
    (g.perform.run (m.noting name)).Settles (m.noting name)
      ((Request.callImport name args).Leaves m) := by
  have uncleared : ¬(Request.callImport name args).Clears m := fun clears =>
    ne_exnTake_of_read reads (clears.exnTake_of_adapter registered)
  have keeps : Work.Keeps core g.resolve.run := inferInstance
  have leads : exceptions.Leads (m.noting name) (g.resolve.run (m.noting name)).2 :=
    leads_aside ((keeps_custody keeps).same _)
  rw [run_perform]
  cases resolved : g.resolve.run (m.noting name) with
  | mk found m₁ =>
    rw [resolved] at leads
    -- Without an errand the call is over: its arguments were refused, or the text of one has no end.
    match found with
    | .ok none => trivial
    | .ok (some errand) =>
      refine .since leads ?_
      have noted : exceptions.Leads m (m.noting name) := leads_aside rfl
      have sound := exceptions.sound (exceptions.trans noted leads) sound
      have obeys : Run.Obeys exceptions.discipline errand.perform.run := inferInstance
      dsimp only
      rw [run_guarded_errand]
      exact (obeys.allowed m₁ sound).settles_bind sound fun exchanges result m₂ ends sound =>
        settles_conclude registered reads sound resolved ends
    | .error e =>
      intro before after awaits left
      rw [left.unchanged (fun _ parks => ?_) uncleared]
      · exact leads before awaits
      · obtain ⟨errand, m₁, ran⟩ := parks.resolved registered reads
        cases resolved.symm.trans ran

end Guarded

theorem settles_run (sound : exceptions.Sound m)
    (asks : exceptions.Asks m (.callImport name args))
    (registered : m.imports.find? m.settings.importModule name = some (.adapter i)) :
    ((Adapter.run args i).run (m.noting name)).Settles (m.noting name)
      ((Request.callImport name args).Leaves m) := by
  have noted : exceptions.Leads m (m.noting name) := leads_aside rfl
  have untouched := m.untouched_noting name
  -- An import that parks nothing spares the slot if it does not consume what waits there, and `asks`
  -- says that it does not.
  cases excepts : i.excepts with
  | false =>
    have minds : i.Minds args (m.noting name) := fun h pending consumed met =>
      asks h pending ⟨i, registered, consumed, (i.refusal_eq untouched args).symm.trans met⟩
    obtain ⟨waiting, awaits⟩ := exceptions.sound noted sound
    refine (fulfils_run awaits args i minds excepts).settles fun exchanges before after left => ?_
    refine left.unchanged (fun exception parks => ?_) fun clears => ?_
    · obtain ⟨g, -, -, -, reads, -⟩ := parks.threw registered
      cases excepts.symm.trans (GuardedCall.excepts_of_read reads)
    · cases clears.exnTake_of_adapter registered
      cases excepts
  | true =>
    cases reads : GuardedCall.read args i with
    | some read =>
      rw [GuardedCall.run_of_read reads]
      cases read with
      | ok g =>
        change ((g.perform >>= fun answer => pure (g.words answer) : Op (List Word)).run
          (m.noting name)).Settles _ _
        rw [Op.run_bind_pure]
        exact (GuardedCall.settles_perform registered reads sound).then_done
      | error e =>
        intro before after awaits left
        rw [left.unchanged (fun exception parks => ?_) fun clears => ?_]
        · exact awaits
        · obtain ⟨g, -, -, -, again, -⟩ := parks.threw registered
          cases reads.symm.trans again
        · exact GuardedCall.ne_exnTake_of_read reads (clears.exnTake_of_adapter registered)
    | none =>
      cases i with
      | exnTake =>
        refine Request.awaits_none (.exnTake registered) (fun exception parks => ?_) ?_
        · obtain ⟨g, -, -, -, again, -⟩ := parks.threw registered
          cases again
        · exact fun before awaits => awaits.takePending
      | getProperty | setProperty | reflectSet | call | callMethod | customEventNew
      | addEventListener | dispatchEvent | storageGetItem | storageSetItem => cases reads
      | _ => cases excepts

theorem settles_callImport (sound : exceptions.Sound m)
    (asks : exceptions.Asks m (.callImport name args)) :
    ((Request.callImport name args).perform m).Settles m
      ((Request.callImport name args).Leaves m) := by
  change ((callImport name args).run m).Settles _ _
  cases found : m.imports.find? m.settings.importModule name with
  | none =>
    unfold callImport Registry.callOn Registry.call
    rw [Op.run_get_bind, found]
    have obeys : Run.Obeys exceptions.discipline (do
        note .debug LogTarget.registry
          s!"import {Registry.key m.settings.importModule name} is not registered"
        throw .unknownImport : Op (List Word)).run := inferInstance
    exact (obeys.allowed m sound).settles fun exchanges before after left =>
      left.unchanged_of_no_adapter fun _ registered => nomatch found.symm.trans registered
  | some handler =>
    cases handler with
    | adapter i =>
      have noted : exceptions.Leads m (m.noting name) := leads_aside rfl
      rw [run_callImport_noting found]
      exact (settles_run sound asks found).since noted
    | hosted key =>
      unfold callImport Registry.callOn Registry.call
      rw [Op.run_get_bind, found]
      have called : Run.Obeys exceptions.discipline
          (Handler.run args (.hosted key) : Op (List Word)).run := obeys_call (.imported key args)
      have obeys : Run.Obeys exceptions.discipline (do
          note .trace LogTarget.registry s!"import {Registry.key m.settings.importModule name}"
          Handler.run args (.hosted key) : Op (List Word)).run := inferInstance
      exact (obeys.allowed m sound).settles fun exchanges before after left =>
        left.unchanged_of_no_adapter fun _ registered => nomatch found.symm.trans registered

end Imports

theorem Request.settles (request : Request) (sound : exceptions.Sound m)
    (asks : exceptions.Asks m request) :
    (request.perform m).Settles m (request.Leaves m) := by
  cases excepts : request.excepts with
  | false =>
    refine (request.fulfils_exceptions excepts sound asks).settles fun exchanges before after left => ?_
    cases left with
    | parked parks => cases parks <;> cases excepts
    | cleared clears => cases clears <;> cases excepts
    | kept => rfl
  | true =>
    cases request with
    | callImport name args => exact settles_callImport sound asks
    | park exception => exact settles_park exception
    | guarded operation result => exact settles_guarded operation result
    | takePending => exact settles_takePending
    | reset => exact settles_reset
    | _ => cases excepts

/-! Accounts. -/

structure Pursuit where
  request : Request
  /-- The machine that it was asked of. -/
  asked : Machine
  /-- The machine as the request has left it at its latest call. -/
  left : Machine
  /-- Its calls that have been answered. -/
  exchanges : List Exchange

/-- An execution from the machine `first`, in which `initial` waits, while nobody gives up the handle
of an exception that waits: with the requests under way, the innermost first, and the exception that
waits now. -/
inductive Account (first : Machine) (initial : Option Value) :
    List Pursuit → Option Value → Execution → Prop
  | start : Account first initial [] initial (Execution.start first)
  | ask {pursuits : List Pursuit} {waiting : Option Value} {m : Machine} {callers : List Caller}
    {events : List Event} (request : Request) (asks : exceptions.Asks m request)
    (before : Account first initial pursuits waiting ⟨m, .outside, callers, events⟩) :
    Account first initial (⟨request, m, m, []⟩ :: pursuits) waiting
      ⟨m, .inside request (request.perform m), callers, events⟩
  | pass {pursuits : List Pursuit} {waiting : Option Value} {m reached : Machine}
    {callers : List Caller} {events : List Event} {request : Request} {milestone : Milestone}
    {rest : Task request.Answer}
    (before : Account first initial pursuits waiting
      ⟨m, .inside request (.pass milestone reached rest), callers, events⟩) :
    Account first initial pursuits waiting
      ⟨reached, .inside request rest, callers, .passed milestone :: events⟩
  | call {pursuit : Pursuit} {pursuits : List Pursuit} {waiting : Option Value}
    {m reached : Machine} {callers : List Caller} {events : List Event} {request : Request}
    {callee : Callee} {resume : callee.Outcome → Machine → Task request.Answer}
    (before : Account first initial (pursuit :: pursuits) waiting
      ⟨m, .inside request (.call callee reached resume), callers, events⟩) :
    Account first initial ({ pursuit with left := reached } :: pursuits) waiting
      ⟨reached, .outside, ⟨request, callee, resume⟩ :: callers, .called callee :: events⟩
  | resume {pursuit : Pursuit} {pursuits : List Pursuit} {waiting : Option Value} {m : Machine}
    {caller : Caller} {callers : List Caller} {events : List Event}
    (outcome : caller.callee.Outcome) (answers : exceptions.Answers m caller.callee outcome)
    (before : Account first initial (pursuit :: pursuits) waiting
      ⟨m, .outside, caller :: callers, events⟩) :
    Account first initial
      ({ pursuit with
          exchanges := pursuit.exchanges ++ [⟨caller.callee, pursuit.left, outcome, m⟩] } ::
        pursuits) waiting
      ⟨m, .inside caller.request (caller.resume outcome m), callers,
        .returned caller.callee :: events⟩
  /-- Only a request that comes to its end changes what waits. -/
  | finish {pursuit : Pursuit} {pursuits : List Pursuit} {waiting later : Option Value}
    {m reached : Machine} {callers : List Caller} {events : List Event} {request : Request}
    {answer : request.Answer}
    (before : Account first initial (pursuit :: pursuits) waiting
      ⟨m, .inside request (.done answer reached), callers, events⟩)
    (leaves : pursuit.request.Leaves pursuit.asked pursuit.exchanges waiting later) :
    Account first initial pursuits later ⟨reached, .outside, callers, events⟩

/-- What waits after a request depends on the exchanges up to now and those to come. -/
def Pursuit.leaves (pursuit : Pursuit) (later : List Exchange) :
    Option Value → Option Value → Prop :=
  pursuit.request.Leaves pursuit.asked (pursuit.exchanges ++ later)

theorem Pursuit.leaves_nil (pursuit : Pursuit) :
    pursuit.leaves [] = pursuit.request.Leaves pursuit.asked pursuit.exchanges :=
  congrArg (pursuit.request.Leaves pursuit.asked) (List.append_nil _)

theorem Pursuit.leaves_cons (pursuit : Pursuit) (e : Exchange) :
    (fun later => pursuit.leaves (e :: later)) =
      { pursuit with exchanges := pursuit.exchanges ++ [e] }.leaves :=
  funext fun later => congrArg (pursuit.request.Leaves pursuit.asked) (List.append_cons _ e later)

def Pursuit.Resumes (pursuit : Pursuit) (caller : Caller) : Prop :=
  ∀ outcome m, exceptions.Sound m → exceptions.Answers m caller.callee outcome →
    (caller.resume outcome m).Settles m fun later =>
      pursuit.leaves (⟨caller.callee, pursuit.left, outcome, m⟩ :: later)

namespace Account

variable {first m m' : Machine} {pursuits : List Pursuit}
  {initial waiting later : Option Value}
  {callers : List Caller} {events : List Event}

theorem done (account : Account first initial pursuits waiting ⟨m, .outside, callers, events⟩)
    (request : Request) (asks : exceptions.Asks m request) {answer : request.Answer}
    (done : request.perform m = .done answer m') (leaves : request.Leaves m [] waiting later) :
    Account first initial pursuits later ⟨m', .outside, callers, events⟩ := by
  have asked := account.ask request asks
  rw [done] at asked
  exact asked.finish leaves

theorem reaches {x : Execution} (account : Account first initial pursuits waiting x) :
    exceptions.Reaches (Execution.start first) x := by
  induction account with
  | start => exact .refl
  | ask request asks _ ih => exact ih.tail (.ask request asks)
  | pass _ ih => exact ih.tail (.goOn .pass)
  | call _ ih => exact ih.tail (.goOn .call)
  | resume outcome answers _ ih => exact ih.tail (.resume outcome answers)
  | finish _ _ ih => exact ih.tail (.goOn .finish)

/-- What an account says of the machine, and how the requests under way go on. -/
structure Holds (pursuits : List Pursuit) (waiting : Option Value) (x : Execution) : Prop where
  awaits : x.machine.Awaits waiting
  goesOn : match x.control, pursuits with
    | .outside, pursuits => List.Forall₂ Pursuit.Resumes pursuits x.callers
    | .inside _ task, pursuit :: pursuits =>
      task.Settles x.machine pursuit.leaves ∧ List.Forall₂ Pursuit.Resumes pursuits x.callers
    | .inside .., [] => False

variable {x : Execution}

theorem holds (awaits : first.Awaits initial) (account : Account first initial pursuits waiting x) :
    Holds pursuits waiting x := by
  induction account with
  | start => exact ⟨awaits, .nil⟩
  | ask request asks before ih =>
    exact ⟨ih.awaits, request.settles ⟨_, ih.awaits⟩ asks, ih.goesOn⟩
  | @pass pursuits _ _ _ _ _ _ _ _ before ih =>
    cases pursuits with
    | nil => exact ih.goesOn.elim
    | cons pursuit pursuits =>
      obtain ⟨⟨leads, goesOn⟩, callers⟩ := ih.goesOn
      exact ⟨leads _ ih.awaits, goesOn, callers⟩
  | call before ih =>
    obtain ⟨⟨leads, goesOn⟩, callers⟩ := ih.goesOn
    exact ⟨leads _ ih.awaits, .cons goesOn callers⟩
  | resume outcome answers before ih =>
    cases ih.goesOn with
    | cons goesOn callers =>
      have settles := goesOn outcome _ ⟨_, ih.awaits⟩ answers
      rw [Pursuit.leaves_cons] at settles
      exact ⟨ih.awaits, settles, callers⟩
  | finish before leaves ih =>
    obtain ⟨settles, callers⟩ := ih.goesOn
    rw [← Pursuit.leaves_nil] at leaves
    exact ⟨settles _ _ ih.awaits leaves, callers⟩

/-- Every execution has an account, in which there is something to say of each request under way. -/
theorem of_reaches (awaits : first.Awaits initial)
    (reached : exceptions.Reaches (Execution.start first) x) :
    ∃ pursuits waiting, Account first initial pursuits waiting x := by
  induction reached with
  | refl => exact ⟨_, _, .start⟩
  | tail _ honours ih =>
    obtain ⟨pursuits, waiting, account⟩ := ih
    have holds := account.holds awaits
    cases honours with
    | ask request asks => exact ⟨_, _, account.ask request asks⟩
    | resume outcome answers =>
      cases holds.goesOn with
      | cons => exact ⟨_, _, account.resume outcome answers⟩
    | goOn step =>
      cases pursuits with
      | nil => exact holds.goesOn.elim
      | cons pursuit pursuits =>
        cases step with
        | pass => exact ⟨_, _, account.pass⟩
        | call => exact ⟨_, _, account.call⟩
        | finish =>
          obtain ⟨later, leaves⟩ :=
            pursuit.request.exists_leaves pursuit.asked pursuit.exchanges waiting
          exact ⟨_, _, account.finish leaves⟩

/-- So the code around the bridge finds an exception waiting or none, whenever it runs. -/
theorem sound_of_reaches (sound : exceptions.Sound first)
    (reached : exceptions.Reaches (Execution.start first) x) : exceptions.Sound x.machine := by
  obtain ⟨initial, awaits⟩ := sound
  obtain ⟨_, waiting, account⟩ := of_reaches awaits reached
  exact ⟨waiting, (account.holds awaits).awaits⟩

end Account

end SandboxBridge

import SandboxBridge.Proofs.Exceptions.Awaits

/-!
The contract about exceptions: nobody gives up the handle of an exception that waits in the slot, and
the bridge leaves it waiting. It is fulfilled by whatever neither parks nor takes an exception.
-/

namespace SandboxBridge

open Machine Work

def Request.GivesUp (m : Machine) (h : Handle) : Request → Prop
  | .take handle | .release handle => handle = h
  | .callImport name args => ∃ i, m.imports.find? m.settings.importModule name = some (.adapter i) ∧
    i.consumed args = some h ∧ i.refusal m args = none
  | _ => False

/-- The handle that an outcome of a call hands over. -/
def Callee.returned : (callee : Callee) → callee.Outcome → Option Handle
  | .exported (.shim _) _ _, .ok (result :: _) => result.asUInt32.toOption.map Handle.ofWord
  | _, _ => none

/-- The module does not give up the handle of an exception that it has not taken. -/
def Contract.exceptions : Contract where
  Sound m := ∃ waiting, m.Awaits waiting
  Leads m m' := ∀ waiting, m.Awaits waiting → m'.Awaits waiting
  Asks m request := ∀ h, m.pending.current = some h → ¬request.GivesUp m h
  Answers m callee outcome := ∀ h, m.pending.current = some h → callee.returned outcome ≠ some h
  refl _ _ := id
  trans first second waiting := second waiting ∘ first waiting
  sound := fun leads ⟨_, awaits⟩ => ⟨_, leads _ awaits⟩

open Contract

variable {m : Machine} {waiting : Option Value}

namespace Machine

theorem leads_aside {m' : Machine} (same : m'.custody = m.custody) : exceptions.Leads m m' :=
  fun _ awaits => awaits.of_custody same

theorem leads_allocate (value : Value) : exceptions.Leads m ((allocate value).run m).2 :=
  fun _ awaits => awaits.allocate value

theorem leads_take {h : Handle} (mine : m.pending.current ≠ some h) :
    exceptions.Leads m ((take h).run m).2 :=
  fun _ awaits => awaits.release mine

theorem leads_release {h : Handle} (mine : m.pending.current ≠ some h) :
    exceptions.Leads m ((release h).run m).2 := by
  rw [run_release_snd]
  exact leads_take mine

theorem pending_take (h : Handle) (m : Machine) : ((take h).run m).2.pending = m.pending := by
  cases claimed : m.table.claim h with
  | error e => rw [run_take_error claimed]
  | ok value =>
    obtain ⟨journal, ran⟩ := run_take_ok claimed
    rw [ran]

theorem leads_releaseAll (handles : List Handle)
    (mine : ∀ h ∈ handles, m.pending.current ≠ some h) :
    exceptions.Leads m ((releaseAll handles).run m).2 := by
  induction handles generalizing m with
  | nil => exact exceptions.refl m
  | cons h rest ih =>
    obtain ⟨first, mine⟩ := List.forall_mem_cons.mp mine
    refine exceptions.trans (leads_release first) (ih ?_)
    rw [run_release_snd, pending_take]
    exact mine

theorem leads_allocateAll (placed : List Handle) (args : List Value) (awaits : m.Awaits waiting)
    (mine : ∀ h ∈ placed, m.pending.current ≠ some h) :
    exceptions.Leads m ((allocateAll placed args).run m).2 := by
  induction args generalizing placed m with
  | nil => exact exceptions.refl m
  | cons arg rest ih =>
    unfold allocateAll
    simp only [run_bind, run_settle]
    cases next : m.table.next with
    | error e =>
      have leads := leads_releaseAll placed.reverse fun h member =>
        mine h (List.mem_reverse.mp member)
      rw [run_allocate_error arg next]
      dsimp only
      rw [run_bind]
      revert leads
      rcases (releaseAll placed.reverse).run m with ⟨_ | _, m'⟩ <;> exact id
    | ok h =>
      have after := awaits.allocate arg
      have leads : exceptions.Leads m ((allocate arg).run m).2 := leads_allocate arg
      obtain ⟨journal, ran⟩ := run_allocate_ok arg next
      rw [ran] at leads after ⊢
      refine exceptions.trans leads (ih (h :: placed) after ?_)
      refine List.forall_mem_cons.mpr ⟨fun pending => ?_, mine⟩
      exact awaits.next_ne next pending rfl

end Machine

instance : MindsCore exceptions.discipline.rule :=
  ⟨fun keeps => allows_of_leads fun m _ => leads_aside ((keeps_custody keeps).same m)⟩

instance : AllowsClosures exceptions where
  allocate value := allows_of_leads fun _ _ => leads_allocate value
  keeping keeps m _ := leads_aside ((custody_of_holdings keeps).same m)
  pass args _ := fun ⟨_, awaits⟩ => leads_allocateAll [] args awaits nofun
  answer index target args outcome m _ answers := by
    cases outcome with
    | error e => exact exceptions.refl m
    | ok results =>
      change ((takeResult results).run m).Fulfils exceptions m
      unfold takeResult
      cases results with
      | nil => exact exceptions.refl m
      | cons result rest =>
        dsimp only [List.head?_cons]
        cases read : result.asUInt32 with
        | error e => exact exceptions.refl m
        | ok word =>
          refine leads_take fun pending => answers _ pending ?_
          simp only [Callee.returned, read]
          rfl

namespace Demand

variable {args : List Word} {index : Nat} {h : Handle}

theorem met_word {α : Type} {f : UInt32 → α} {value : α}
    (read : (Word.argUInt32 args index).map f = .ok value) :
    (Demand.word index).refusal m args = none := by
  change failure (Word.argUInt32 args index) = none
  rw [← failure_map f, read]
  rfl

theorem met_owned (read : Adapter.handle args index = .ok h) (live : m.table.isLive h) :
    (Demand.owned index).refusal m args = none := by
  obtain ⟨value, found⟩ := HandleTable.exists_of_isLive live
  have claimed := HandleTable.claim_ok_iff.mpr found
  simp only [refusal, read, bind, Except.bind, claimed, failure]

theorem met_object (read : Adapter.handle args index = .ok h) {id : ObjectId}
    (found : m.table.get h = .ok (.object id)) :
    (Demand.object index).refusal m args = none := by
  simp only [refusal, value, read, bind, Except.bind, found]
  rfl

theorem met_closure (read : Adapter.handle args index = .ok h) {closure : Nat}
    (found : m.table.get h = .ok (.function (.closure closure))) :
    (Demand.closure index).refusal m args = none := by
  simp only [refusal, value, read, bind, Except.bind, found]
  rfl

end Demand

section Consuming

open Demand (met_word met_owned met_object met_closure)

variable {args : List Word}

def Import.Minds (args : List Word) (m : Machine) (i : Import) : Prop :=
  ∀ h, m.pending.current = some h → i.consumed args = some h → i.refusal m args ≠ none

theorem fulfils_objectDropRef (awaits : m.Awaits waiting)
    (minds : Import.objectDropRef.Minds args m) :
    ((Adapter.run args .objectDropRef).run m).Fulfils exceptions m := by
  unfold Adapter.run
  cases read : Adapter.handle args 0 with
  | error e => exact exceptions.refl m
  | ok h =>
    have mine : m.pending.current ≠ some h := by
      intro pending
      refine minds h pending (by rw [Import.consumed, read]; rfl) ?_
      simp only [Import.refusal, Import.demands, List.findSome?_cons, List.findSome?_nil,
        met_word read, met_owned read (awaits.live pending)]
    have leads := leads_release mine
    change ((liftM (release h) >>= fun _ => pure [] : Op (List Word)).run m).Fulfils exceptions m
    rw [Op.run_local_bind]
    revert leads
    rcases (release h).run m with ⟨_ | _, m'⟩ <;> exact id

theorem leads_arraySet {array h : Handle} (index : Position)
    (mine : ∀ id, m.table.get array = .ok (.object id) → m.pending.current ≠ some h) :
    exceptions.Leads m ((Adapter.arraySet array index h).run m).2 := by
  unfold Adapter.arraySet object
  simp only [run_bind, run_get, run_liftExcept]
  cases found : m.table.get array with
  | error e => exact exceptions.refl m
  | ok target =>
    cases target with
    | object id =>
      have leads := leads_take (mine id found)
      simp only [run_bind]
      revert leads
      rcases (take h).run m with ⟨e | element, m'⟩ <;> intro leads
      · exact leads
      · exact exceptions.trans leads (leads_aside rfl)
    | _ => exact exceptions.refl m

theorem fulfils_arraySet (awaits : m.Awaits waiting) (minds : Import.arraySet.Minds args m) :
    ((Adapter.run args .arraySet).run m).Fulfils exceptions m := by
  unfold Adapter.run
  cases readArray : Adapter.handle args 0 with
  | error e => exact exceptions.refl m
  | ok array =>
    cases readIndex : Adapter.position args 1 with
    | error e => exact exceptions.refl m
    | ok index =>
      cases read : Adapter.handle args 2 with
      | error e => exact exceptions.refl m
      | ok h =>
        have mine (id : ObjectId) (found : m.table.get array = .ok (.object id)) :
            m.pending.current ≠ some h := by
          intro pending
          refine minds h pending (by rw [Import.consumed, read]; rfl) ?_
          simp only [Import.refusal, Import.demands, List.findSome?_cons, List.findSome?_nil,
            met_word readArray, met_word readIndex, met_word read, met_object readArray found,
            met_owned read (awaits.live pending)]
        have leads := leads_arraySet index mine
        change ((liftM (Adapter.arraySet array index h) >>= fun _ => pure [] :
          Op (List Word)).run m).Fulfils exceptions m
        rw [Op.run_local_bind]
        revert leads
        rcases (Adapter.arraySet array index h).run m with ⟨_ | _, m'⟩ <;> exact id

theorem fulfils_dropping (awaits : m.Awaits waiting) {h : Handle}
    (mine : ∀ closure, m.table.get h = .ok (.function (.closure closure)) →
      m.pending.current ≠ some h) :
    ((Adapter.cbDrop h).run m).Fulfils exceptions m := by
  unfold Adapter.cbDrop
  rw [Op.run_local_bind]
  simp only [object, run_bind, run_get, run_liftExcept]
  cases found : m.table.get h with
  | error e => exact exceptions.refl m
  | ok value =>
    rcases value with _ | _ | _ | _ | _ | _ | native | id
    case function.closure =>
      have leads := leads_release (mine id found)
      dsimp only
      rw [Op.run_local_bind]
      revert leads
      rcases (release h).run m with ⟨e | _, m'⟩ <;> intro leads
      · exact leads
      · have dropped : Run.Obeys exceptions.discipline (dropClosure id).run := inferInstance
        exact (dropped.allowed m' (exceptions.sound leads ⟨_, awaits⟩)).since leads
    all_goals exact exceptions.refl m

theorem fulfils_cbDrop (awaits : m.Awaits waiting) (minds : Import.cbDrop.Minds args m) :
    ((Adapter.run args .cbDrop).run m).Fulfils exceptions m := by
  unfold Adapter.run
  cases read : Adapter.handle args 0 with
  | error e => exact exceptions.refl m
  | ok h =>
    have dropped := fulfils_dropping (h := h) awaits fun closure found pending => by
      refine minds h pending (by rw [Import.consumed, read]; rfl) ?_
      simp only [Import.refusal, Import.demands, List.findSome?_cons, List.findSome?_nil,
        met_word read, met_closure read found]
    change (Task.bind ((Adapter.cbDrop h).run m) _).Fulfils exceptions m
    refine dropped.bind ⟨_, awaits⟩ fun result m' _ => ?_
    cases result <;> exact exceptions.refl m'

end Consuming

theorem fulfils_run (awaits : m.Awaits waiting) (args : List Word) (i : Import)
    (minds : i.Minds args m) (plain : i.excepts = false) :
    ((Adapter.run args i).run m).Fulfils exceptions m := by
  cases takes : i.takes with
  | false =>
    have obeys : Run.Obeys exceptions.discipline (Adapter.run args i).run :=
      Adapter.obeys_run_plain args i takes plain
    exact obeys.allowed m ⟨_, awaits⟩
  | true =>
    cases i with
    | objectDropRef => exact fulfils_objectDropRef awaits minds
    | arraySet => exact fulfils_arraySet awaits minds
    | cbDrop => exact fulfils_cbDrop awaits minds
    | _ => cases takes

theorem Request.fulfils_exceptions (request : Request) (plain : request.excepts = false)
    (sound : exceptions.Sound m) (asks : exceptions.Asks m request) :
    (request.perform m).Fulfils exceptions m := by
  cases takes : request.takes with
  | true =>
    cases request with
    | callImport => cases plain
    | take handle => exact leads_take fun pending => asks handle pending rfl
    | release handle => exact leads_release fun pending => asks handle pending rfl
    | _ => cases takes
  | false =>
    have obeys : Run.Obeys exceptions.discipline request.perform := by
      cases apart : request.invokes with
      | false =>
        exact request.obeys_perform_plain takes apart plain fun _ _ =>
          MindsCore.aside inferInstance
      | true =>
        cases request with
        | callFunction | invokeMethod => unfold perform; infer_instance
        | callImport => cases plain
        | _ => cases apart
    exact obeys.allowed m sound

end SandboxBridge

import SandboxBridge.Proofs.Facilities.Contents
import SandboxBridge.Proofs.Rendering.Texts

/-!
Storages in executions. Each is a finite map whose bytes stay within its quota: an item that has no
room is refused with an error and changes nothing, any other is what its key has from then on, and
no call on one storage shows in another.
-/

namespace SandboxBridge

open Machine Work Execution

namespace Dict

theorem get?_erase_eq_set (d : Dict String) (key : String) :
    (d.erase key).get? = Contents.set d.get? key none :=
  funext fun other => d.get?_erase key other

theorem get?_insert_eq_set (d : Dict String) (key value : String) :
    (d.insert key value).get? = Contents.set d.get? key (some value) :=
  funext fun other => d.get?_insert key other value

end Dict

namespace Store

variable {s s₁ : Store} {index : Nat} {history : List Deed}

def contents (s : Store) (index : Nat) : Contents :=
  (s.storage index).items.get?

theorem fits_iff {before : Storage} {key value : String} : Deed.Fits before key value ↔
    Contents.Fits before.items.get? before.quota key value := by
  rw [Deed.Fits, Contents.Fits, ← Dict.get?_erase_eq_set, Dict.bytes_get?]

theorem get?_items (index : Nat) (before : Storage) (d : Deed) :
    (d.items index before).get? = Contents.after index before.quota before.items.get? d := by
  cases d with
  | store other key value =>
    dsimp only [Deed.items, Contents.after]
    by_cases here : other = index ∧ Deed.Fits before key value
    · rw [if_pos here, if_pos ⟨here.1, fits_iff.mp here.2⟩, Dict.get?_insert_eq_set]
    · rw [if_neg here, if_neg fun both => here ⟨both.1, fits_iff.mpr both.2⟩]
  | remove other key =>
    dsimp only [Deed.items, Contents.after]
    split
    · exact Dict.get?_erase_eq_set _ key
    · rfl
  | clear other =>
    dsimp only [Deed.items, Contents.after]
    split <;> rfl
  | _ => rfl

theorem After.contents (after : s.After history s₁) (inside : index < s.storages.size) :
    s₁.contents index =
      history.foldl (Contents.after index (s.storage index).quota) (s.contents index) := by
  induction after with
  | start extension => exact congrArg Dict.get? (extension.items index)
  | deed after does ih =>
    rw [List.foldl_concat, ← ih, ← after.quota inside]
    exact (congrArg Dict.get? (does.items index)).trans (get?_items ..)

theorem contents_modifyItems (inside : index < s.storages.size) (f : Dict String → Dict String) :
    (s.modifyItems index f).contents =
      Function.update s.contents index (f (s.storage index).items).get? := by
  funext other
  unfold contents
  rw [storage_modifyItems]
  by_cases here : index = other
  · subst here
    rw [if_pos ⟨rfl, inside⟩, Function.update_self]
  · rw [if_neg fun both => here both.1, Function.update_of_ne (Ne.symm here)]

/-- The value is an error of the host, of the given name. -/
def IsError (s : Store) (exception : Value) (name : String) : Prop :=
  ∃ id, exception = .object id ∧ (s.object id).className = name ∧
    (s.object id).get? "name" = some (.string name)

theorem isError_newError (name message : String) (s : Store) :
    ((newError name message).run s).2.IsError ((newError name message).run s).1 name := by
  obtain ⟨id, made, classes, named, -⟩ := object_newError name message s
  refine ⟨id, made, ?_, named⟩
  rw [Object.className, classes]
  by_cases plain : name = "Error" <;> simp [plain]

end Store

/-- The request is answered at once, with what its call has resulted in. -/
def Request.Completes (request : Request) (m : Machine) (result : Except Fault Value)
    (last : Machine) : Prop :=
  ∃ reached answer, request.perform m = .done answer last ∧
    request.Yields m result reached answer last

variable {m : Machine} {request : Request} {call : HostCall}

theorem Request.completes_of_call? (called : request.call? m = some call)
    {behaviour : Behaviour} (behaves : m.store.behaviour? call.function = some behaviour)
    (result : Except Fault Value) (s : Store)
    (ran : ∀ m₁ : Machine, m₁.store = m.store →
      (runBehaviour call.receiver call.args behaviour).run m₁ = .done result { m₁ with store := s })
    (texted : ∀ value, result = .ok value ∨ result = .error (.thrown value) →
      s.display? value ≠ none) :
    ∃ last, request.Completes m result last ∧ last.store = s := by
  obtain ⟨relay, m₁, relays, untouched, performed⟩ := perform_of_call? called
  rw [← untouched.store] at behaves
  rw [HostCall.run_of_behaviour? behaves, ran m₁ untouched.store] at performed
  let reached : Machine := { m₁ with store := s }
  have texted : ∀ value, result = .ok value ∨ result = .error (.thrown value) →
      reached.store.display? value ≠ none := texted
  obtain ⟨answer, last, done, kept⟩ := relays.done_of_texted texted
  exact ⟨last, ⟨_, answer, performed.trans done, relay, relays, done⟩, kept⟩

/-- The call gives a text as an argument, as itself or as a value that it is the text of. -/
def HostCall.Gives (call : HostCall) (s : Store) (index : Nat) (text : String) : Prop :=
  s.Shows (call.args[index]?.getD .undefined) text

section

variable (request : Request) (m : Machine) (index : Nat)

/-- A value is had under a key from then on if it has room there, and else it is refused. -/
def Request.Sets (quota : Nat) (key value : String) : Prop :=
  ∃ result last, request.Completes m result last ∧
    if (m.store.contents index).Fits quota key value then
      result = .ok .undefined ∧ last.store.contents =
        Function.update m.store.contents index ((m.store.contents index).set key (some value))
    else
      (∃ exception, result = .error (.thrown exception) ∧
        last.store.IsError exception "QuotaExceededError") ∧
      last.store.contents = m.store.contents

def Request.Gets (key : String) : Prop :=
  ∃ last, request.Completes m (.ok ((m.store.contents index key).elim .null .string)) last ∧
    last.store.contents = m.store.contents

def Request.Removes (key : String) : Prop :=
  ∃ last, request.Completes m (.ok .undefined) last ∧ last.store.contents =
    Function.update m.store.contents index ((m.store.contents index).set key none)

end

/-- How a storage stands at the machine `m`, after deeds of which some were done before the machine
`m₀`. -/
structure Storing (m₀ : Machine) (index : Nat) (earlier history : List Deed) (m : Machine) :
    Prop where
  contents : m.store.contents index =
    (earlier ++ history).foldl (Contents.after index (m₀.store.storage index).quota) .empty
  finite : (m.store.contents index).Finite
  quota : (m.store.storage index).quota = (m₀.store.storage index).quota
  bounded : (m.store.contents index).bytes ≤ (m₀.store.storage index).quota
  /-- Methods of an object that is made for the storage are its functions, which are called. -/
  methods : ∀ {id}, m.store.ServesItems id index → ∀ {request name args},
    Request.Invokes m (.object id) name args request → ∀ {behaviour},
      (name, behaviour) ∈ [("getItem", .getItem index), ("setItem", .setItem index),
        ("removeItem", .removeItem index), ("clear", .clear index)] →
      ∃ function, request.call? m = some ⟨function, .object id, args⟩ ∧
        m.store.behaviour? function = some behaviour
  sets : ∀ {request : Request} {call key value}, request.call? m = some call →
    m.store.behaviour? call.function = some (.setItem index) →
    call.Gives m.store 0 key → call.Gives m.store 1 value →
    request.Sets m index (m₀.store.storage index).quota key value
  gets : ∀ {request : Request} {call key}, request.call? m = some call →
    m.store.behaviour? call.function = some (.getItem index) →
    call.Gives m.store 0 key → request.Gets m index key
  removes : ∀ {request : Request} {call key}, request.call? m = some call →
    m.store.behaviour? call.function = some (.removeItem index) →
    call.Gives m.store 0 key → request.Removes m index key
  /-- Strings are keys and values as they are. -/
  setsString : ∀ {request : Request} {function receiver key value},
    request.call? m = some ⟨function, receiver, [.string key, .string value]⟩ →
    m.store.behaviour? function = some (.setItem index) →
    request.Sets m index (m₀.store.storage index).quota key value
  getsString : ∀ {request : Request} {function receiver key},
    request.call? m = some ⟨function, receiver, [.string key]⟩ →
    m.store.behaviour? function = some (.getItem index) → request.Gets m index key
  removesString : ∀ {request : Request} {function receiver key},
    request.call? m = some ⟨function, receiver, [.string key]⟩ →
    m.store.behaviour? function = some (.removeItem index) → request.Removes m index key
  clears : ∀ {request : Request} {call}, request.call? m = some call →
    m.store.behaviour? call.function = some (.clear index) →
    ∃ last, request.Completes m (.ok .undefined) last ∧
      last.store.contents = Function.update m.store.contents index .empty
  /-- A storage that is made now has a place of its own, and at first nothing. -/
  fresh : ∀ quota, ∃ other, other ≠ index ∧
    ((Store.newStorage quota).run m.store).2.ServesItems ((Store.newStorage quota).run m.store).1
      other ∧
    ((Store.newStorage quota).run m.store).2.contents other = .empty ∧
    (((Store.newStorage quota).run m.store).2.storage other).quota = quota

/-! Calls of the methods of a storage. -/

theorem run_behaviour_setItem {args : List Value} {key value : String}
    (named : m.store.display? (args[0]?.getD .undefined) = some key)
    (given : m.store.display? (args[1]?.getD .undefined) = some value) (receiver : Value)
    (index : Nat) : (runBehaviour receiver args (.setItem index)).run m =
      .done ((((Store.setItem index key value).run m.store).1.map fun _ => .undefined).mapError
        .thrown) { m with store := ((Store.setItem index key value).run m.store).2 } := by
  unfold runBehaviour
  rw [Host.run_argumentText_bind named, Host.run_argumentText_bind given, Host.run_attempt_bind]
  rcases (Store.setItem index key value).run m.store with ⟨exception | _, s⟩ <;> rfl

section

variable {index : Nat} (called : request.call? m = some call)
include called

theorem Request.completes_getItem
    (behaves : m.store.behaviour? call.function = some (.getItem index)) {key : String}
    (named : call.Gives m.store 0 key) : request.Gets m index key := by
  have shown := Store.display?_eq_some_iff.mpr named
  have item : m.store.getItem index key = (m.store.contents index key).elim .null .string := by
    change ((m.store.contents index key).map Value.string).getD .null = _
    cases m.store.contents index key <;> rfl
  have ran (m₁ : Machine) (same : m₁.store = m.store) :
      (runBehaviour call.receiver call.args (.getItem index)).run m₁ =
        .done (.ok (m.store.getItem index key)) { m₁ with store := m.store } := by
    rw [← same] at shown ⊢
    exact Host.run_argumentText_bind shown _
  rw [Gets, ← item]
  obtain ⟨last, completes, same⟩ :=
    completes_of_call? called behaves _ m.store ran fun value comes => by
    obtain ⟨⟨⟩⟩ | ⟨⟨⟩⟩ := comes
    rw [item]
    cases m.store.contents index key <;> exact nofun
  exact ⟨last, completes, congrArg Store.contents same⟩

theorem Request.completes_modifyItems (inside : index < m.store.storages.size)
    {behaviour : Behaviour} (behaves : m.store.behaviour? call.function = some behaviour)
    (f : Dict String → Dict String)
    (ran : ∀ m₁ : Machine, m₁.store = m.store →
      (runBehaviour call.receiver call.args behaviour).run m₁ =
        .done (.ok .undefined) { m₁ with store := m.store.modifyItems index f }) :
    ∃ last, request.Completes m (.ok .undefined) last ∧ last.store.contents =
      Function.update m.store.contents index (f (m.store.storage index).items).get? := by
  obtain ⟨last, completes, same⟩ := completes_of_call? called behaves _ _ ran fun value comes => by
    obtain ⟨⟨⟩⟩ | ⟨⟨⟩⟩ := comes
    exact nofun
  exact ⟨last, completes, same ▸ Store.contents_modifyItems inside f⟩

theorem Request.completes_removeItem (inside : index < m.store.storages.size)
    (behaves : m.store.behaviour? call.function = some (.removeItem index)) {key : String}
    (named : call.Gives m.store 0 key) : request.Removes m index key := by
  have shown := Store.display?_eq_some_iff.mpr named
  rw [Removes, Store.contents, ← Dict.get?_erase_eq_set]
  refine completes_modifyItems called inside behaves (·.erase key) fun m₁ same => ?_
  rw [← same] at shown ⊢
  exact Host.run_argumentText_bind shown _

theorem Request.completes_setItem (inside : index < m.store.storages.size)
    (behaves : m.store.behaviour? call.function = some (.setItem index)) {key value : String}
    (named : call.Gives m.store 0 key) (given : call.Gives m.store 1 value) :
    request.Sets m index (m.store.storage index).quota key value := by
  have ran (m₁ : Machine) (same : m₁.store = m.store) :=
    run_behaviour_setItem (m := m₁) (same ▸ Store.display?_eq_some_iff.mpr named)
      (same ▸ Store.display?_eq_some_iff.mpr given) call.receiver index
  by_cases fits : Deed.Fits (m.store.storage index) key value
  · have stored (m₁ : Machine) (same : m₁.store = m.store) :
        (runBehaviour call.receiver call.args (.setItem index)).run m₁ = .done (.ok .undefined)
          { m₁ with store := m.store.modifyItems index (·.insert key value) } := by
      rw [ran m₁ same, Store.run_setItem, same, if_pos fits]
      rfl
    obtain ⟨last, completes, same⟩ := completes_of_call? called behaves _ _ stored
      fun value comes => by
        obtain ⟨⟨⟩⟩ | ⟨⟨⟩⟩ := comes
        exact nofun
    refine ⟨.ok .undefined, last, completes, ?_⟩
    rw [Store.contents, if_pos (Store.fits_iff.mp fits), ← Dict.get?_insert_eq_set]
    exact ⟨rfl, same ▸ Store.contents_modifyItems inside _⟩
  · let refusal := (Store.newError "QuotaExceededError" "The quota has been exceeded.").run m.store
    have refused (m₁ : Machine) (same : m₁.store = m.store) :
        (runBehaviour call.receiver call.args (.setItem index)).run m₁ =
          .done (.error (.thrown refusal.1)) { m₁ with store := refusal.2 } := by
      rw [ran m₁ same, Store.run_setItem, same, if_neg fits]
      rfl
    obtain ⟨last, completes, same⟩ := completes_of_call? called behaves _ _ refused
      fun value comes => by
        obtain ⟨⟨⟩⟩ | ⟨⟨⟩⟩ := comes
        have shown : refusal.2.display? refusal.1 = some _ :=
          Store.display?_newError "QuotaExceededError" (by decide) _ m.store
        rw [shown]
        exact nofun
    refine ⟨.error (.thrown refusal.1), last, completes, ?_⟩
    rw [Store.contents, if_neg fun room => fits (Store.fits_iff.mpr room)]
    exact ⟨⟨_, rfl, same ▸ Store.isError_newError ..⟩, same ▸ rfl⟩

end

theorem Chronicle.store {m₀ : Machine} {history : List Deed} {callers : List Caller}
    {events : List Event} {index : Nat}
    (chronicle : Chronicle m₀ history ⟨m, .outside, callers, events⟩) (sets : FunctionId)
    (behaves : m.store.behaviour? sets = some (.setItem index))
    (there : index < m.store.storages.size) {key value : String}
    (fits : Deed.Fits (m.store.storage index) key value) :
    ∃ m', m'.store = m.store.modifyItems index (·.insert key value) ∧
      Chronicle m₀ (history ++ [.store index key value]) ⟨m', .outside, callers, events⟩ := by
  let call : HostCall := ⟨sets, .null, [.string key, .string value]⟩
  have deed : m.store.callDeed? call = some (.store index key value) := by
    rw [Store.callDeed?, behaves]
    exact Store.feasible_of_reaches (d := .store index key value) (decide_eq_true there)
  have kept : (Store.setItem index key value).run m.store =
      (.ok (), m.store.modifyItems index (·.insert key value)) :=
    (Store.run_setItem index key value m.store).trans (if_pos fits)
  have ran : call.run m = .done (.ok .undefined)
      { m with store := m.store.modifyItems index (·.insert key value) } := by
    have named : m.store.display? (call.args[0]?.getD .undefined) = some key := rfl
    have given : m.store.display? (call.args[1]?.getD .undefined) = some value := rfl
    rw [HostCall.run_of_behaviour? behaves, run_behaviour_setItem named given, kept]
    rfl
  exact ⟨_, rfl, chronicle.called deed ran⟩

namespace Execution

/-- Whenever code around the bridge runs, a storage has what the calls on it have made of it, whatever
else has been asked of the bridge until then. -/
theorem items_kept {m₀ m : Machine} {index : Nat} {earlier history : List Deed}
    {callers : List Caller} {events : List Event} (there : index < m₀.store.storages.size)
    (before : m₀.store.contents index =
      earlier.foldl (Contents.after index (m₀.store.storage index).quota) .empty)
    (chronicle : Chronicle m₀ history ⟨m, .outside, callers, events⟩) :
    Storing m₀ index earlier history m := by
  have after := chronicle.after
  have inside : index < m.store.storages.size := Nat.lt_of_lt_of_le there after.storages
  have quota := after.quota there
  have contents : m.store.contents index =
      (earlier ++ history).foldl (Contents.after index (m₀.store.storage index).quota) .empty := by
    rw [after.contents there, before, List.foldl_append]
  obtain ⟨finite, bounded⟩ : (m.store.contents index).Finite ∧
      (m.store.contents index).bytes ≤ (m₀.store.storage index).quota := by
    rw [contents]
    exact Contents.bounded_foldl Contents.finite_empty
      (Contents.bytes_empty.trans_le (Nat.zero_le _)) (earlier ++ history)
  have sets {request : Request} {call : HostCall} {key value : String}
      (called : request.call? m = some call)
      (behaves : m.store.behaviour? call.function = some (.setItem index))
      (named : call.Gives m.store 0 key) (given : call.Gives m.store 1 value) :
      request.Sets m index (m₀.store.storage index).quota key value :=
    quota ▸ Request.completes_setItem called inside behaves named given
  refine ⟨contents, finite, quota, bounded, ?methods, sets,
    fun called behaves named => Request.completes_getItem called behaves named,
    fun called behaves named => Request.completes_removeItem called inside behaves named,
    ?setsString, ?getsString, ?removesString, ?clears, ?fresh⟩
  case methods =>
    intro id serves request name args invokes behaviour one
    simp only [List.mem_cons, Prod.mk.injEq, List.not_mem_nil, or_false] at one
    obtain ⟨rfl, rfl⟩ | ⟨rfl, rfl⟩ | ⟨rfl, rfl⟩ | ⟨rfl, rfl⟩ := one
    · exact invokes.call? serves.getItem (by decide) (by decide)
    · exact invokes.call? serves.setItem (by decide) (by decide)
    · exact invokes.call? serves.removeItem (by decide) (by decide)
    · exact invokes.call? serves.clear (by decide) (by decide)
  case setsString =>
    intro request function receiver key value called behaves
    exact sets called behaves (.string key) (.string value)
  case getsString =>
    intro request function receiver key called behaves
    exact Request.completes_getItem called behaves (.string key)
  case removesString =>
    intro request function receiver key called behaves
    exact Request.completes_removeItem called inside behaves (.string key)
  case clears =>
    intro request call called behaves
    refine Request.completes_modifyItems called inside behaves (fun _ => ∅) fun m₁ same => ?_
    rw [← same]
    rfl
  case fresh =>
    intro quota
    have made : ((Store.newStorage quota).run m.store).2.storage m.store.storages.size =
        ⟨quota, ∅⟩ := by
      change (m.store.storages.push ⟨quota, ∅⟩).getD m.store.storages.size _ = _
      rw [Array.getD_eq_getD_getElem?, Array.getElem?_push_size, Option.getD_some]
    refine ⟨m.store.storages.size, inside.ne', Store.servesItems_newStorage quota m.store, ?_, ?_⟩
    · rw [Store.contents, made]
      rfl
    · rw [made]

/-- The only item takes the whole quota of five bytes, and a longer value for it is refused. -/
theorem items_kept_refused : ∃ m last exception,
    Chronicle (create {} (.ofBytes .empty) {} {
        natives := #[⟨"setItem", .setItem 0⟩], storages := #[⟨5, ∅⟩] } ⟨0⟩)
      [.store 0 "k" "éé"] ⟨m, .outside, [], []⟩ ∧
    (Request.callFunction (.native 0) .null [.string "k", .string "ééé"]).Completes m
      (.error (.thrown exception)) last ∧
    last.store.IsError exception "QuotaExceededError" ∧
    last.store.contents 0 "k" = some "éé" := by
  let s : Store := { natives := #[⟨"setItem", .setItem 0⟩], storages := #[⟨5, ∅⟩] }
  let m₀ := create {} (.ofBytes .empty) {} s ⟨0⟩
  have store : m₀.store = s := store_create ..
  have there : 0 < m₀.store.storages.size := store ▸ Nat.one_pos
  have fits : Deed.Fits (m₀.store.storage 0) "k" "éé" := by
    rw [store]
    decide
  obtain ⟨m, stored, chronicle⟩ :=
    (Chronicle.start .refl).store (.native 0) (by rw [store]; rfl) there fits
  have storing : Storing m₀ 0 [] _ m := items_kept there (by rw [store]; rfl) chronicle
  have contents : m.store.contents 0 = Contents.empty.set "k" (some "éé") := by
    rw [stored, Store.contents_modifyItems there, Function.update_self, Dict.get?_insert_eq_set,
      store]
    rfl
  let again : HostCall := ⟨.native 0, .null, [.string "k", .string "ééé"]⟩
  have called : (Request.callFunction (.native 0) .null again.args).call? m = some again := rfl
  have exceeds : ¬ (m.store.contents 0).Fits (m₀.store.storage 0).quota "k" "ééé" := by
    have many : (s.storage 0).quota < "k".utf8ByteSize + "ééé".utf8ByteSize := by decide
    rw [store, Contents.Fits]
    omega
  obtain ⟨result, last, completes, came⟩ :=
    storing.setsString called (by rw [stored, store]; rfl)
  replace came := (if_neg exceeds).mp came
  obtain ⟨⟨exception, rfl, error⟩, kept⟩ := came
  refine ⟨m, last, exception, chronicle, completes, error, ?_⟩
  rw [kept, contents]
  rfl

end Execution

end SandboxBridge

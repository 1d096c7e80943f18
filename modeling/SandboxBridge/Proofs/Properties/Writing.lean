import SandboxBridge.Proofs.Exceptions.Guard
import SandboxBridge.Proofs.Properties.Access
import SandboxBridge.Proofs.Transfer.Results
import SandboxBridge.Proofs.Upkeep

/-!
Three ways for a module to write an element of an array: by its index, by the digits of the index as
a name, and by a string of these digits. They change the array alike, and only the first of them
consumes the handle of the value.
-/

namespace SandboxBridge

open Machine Work Contract

namespace Store

variable {s : Store} {id : ObjectId} {index : Nat} {value : Value}

/-- From `s` to `s'`, an element of an array has been set, and nothing else has changed. -/
structure Sets (id : ObjectId) (index : Nat) (value : Value) (s s' : Store) : Prop where
  size : (s'.object id).elements.size = max (s.object id).elements.size (index + 1)
  element : (s'.object id).elements[index]? = some value
  others : ∀ i < (s.object id).elements.size, i ≠ index →
    (s'.object id).elements[i]? = (s.object id).elements[i]?
  gap : ∀ i, (s.object id).elements.size ≤ i → i < index →
    (s'.object id).elements[i]? = some .undefined
  properties : (s'.object id).properties = (s.object id).properties
  classes : (s'.object id).classes = (s.object id).classes
  objects : ∀ other ≠ id, s'.object other = s.object other
  beside : { s' with objects := s.objects } = s

theorem sets_setElement (inside : id.index < s.objects.size) (index : Position) (value : Value) :
    s.Sets id index value (s.setElement id index value) := by
  have written := object_modifyObject inside (·.setElement index value)
  have elements (i : Nat) := Object.getElem?_setElement (s.object id) index value i
  rw [setElement]
  refine ⟨?_, ?_, fun i low different => ?_, fun i high low => ?_, ?_, ?_,
    fun other different => object_modifyObject_other different s _, rfl⟩ <;> rw [written]
  · exact Object.size_setElement _ _ _
  · rw [elements, if_pos rfl]
  · rw [elements, if_neg different, if_pos low]
  · rw [elements, if_neg (Nat.ne_of_lt low), if_neg (Nat.not_lt.mpr high), if_pos low]
  · rfl
  · rfl

theorem Sets.isArray {s' : Store} (sets : s.Sets id index value s')
    (array : (s.object id).isArray) : (s'.object id).isArray := by
  rw [Object.isArray, Object.isInstanceOf, sets.classes]
  exact array

theorem arrayIndex?_digits (index : UInt32) :
    arrayIndex? (toString index.toNat) = some index.toNat :=
  (arrayIndex?_eq_some_iff _ _).mpr
    ⟨Nat.lt_of_lt_of_le index.toNat_lt (by decide), .digits⟩

theorem digits_ne_length (index : UInt32) : toString index.toNat ≠ "length" := by
  intro same
  have named := arrayIndex?_digits index
  rw [same] at named
  cases named

theorem written?_digits {o : Object} (array : o.isArray) (index : UInt32) (value : Value) :
    written? o (toString index.toNat) value = some (o.setElement (.ofUInt32 index) value) := by
  have fits : index.toNat < elementLimit := (Position.ofUInt32 index).isLt
  unfold written?
  rw [arrayIndex?_digits]
  dsimp only
  rw [if_pos array, dif_pos fits]
  rfl

theorem run_setProperty_digits {m : Machine} (array : (m.store.object id).isArray) (index : UInt32)
    (value : Value) :
    (setProperty (.object id) (toString index.toNat) value).run m = .done (.ok ())
      { m with store := m.store.setElement id (.ofUInt32 index) value } := by
  rw [run_setProperty, written?_digits array, setElement, modifyObject_self]

theorem Sets.run_getProperty_digits {s' : Store} {index : UInt32}
    (sets : s.Sets id index.toNat value s') (array : (s.object id).isArray) :
    (getProperty (.object id) (toString index.toNat)).run s' = (.ok value, s') := by
  rw [run_getProperty (sets.isArray array) (digits_ne_length index)]
  unfold Object.read
  rw [arrayIndex?_digits]
  dsimp only
  rw [Array.getD_eq_getD_getElem?, sets.element, Option.getD_some]

end Store

theorem Host.run_attempt {α : Type} (work : Store.Completion α) (m : Machine) :
    (attempt work).run m =
      .done (thrown (work.run m.store).1) { m with store := (work.run m.store).2 } :=
  rfl

theorem GuardedCall.run_perform_done {g : GuardedCall} {m m₁ m₂ : Machine} {errand : Errand}
    {value : Value} (resolved : g.resolve.run m = (.ok (some errand), m₁))
    (done : errand.perform.run m₁ = .done (.ok value) m₂) :
    g.perform.run m = (g.conclude (.ok value)).run m₂ := by
  rw [run_perform, resolved]
  dsimp only
  rw [run_guarded_errand, done]
  rfl

namespace Machine

variable {m : Machine} {array h key : Handle} {id : ObjectId} {value : Value} {index : UInt32}
  {start length : Nat}

theorem run_object_ok (found : m.table.get h = .ok value) : (object h).run m = (.ok value, m) := by
  rw [run_object, found]

theorem run_decode_text {text : String} (name : m.memory.text start length = .ok text) :
    ∃ m', (decode start length).run m = (.ok text, m') ∧ m.Untouched m' := by
  obtain ⟨untouched, decoded⟩ := run_decode start length m
  exact ⟨_, Prod.ext (decoded.trans name) rfl, untouched⟩

theorem Untouched.set_store {m' : Machine} (untouched : m.Untouched m') (s : Store) :
    { m with store := s }.Untouched { m' with store := s } :=
  { untouched with store := rfl }

theorem run_arraySet_object (target : m.table.get array = .ok (.object id))
    (held : m.table.get h = .ok value) (index : Position) :
    ∃ m', (Adapter.arraySet array index h).run m = (.ok (), m') ∧
      { m with store := m.store.setElement id index value, table := m.table.vacate h }.Untouched
        m' := by
  obtain ⟨journal, taken⟩ := run_take_ok (HandleTable.claim_ok_iff.mpr held)
  refine ⟨{ m with
    store := m.store.setElement id index value, table := m.table.vacate h, journal }, ?_,
    ⟨rfl, rfl, rfl, rfl, rfl, rfl, rfl, rfl⟩⟩
  unfold Adapter.arraySet
  rw [run_bind_ok (run_object_ok target)]
  dsimp only
  rw [run_bind_ok taken]
  rfl

theorem run_setProperty_element (target : m.table.get array = .ok (.object id))
    (isArray : (m.store.object id).isArray) (held : m.table.get h = .ok value)
    (name : m.memory.text start length = .ok (toString index.toNat)) :
    ∃ m', (Adapter.setProperty array start length h).run m = .done (.ok ()) m' ∧
      { m with store := m.store.setElement id (.ofUInt32 index) value }.Untouched m' := by
  obtain ⟨m₁, decoded, untouched⟩ := run_decode_text name
  have resolved : (GuardedCall.setProperty array start length h).resolve.run m =
      (.ok (some (.set (.object id) (toString index.toNat) value)), m₁) := by
    rw [← untouched.table] at held
    unfold GuardedCall.resolve
    rw [run_bind_ok (run_object_ok target), run_bind_ok decoded, run_bind_ok (run_object_ok held)]
    rfl
  have done : (Errand.set (.object id) (toString index.toNat) value).perform.run m₁ =
      .done (.ok .undefined) { m₁ with store := m.store.setElement id (.ofUInt32 index) value } := by
    rw [← untouched.store] at isArray ⊢
    exact Host.run_bind_done (Store.run_setProperty_digits isArray index value) _
  exact ⟨_, GuardedCall.run_perform_done resolved done, untouched.set_store _⟩

theorem run_reflectSet_element (target : m.table.get array = .ok (.object id))
    (isArray : (m.store.object id).isArray) (held : m.table.get h = .ok value)
    (keyed : m.table.get key = .ok (.string (toString index.toNat))) :
    (Adapter.reflectSet array key h).run m =
      .done (.ok true) { m with store := m.store.setElement id (.ofUInt32 index) value } := by
  have resolved : (GuardedCall.reflectSet array key h).resolve.run m =
      (.ok (some (.reflect (.object id) (toString index.toNat) value)), m) := by
    unfold GuardedCall.resolve
    rw [run_bind_ok (run_object_ok target), run_bind_ok (run_object_ok keyed), run_showing]
    change (object h >>= _ : Local (Option Errand)).run m = _
    rw [run_bind_ok (run_object_ok held)]
    rfl
  have done : (Errand.reflect (.object id) (toString index.toNat) value).perform.run m =
      .done (.ok .undefined) { m with store := m.store.setElement id (.ofUInt32 index) value } := by
    exact Host.run_bind_done (Store.run_setProperty_digits isArray index value) _
  exact GuardedCall.run_perform_done resolved done

/-! Reading. -/

/-- Reading a property hands out its value: as 0 if it is nullish, and else under a fresh handle, if
there is room for one. -/
structure HandsOut (m : Machine) (target : Handle) (start length : Nat) (value : Value) :
    Prop where
  nullish : value.isNullish →
    ∃ m', (Adapter.getProperty target start length).run m = .done (.ok .undefined) m' ∧
      m.Untouched m'
  fresh : value.isNullish = false → ¬m.table.Full →
    ∃ made t m', (Adapter.getProperty target start length).run m = .done (.ok made) m' ∧
      m.table.Gains made value t ∧ { m with table := t }.Untouched m'

theorem handsOut {target : Value} {name : String} (formed : m.table.WellFormed)
    (found : m.table.get h = .ok target) (named : m.memory.text start length = .ok name)
    (read : (Store.getProperty target name).run m.store = (.ok value, m.store)) :
    m.HandsOut h start length value := by
  obtain ⟨m₁, decoded, untouched⟩ := run_decode_text named
  have resolved : (GuardedCall.getProperty h start length).resolve.run m =
      (.ok (some (.get target name)), m₁) := by
    unfold GuardedCall.resolve
    rw [run_bind_ok (run_object_ok found), run_bind_ok decoded]
    rfl
  have done : (Errand.get target name).perform.run m₁ = .done (.ok value) m₁ := by
    unfold Errand.perform
    rw [Host.run_attempt, untouched.store, read, ← untouched.store]
    rfl
  have performed : (Adapter.getProperty h start length).run m =
      (liftM (some <$> allocateOptional value) >>= present : Op Handle).run m₁ :=
    GuardedCall.run_perform_done resolved done
  rw [Op.lift_some, Op.run_local] at performed
  unfold allocateOptional at performed
  constructor
  · intro nullish
    rw [nullish] at performed
    exact ⟨m₁, performed, untouched⟩
  · intro proper room
    rw [proper] at performed
    cases next : m₁.table.next with
    | error e =>
      rw [untouched.table] at next
      exact absurd ((formed.next_error_iff e).mp next).2 room
    | ok made =>
      obtain ⟨journal, allocated⟩ := run_allocate_ok value next
      change _ = Task.done ((allocate value).run m₁).1 ((allocate value).run m₁).2 at performed
      rw [allocated] at performed
      rw [untouched.table] at next performed
      exact ⟨made, m.table.occupy value, _, performed, (formed.occupy next value).2,
        { untouched with table := rfl }⟩

end Machine

namespace Execution

theorem reaches_allocated {x : Execution} {m : Machine} {callers : List Caller}
    {events : List Event} (reached : Reaches x ⟨m, .outside, callers, events⟩) (value : Value)
    {h : Handle} (next : m.table.next = .ok h) : ∃ journal,
      Reaches x ⟨{ m with table := m.table.occupy value, journal }, .outside, callers, events⟩ := by
  obtain ⟨journal, ran⟩ := run_allocate_ok value next
  have performed : (Request.allocate value).perform m =
      .done (.ok h) { m with table := m.table.occupy value, journal } := Run.ofState_eq_done ran
  have asked := reached.tail (.ask (.allocate value))
  rw [performed] at asked
  exact ⟨journal, asked.tail .finish⟩

/-- However an element of an array is written, the array comes to be the same, and the element is
read alike afterwards. -/
theorem element_writes_agree {settings : Settings} {memory : Memory} {guest : Guest}
    {store : Store} {global : ObjectId} {x : Execution}
    (reached : Reaches (start (create settings memory guest store global)) x)
    {array h : Handle} {id : ObjectId} {value : Value} (index : UInt32)
    (target : x.machine.table.get array = .ok (.object id))
    (isArray : (x.machine.store.object id).isArray) (held : x.machine.table.get h = .ok value)
    (other : h ≠ array) :
    ∃ s t, x.machine.store.Sets id index.toNat value s ∧
      (h.isReserved ∧ t = x.machine.table ∨ h.isReserved = false ∧ x.machine.table.Loses h t) ∧
      (∃ m, (Adapter.arraySet array (.ofUInt32 index) h).run x.machine = (.ok (), m) ∧
        { x.machine with store := s, table := t }.Untouched m) ∧
      (∀ key, x.machine.table.get key = .ok (.string (toString index.toNat)) →
        ∃ m, (Adapter.reflectSet array key h).run x.machine = .done (.ok true) m ∧
          { x.machine with store := s }.Untouched m) ∧
      ∀ place extent, x.machine.memory.text place extent = .ok (toString index.toNat) →
        (∃ m, (Adapter.setProperty array place extent h).run x.machine = .done (.ok ()) m ∧
          { x.machine with store := s }.Untouched m) ∧
        ∀ m, { x.machine with store := s, table := t }.Untouched m ∨
          { x.machine with store := s }.Untouched m → m.HandsOut array place extent value := by
  have formed := (upkept_reaches (.create settings memory guest store global) reached).formed
  generalize x.machine = m at *
  have sets := Store.sets_setElement (Store.inside_of_isArray isArray) (.ofUInt32 index) value
  obtain ⟨after, kept⟩ := formed.vacate_of_get held
  have still : (m.table.vacate h).get array = .ok (.object id) := by
    obtain ⟨-, same⟩ | ⟨-, loses⟩ := kept
    · rw [same, target]
    · rw [loses.others array (Ne.symm other), target]
  have read {m' : Machine} {t : HandleTable} {place extent : Nat} (formed : t.WellFormed)
      (found : t.get array = .ok (.object id))
      (name : m.memory.text place extent = .ok (toString index.toNat))
      (beside : { m with store := m.store.setElement id (.ofUInt32 index) value, table := t }.Untouched
        m') : m'.HandsOut array place extent value := by
    have table : m'.table = t := beside.table
    rw [← table] at formed found
    refine handsOut formed found ((beside.text_eq place extent).trans name) ?_
    rw [beside.store]
    exact sets.run_getProperty_digits isArray
  refine ⟨_, _, sets, kept, run_arraySet_object target held (.ofUInt32 index), fun key keyed => ?_,
    fun place extent name => ⟨run_setProperty_element target isArray held name, ?_⟩⟩
  · exact ⟨_, run_reflectSet_element target isArray held keyed, .refl _⟩
  · rintro m' (beside | beside)
    · exact read after still name beside
    · exact read formed target name beside

theorem reaches_digit : ∃ x, Reaches (start (create {} (.ofBytes (.mk #[50])) {}
      { objects := #[{ classes := ["Array"] }] } ⟨0⟩)) x ∧
    x.machine.table = ((HandleTable.empty none).occupy (.object ⟨0⟩)).occupy (.string "2") ∧
    x.machine.store = { objects := #[{ classes := ["Array"] }] } ∧
    x.machine.memory = .ofBytes (.mk #[50]) := by
  let store : Store := { objects := #[{ classes := ["Array"] }] }
  have kept := store_create {} (.ofBytes (.mk #[50])) {} store ⟨0⟩
  have same := frame_create {} (.ofBytes (.mk #[50])) {} store ⟨0⟩
  revert kept same
  generalize create {} (.ofBytes (.mk #[50])) {} store ⟨0⟩ = m
  intro kept same
  have table : m.table = .empty none := congrArg (fun frame => frame.1.1) same
  have memory : m.memory = .ofBytes (.mk #[50]) := congrArg (fun frame => frame.2.1) same
  obtain ⟨journal, first⟩ := reaches_allocated (h := ⟨4⟩) (.refl (a := start m))
    (.object ⟨0⟩) (by rw [table]; rfl)
  obtain ⟨journal, second⟩ := reaches_allocated (h := ⟨5⟩) first (.string "2")
    (by rw [table]; rfl)
  exact ⟨_, second, by rw [table], kept, memory⟩

theorem element_writes_agree_gap : ∃ x m m',
    Reaches (start (create {} (.ofBytes (.mk #[50])) {}
      { objects := #[{ classes := ["Array"] }] } ⟨0⟩)) x ∧
    (Adapter.arraySet ⟨4⟩ (.ofUInt32 2) ⟨5⟩).run x.machine = (.ok (), m) ∧
    (Adapter.setProperty ⟨4⟩ 0 1 ⟨5⟩).run x.machine = .done (.ok ()) m' ∧
    m.store = m'.store ∧ (m.store.object ⟨0⟩).elements.size = 3 ∧
    (m.store.object ⟨0⟩).elements[0]? = some .undefined ∧
    m.table.isLive ⟨5⟩ = false ∧ m'.table.isLive ⟨5⟩ ∧
    m.HandsOut ⟨4⟩ 0 1 (.string "2") := by
  obtain ⟨x, reached, table, store, memory⟩ := reaches_digit
  have target : x.machine.table.get ⟨4⟩ = .ok (.object ⟨0⟩) := by rw [table]; rfl
  have held : x.machine.table.get ⟨5⟩ = .ok (.string "2") := by rw [table]; rfl
  have array : (x.machine.store.object ⟨0⟩).isArray := by rw [store]; rfl
  have name : x.machine.memory.text 0 1 = .ok (toString (2 : UInt32).toNat) := by
    rw [memory]
    decide +kernel
  obtain ⟨s, t, sets, released, ⟨m, first, same⟩, -, named⟩ :=
    element_writes_agree reached 2 target array held (by decide)
  obtain ⟨⟨m', second, beside⟩, read⟩ := named 0 1 name
  obtain ⟨⟨⟩, -⟩ | ⟨-, loses⟩ := released
  have empty : (x.machine.store.object ⟨0⟩).elements.size = 0 := by rw [store]; rfl
  refine ⟨x, m, m', reached, first, second, same.store.trans beside.store.symm, ?_, ?_, ?_, ?_,
    read m (.inl same)⟩
  · rw [same.store, sets.size, empty]
    rfl
  · rw [same.store, sets.gap 0 (by rw [empty]) (by decide)]
  · rw [same.table]
    exact loses.after
  · rw [beside.table]
    exact loses.before

end Execution

end SandboxBridge

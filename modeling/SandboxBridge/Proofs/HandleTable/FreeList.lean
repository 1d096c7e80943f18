import Mathlib.Data.Finmap
import SandboxBridge.HandleTable

/-!
The free list of a handle table and the store that the table stands for. A store is a finite map
from live handles to values and a stack of released handles; it knows no slots and no links. Every
operation of a table does to its slots what the operation of the same name does to the store.
-/

namespace SandboxBridge

/-- The list threaded through the free slots from `index` on visits exactly `handles`, in this
order, and ends just past the last slot. -/
inductive HandleTable.Threads (slots : Array Slot) : Nat → List Handle → Prop
  | stop {index : Nat} (past : index = slots.size) : Threads slots index []
  | visit {index next : Nat} {rest : List Handle} (link : slots[index]? = some (.free next))
      (after : Threads slots next rest) : Threads slots index (⟨index⟩ :: rest)

/-- What a handle table stands for. -/
structure HandleStore where
  /-- Values of the live handles, permanent ones not counted. -/
  values : Finmap fun _ : Handle => Value
  /-- Released handles, the latest first. -/
  freed : List Handle
  limit : Option Nat

namespace HandleStore

def empty (limit : Option Nat) : HandleStore :=
  ⟨∅, [], limit⟩

/-- How many handles have ever been in use at the same time, the permanent ones included. -/
def size (s : HandleStore) : Nat :=
  Handle.reserved + s.values.keys.card + s.freed.length

def permanent : List Value :=
  [.undefined, .null, .bool true, .bool false]

def refusal (s : HandleStore) (h : Handle) (released : Error) : Error :=
  if h ∈ s.freed then released else .handleOutOfRange

def value? (s : HandleStore) (h : Handle) : Option Value :=
  if h.isReserved then permanent[h.index]? else s.values.lookup h

def get (s : HandleStore) (h : Handle) : Except Error Value :=
  match s.value? h with
  | some value => .ok value
  | none => .error (s.refusal h .handleReleased)

/-- Stores a value under the handle released last, or under one never used. -/
def allocate (s : HandleStore) (value : Value) : Except Error (Handle × HandleStore) :=
  match s.freed with
  | h :: rest => .ok (h, { s with values := s.values.insert h value, freed := rest })
  | [] =>
    if s.limit.any (· ≤ s.size) then .error .tableFull
    else .ok (⟨s.size⟩, { s with values := s.values.insert ⟨s.size⟩ value })

/-- Reads a handle and pushes it on the stack of released ones. Permanent handles are only read. -/
def take (s : HandleStore) (h : Handle) : Except Error (Value × HandleStore) :=
  match s.value? h with
  | some value =>
    if h.isReserved then .ok (value, s)
    else .ok (value, { s with values := s.values.erase h, freed := h :: s.freed })
  | none => .error (s.refusal h .releasedTwice)

def release (s : HandleStore) (h : Handle) : Except Error HandleStore :=
  (s.take h).map (·.2)

def duplicate (s : HandleStore) (h : Handle) : Except Error (Handle × HandleStore) := do
  s.allocate (← s.get h)

def reset (s : HandleStore) : HandleStore :=
  empty s.limit

end HandleStore

namespace HandleTable

variable {t : HandleTable} {s : HandleStore}

namespace Threads

variable {slots : Array Slot} {index : Nat} {handles : List Handle}

theorem freeFrom_eq (threads : Threads slots index handles) (steps : Nat)
    (enough : handles.length ≤ steps) : freeFrom slots steps index = handles := by
  induction threads generalizing steps with
  | stop past =>
    cases steps with
    | zero => rfl
    | succ steps => simp [freeFrom, past]
  | visit link after ih =>
    cases steps with
    | zero => simp at enough
    | succ steps =>
      simp only [List.length_cons, Nat.add_le_add_iff_right] at enough
      simp only [freeFrom, link, ih steps enough]

theorem link_of_mem (threads : Threads slots index handles) {h : Handle} (member : h ∈ handles) :
    ∃ next, slots[h.index]? = some (.free next) := by
  induction threads with
  | stop past => simp at member
  | @visit index next rest link after ih =>
    rcases List.mem_cons.mp member with same | later
    · exact ⟨next, same ▸ link⟩
    · exact ih later

theorem index_eq_size_iff (threads : Threads slots index handles) :
    index = slots.size ↔ handles = [] := by
  cases threads with
  | stop past => simp [past]
  | visit link after =>
    have within : index < slots.size := (Array.getElem?_eq_some_iff.mp link).1
    simp [Nat.ne_of_lt within]

theorem set (threads : Threads slots index handles) (position : Nat) (slot : Slot)
    (apart : ∀ h ∈ handles, h.index ≠ position) :
    Threads (slots.set! position slot) index handles := by
  induction threads with
  | stop past => exact .stop (by simp [past])
  | @visit index next rest link after ih =>
    have different : position ≠ index := fun same => apart ⟨index⟩ (by simp) same.symm
    refine .visit ?_ (ih fun h member => apart h (List.mem_cons_of_mem _ member))
    simp [Array.set!_eq_setIfInBounds, Array.getElem?_setIfInBounds_ne different, link]

end Threads

/-- The slots, links and counters of a table say the same as a store. -/
structure Represents (t : HandleTable) (s : HandleStore) : Prop where
  threads : Threads t.slots t.nextFree s.freed
  nodup : s.freed.Nodup
  mem_freed : ∀ h next, t.slots[h.index]? = some (.free next) → h ∈ s.freed
  permanent : ∀ index < Handle.reserved,
    t.slots[index]? = HandleStore.permanent[index]?.map Slot.occupied
  occupied_iff : ∀ h, Handle.reserved ≤ h.index → ∀ value,
    t.slots[h.index]? = some (.occupied value) ↔ s.values.lookup h = some value
  unreserved : ∀ h ∈ s.values, Handle.reserved ≤ h.index
  live_eq : t.live = s.values.keys.card
  size_eq : t.slots.size = s.size
  limit_eq : t.limit = s.limit

namespace Represents

theorem mem_freed_iff (stands : t.Represents s) (h : Handle) :
    h ∈ s.freed ↔ ∃ next, t.slots[h.index]? = some (.free next) :=
  ⟨fun member => stands.threads.link_of_mem member,
    fun ⟨next, link⟩ => stands.mem_freed h next link⟩

theorem permanent_slot (stands : t.Represents s) {h : Handle} (low : h.index < Handle.reserved) :
    ∃ value, t.slots[h.index]? = some (.occupied value) ∧
      HandleStore.permanent[h.index]? = some value := by
  have within : h.index < HandleStore.permanent.length := low
  refine ⟨HandleStore.permanent[h.index], ?_, List.getElem?_eq_getElem within⟩
  rw [stands.permanent h.index low, List.getElem?_eq_getElem within]
  rfl

theorem unreserved_of_mem_freed (stands : t.Represents s) {h : Handle} (member : h ∈ s.freed) :
    Handle.reserved ≤ h.index := by
  by_contra low
  obtain ⟨next, link⟩ := (stands.mem_freed_iff h).mp member
  obtain ⟨value, slot, _⟩ := stands.permanent_slot (Nat.lt_of_not_le low)
  simp [slot] at link

theorem occupied_iff_value? (stands : t.Represents s) (h : Handle) (value : Value) :
    t.slots[h.index]? = some (.occupied value) ↔ s.value? h = some value := by
  by_cases low : h.index < Handle.reserved
  · obtain ⟨held, slot, known⟩ := stands.permanent_slot low
    simp [HandleStore.value?, Handle.isReserved, low, slot, known]
  · have high : Handle.reserved ≤ h.index := Nat.le_of_not_lt low
    simpa [HandleStore.value?, Handle.isReserved, low] using stands.occupied_iff h high value

theorem value?_eq_none_iff (stands : t.Represents s) (h : Handle) :
    s.value? h = none ↔ ∀ value, t.slots[h.index]? ≠ some (.occupied value) := by
  simp only [ne_eq, stands.occupied_iff_value?, Option.eq_none_iff_forall_ne_some]

theorem unused (stands : t.Represents s) {h : Handle} (past : t.slots[h.index]? = none) :
    h ∉ s.freed ∧ h ∉ s.values := by
  constructor
  · simp [stands.mem_freed_iff, past]
  · intro member
    obtain ⟨value, found⟩ := Finmap.mem_iff.mp member
    have slot := (stands.occupied_iff h (stands.unreserved h member) value).mpr found
    simp [past] at slot

theorem freed_has_no_value (stands : t.Represents s) {h : Handle} (member : h ∈ s.freed) :
    h ∉ s.values := by
  intro live
  obtain ⟨next, link⟩ := (stands.mem_freed_iff h).mp member
  obtain ⟨value, found⟩ := Finmap.mem_iff.mp live
  have slot := (stands.occupied_iff h (stands.unreserved h live) value).mpr found
  simp [link] at slot

end Represents

theorem represents_empty (limit : Option Nat) : (empty limit).Represents (.empty limit) where
  threads := .stop rfl
  nodup := List.nodup_nil
  mem_freed := by
    intro h next link
    match h with
    | ⟨0⟩ | ⟨1⟩ | ⟨2⟩ | ⟨3⟩ => simp [empty, sentinels] at link
    | ⟨index + 4⟩ => simp [empty, sentinels] at link
  permanent := by
    intro index low
    match index with
    | 0 | 1 | 2 | 3 => rfl
    | index + 4 => exact absurd low (by simp [Handle.reserved])
  occupied_iff := by
    intro h high value
    have past : sentinels[h.index]? = none := Array.getElem?_eq_none high
    simp [empty, HandleStore.empty, past]
  unreserved := fun h member => absurd member Finmap.notMem_empty
  live_eq := rfl
  size_eq := rfl
  limit_eq := rfl

/-! Operations on a table and on the store that it stands for. -/

namespace Represents

theorem get_eq (stands : t.Represents s) (h : Handle) : t.get h = s.get h := by
  unfold get HandleStore.get HandleStore.refusal
  cases slot : t.slots[h.index]? with
  | none =>
    have absent : s.value? h = none := (stands.value?_eq_none_iff h).mpr (by simp [slot])
    simp [absent, (stands.unused slot).1]
  | some content =>
    cases content with
    | occupied value => simp [(stands.occupied_iff_value? h value).mp slot]
    | free next =>
      have absent : s.value? h = none := (stands.value?_eq_none_iff h).mpr (by simp [slot])
      simp [absent, stands.mem_freed h next slot]

theorem claim_eq (stands : t.Represents s) (h : Handle) :
    t.claim h = (s.take h).map (·.1) := by
  unfold claim HandleStore.take HandleStore.refusal
  cases slot : t.slots[h.index]? with
  | none =>
    have absent : s.value? h = none := (stands.value?_eq_none_iff h).mpr (by simp [slot])
    simp [absent, (stands.unused slot).1, Except.map]
  | some content =>
    cases content with
    | occupied value =>
      simp only [(stands.occupied_iff_value? h value).mp slot]
      split <;> rfl
    | free next =>
      have absent : s.value? h = none := (stands.value?_eq_none_iff h).mpr (by simp [slot])
      have member := stands.mem_freed h next slot
      have high := stands.unreserved_of_mem_freed member
      simp [absent, member, Handle.isReserved, Nat.not_lt.mpr high, Except.map]

theorem fill (stands : t.Represents s) {h : Handle} {value : Value} {slots : Array Slot}
    {next : Nat} {rest : List Handle} (high : Handle.reserved ≤ h.index) (absent : h ∉ s.values)
    (stack : rest = s.freed.filter (· ≠ h)) (threads : Threads slots next rest)
    (filled : slots[h.index]? = some (.occupied value))
    (elsewhere : ∀ index, index ≠ h.index → slots[index]? = t.slots[index]?)
    (size : slots.size = Handle.reserved + (s.values.keys.card + 1) + rest.length) :
    Represents { t with slots, nextFree := next, live := t.live + 1 }
      { s with values := s.values.insert h value, freed := rest } := by
  have keys : (s.values.insert h value).keys = insert h s.values.keys := by
    ext k
    simp [Finmap.mem_keys]
  have card : (s.values.insert h value).keys.card = s.values.keys.card + 1 := by
    rw [keys, Finset.card_insert_of_notMem (by simpa [Finmap.mem_keys] using absent)]
  have apart : ∀ k : Handle, k ≠ h → k.index ≠ h.index := fun k different same =>
    different (by cases k; cases h; exact congrArg Handle.mk same)
  refine ⟨threads, stack ▸ stands.nodup.filter _, ?_, ?_, ?_, ?_, ?_, ?_, stands.limit_eq⟩
  · intro k after link
    have different : k ≠ h := fun same => by simp [same, filled] at link
    rw [elsewhere _ (apart k different)] at link
    simp [stack, stands.mem_freed k after link, different]
  · intro index low
    rw [elsewhere index (by omega)]
    exact stands.permanent index low
  · intro k highToo held
    by_cases same : k = h
    · subst same
      simp [filled]
    · rw [elsewhere _ (apart k same), Finmap.lookup_insert_of_ne _ same]
      exact stands.occupied_iff k highToo held
  · intro k member
    rcases Finmap.mem_insert.mp member with same | before
    · exact same ▸ high
    · exact stands.unreserved k before
  · rw [card, stands.live_eq]
  · rw [size, HandleStore.size, card]

theorem occupy_freed (stands : t.Represents s) {h : Handle} {rest : List Handle}
    (stack : s.freed = h :: rest) (value : Value) :
    t.nextFree = h.index ∧
      (t.occupy value).Represents { s with values := s.values.insert h value, freed := rest } := by
  have member : h ∈ s.freed := by simp [stack]
  have nodup := stack ▸ stands.nodup
  obtain ⟨next, head, link, after⟩ :
      ∃ next, t.nextFree = h.index ∧ t.slots[h.index]? = some (.free next) ∧
        Threads t.slots next rest := by
    have threads := stack ▸ stands.threads
    cases threads with
    | visit link after => exact ⟨_, rfl, link, after⟩
  have within : h.index < t.slots.size := (Array.getElem?_eq_some_iff.mp link).1
  have different : ∀ k ∈ rest, k ≠ h := fun k later same =>
    (List.nodup_cons.mp nodup).1 (same ▸ later)
  refine ⟨head, ?_⟩
  simp only [occupy, head, link]
  refine stands.fill (stands.unreserved_of_mem_freed member) (stands.freed_has_no_value member) ?_
    (after.set _ _ ?_) ?_ ?_ ?_
  · simp only [stack, ne_eq, decide_not, List.filter_cons, decide_true, Bool.not_true,
      Bool.false_eq_true, ↓reduceIte]
    exact (List.filter_eq_self.mpr fun k later => by simp [different k later]).symm
  · intro k later same
    exact different k later (by cases k; cases h; exact congrArg Handle.mk same)
  · rw [Array.set!_eq_setIfInBounds, Array.getElem?_setIfInBounds_self_of_lt within]
  · intro index other
    rw [Array.set!_eq_setIfInBounds, Array.getElem?_setIfInBounds_ne (Ne.symm other)]
  · have size := stands.size_eq
    simp only [HandleStore.size, stack, List.length_cons] at size
    simp only [Array.set!_eq_setIfInBounds, Array.size_setIfInBounds, size]
    omega

theorem occupy_unused (stands : t.Represents s) (stack : s.freed = []) (value : Value) :
    t.nextFree = t.slots.size ∧
      (t.occupy value).Represents { s with values := s.values.insert ⟨s.size⟩ value } := by
  have last : t.nextFree = t.slots.size := stands.threads.index_eq_size_iff.mpr stack
  have past : t.slots[t.nextFree]? = none := by simp [last]
  have unused := stands.unused (h := ⟨s.size⟩) (by simp [stands.size_eq])
  have untouched : s.freed.filter (· ≠ (⟨s.size⟩ : Handle)) = s.freed := by simp [stack]
  refine ⟨last, ?_⟩
  simp only [occupy, past]
  refine stands.fill (by simp only [HandleStore.size]; omega) unused.2 untouched.symm ?_ ?_ ?_ ?_
  · rw [stack]
    exact .stop (by simp [last])
  · simp [← stands.size_eq]
  · intro index other
    have different : index ≠ t.slots.size := stands.size_eq ▸ other
    simp [Array.getElem?_push, different]
  · simp [stands.size_eq, HandleStore.size, stack, Nat.add_assoc]

theorem vacate (stands : t.Represents s) {h : Handle} (high : Handle.reserved ≤ h.index)
    (live : h ∈ s.values) :
    (t.vacate h).Represents { s with values := s.values.erase h, freed := h :: s.freed } := by
  obtain ⟨value, found⟩ := Finmap.mem_iff.mp live
  have held := (stands.occupied_iff h high value).mpr found
  have within : h.index < t.slots.size := (Array.getElem?_eq_some_iff.mp held).1
  have fresh : h ∉ s.freed := fun member => stands.freed_has_no_value member live
  have card : (s.values.erase h).keys.card + 1 = s.values.keys.card := by
    rw [Finmap.keys_erase, Finset.card_erase_add_one (Finmap.mem_keys.mpr live)]
  have apart : ∀ k : Handle, k ≠ h → h.index ≠ k.index := fun k different same =>
    different (by cases k; cases h; exact congrArg Handle.mk same.symm)
  have emptied : (t.slots.set! h.index (.free t.nextFree))[h.index]? = some (.free t.nextFree) := by
    rw [Array.set!_eq_setIfInBounds, Array.getElem?_setIfInBounds_self_of_lt within]
  have elsewhere : ∀ index, h.index ≠ index →
      (t.slots.set! h.index (.free t.nextFree))[index]? = t.slots[index]? := fun index other => by
    rw [Array.set!_eq_setIfInBounds, Array.getElem?_setIfInBounds_ne other]
  have unreserved : h.isReserved = false := by simpa [Handle.isReserved] using high
  simp only [HandleTable.vacate, unreserved, Bool.false_eq_true, ↓reduceIte]
  -- The slot becomes the head of the free list, and links to what was the head before.
  refine ⟨.visit emptied (stands.threads.set _ _ fun k member => (apart k ?_).symm),
    List.nodup_cons.mpr ⟨fresh, stands.nodup⟩, ?_, ?_, ?_, ?_, ?_, ?_, stands.limit_eq⟩
  · exact fun same => fresh (same ▸ member)
  · intro k next link
    by_cases same : k = h
    · simp [same]
    · rw [elsewhere _ (apart k same)] at link
      exact List.mem_cons_of_mem _ (stands.mem_freed k next link)
  · intro index low
    rw [elsewhere index (by omega)]
    exact stands.permanent index low
  · intro k highToo other
    by_cases same : k = h
    · subst same
      rw [emptied, Finmap.lookup_erase]
      simp
    · rw [elsewhere _ (apart k same), Finmap.lookup_erase_ne same]
      exact stands.occupied_iff k highToo other
  · exact fun k member => stands.unreserved k (Finmap.mem_erase.mp member).2
  · simp only [stands.live_eq]
    omega
  · have size := stands.size_eq
    simp only [HandleStore.size, List.length_cons] at size ⊢
    simp only [Array.set!_eq_setIfInBounds, Array.size_setIfInBounds, size]
    omega

end Represents

end HandleTable

end SandboxBridge

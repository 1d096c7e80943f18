import Mathlib.Algebra.BigOperators.Finprod
import SandboxBridge.Proofs.Dict
import SandboxBridge.Proofs.Facilities.Chronicle

/-!
Contents of storages as finite maps from keys to values. What a map takes is counted over its keys,
and it gets a new item if it then takes no more than a quota; what a storage has after any deeds is
the map that they make.
-/

namespace SandboxBridge

/-- What there is under each key. -/
abbrev Contents : Type :=
  String → Option String

namespace Contents

variable {c : Contents} {keys : Finset String} {key value : String} {index quota : Nat}

def empty : Contents := fun _ => none

def set (c : Contents) (key : String) (item : Option String) : Contents :=
  fun other => if other = key then item else c other

def size (c : Contents) (key : String) : Nat :=
  (c key).elim 0 fun value => key.utf8ByteSize + value.utf8ByteSize

noncomputable def bytes (c : Contents) : Nat :=
  ∑ᶠ key, c.size key

/-- Whether there is room for a value under a key, beside what there is under all others. -/
def Fits (c : Contents) (quota : Nat) (key value : String) : Prop :=
  (c.set key none).bytes + key.utf8ByteSize + value.utf8ByteSize ≤ quota

noncomputable instance (c : Contents) (quota : Nat) (key value : String) :
    Decidable (c.Fits quota key value) :=
  inferInstanceAs (Decidable (_ ≤ _))

noncomputable def after (index quota : Nat) (c : Contents) : Deed → Contents
  | .store other key value =>
    if other = index ∧ c.Fits quota key value then c.set key (some value) else c
  | .remove other key => if other = index then c.set key none else c
  | .clear other => if other = index then empty else c
  | .listen .. | .unlisten .. => c

def Finite (c : Contents) : Prop :=
  {key | c key ≠ none}.Finite

theorem bytes_eq_sum (covers : ∀ key ∉ keys, c key = none) :
    c.bytes = ∑ key ∈ keys, c.size key := by
  refine finsum_eq_sum_of_support_subset _ fun key member => ?_
  by_contra outside
  exact member (by rw [size, covers key outside]; rfl)

theorem exists_covers (finite : c.Finite) : ∃ keys : Finset String, ∀ key ∉ keys, c key = none :=
  ⟨finite.toFinset, fun _ outside => by_contra fun present =>
    outside (finite.mem_toFinset.mpr present)⟩

theorem bytes_empty : empty.bytes = 0 := by
  have sum : empty.bytes = ∑ key ∈ ∅, empty.size key := bytes_eq_sum fun _ _ => rfl
  rw [sum, Finset.sum_empty]

theorem size_set_of_ne {other : String} (different : other ≠ key) (item : Option String) :
    (c.set key item).size other = c.size other := by
  rw [size, set, if_neg different, size]

theorem bytes_set_some (finite : c.Finite) (key value : String) :
    (c.set key (some value)).bytes =
      (c.set key none).bytes + key.utf8ByteSize + value.utf8ByteSize := by
  obtain ⟨keys, covers⟩ := exists_covers finite
  have apart (item : Option String) {other : String}
      (outside : other ∉ insert key (keys.erase key)) : c.set key item other = none := by
    simp only [Finset.mem_insert, Finset.mem_erase, not_or, not_and] at outside
    rw [set, if_neg outside.1, covers other (outside.2 outside.1)]
  have others : ∑ other ∈ keys.erase key, (c.set key (some value)).size other =
      ∑ other ∈ keys.erase key, (c.set key none).size other :=
    Finset.sum_congr rfl fun other member => by
      rw [size_set_of_ne (Finset.ne_of_mem_erase member),
        size_set_of_ne (Finset.ne_of_mem_erase member)]
  have stored : (c.set key (some value)).size key = key.utf8ByteSize + value.utf8ByteSize := by
    rw [size, set, if_pos rfl, Option.elim_some]
  have absent : (c.set key none).size key = 0 := by
    rw [size, set, if_pos rfl, Option.elim_none]
  have first := Finset.notMem_erase key keys
  rw [bytes_eq_sum fun _ => apart (some value), bytes_eq_sum fun _ => apart none,
    Finset.sum_insert first, Finset.sum_insert first, others, stored, absent]
  omega

theorem bytes_set_none_le (finite : c.Finite) (key : String) : (c.set key none).bytes ≤ c.bytes := by
  obtain ⟨keys, covers⟩ := exists_covers finite
  have dropped : ∀ other ∉ keys, c.set key none other = none := fun other outside => by
    rw [set, covers other outside, ite_self]
  rw [bytes_eq_sum covers, bytes_eq_sum dropped]
  refine Finset.sum_le_sum fun other _ => ?_
  by_cases same : other = key
  · rw [size, set, if_pos same]
    exact Nat.zero_le _
  · exact (size_set_of_ne same none).le

theorem finite_empty : empty.Finite := by
  simp [Finite, empty]

theorem Finite.set (finite : c.Finite) (key : String) (item : Option String) :
    (c.set key item).Finite := by
  refine (Set.Finite.insert key finite).subset fun other member => ?_
  by_cases same : other = key
  · exact .inl same
  · exact .inr (by simpa [Contents.set, same] using member)

theorem bounded_after (finite : c.Finite) (within : c.bytes ≤ quota) (d : Deed) :
    (c.after index quota d).Finite ∧ (c.after index quota d).bytes ≤ quota := by
  cases d with
  | store other key value =>
    dsimp only [after]
    split
    next here =>
      refine ⟨finite.set key (some value), ?_⟩
      rw [bytes_set_some finite]
      exact here.2
    next => exact ⟨finite, within⟩
  | remove other key =>
    dsimp only [after]
    split
    · exact ⟨finite.set key none, (bytes_set_none_le finite key).trans within⟩
    · exact ⟨finite, within⟩
  | clear other =>
    dsimp only [after]
    split
    · exact ⟨finite_empty, bytes_empty.trans_le (Nat.zero_le quota)⟩
    · exact ⟨finite, within⟩
  | _ => exact ⟨finite, within⟩

theorem bounded_foldl (finite : c.Finite) (within : c.bytes ≤ quota) (history : List Deed) :
    (history.foldl (after index quota) c).Finite ∧
      (history.foldl (after index quota) c).bytes ≤ quota := by
  induction history generalizing c with
  | nil => exact ⟨finite, within⟩
  | cons d history ih =>
    obtain ⟨finite, within⟩ := bounded_after finite within d
    exact ih finite within

end Contents

namespace Dict

variable {β : Type} {d : Dict β} {key : String} {value : β}

theorem entryBytes_eq_sum (entries : List (String × String)) : Store.entryBytes entries =
    (entries.map fun entry => entry.1.utf8ByteSize + entry.2.utf8ByteSize).sum := by
  induction entries with
  | nil => rfl
  | cons entry rest ih => rw [Store.entryBytes, ih, List.map_cons, List.sum_cons]

theorem bytes_get? (d : Dict String) : Contents.bytes d.get? = Store.entryBytes d.entries := by
  have covers : ∀ key ∉ d.keys.toFinset, d.get? key = none :=
    fun key outside => get?_eq_none (by simpa using outside)
  rw [Contents.bytes_eq_sum covers, List.sum_toFinset _ d.nodup_keys, entryBytes_eq_sum, keys,
    List.map_map]
  refine congrArg List.sum (List.map_congr_left fun entry member => ?_)
  rw [Function.comp_apply, Contents.size, get?_of_mem member, Option.elim_some]

end Dict

end SandboxBridge

import Mathlib.Data.List.Nodup
import Mathlib.Data.List.Perm.Basic
import SandboxBridge.Dict

/-!
What a dictionary holds, by its entries and by its keys. A dictionary is no more than what it has
under each key.
-/

namespace SandboxBridge.Dict

variable {β : Type} {d d' : Dict β} {key : String} {value : β}

theorem get?_of_mem (member : (key, value) ∈ d.entries) : d.get? key = some value := by
  obtain ⟨entries, ascending⟩ := d
  change entries.lookup key = some value
  induction entries with
  | nil => cases member
  | cons first rest ih =>
    obtain ⟨k, v⟩ := first
    obtain ⟨above, later⟩ := List.pairwise_cons.mp ascending
    rw [lookup_cons]
    rcases List.mem_cons.mp member with same | member
    · cases same
      rw [if_pos rfl]
    · have less : k < key := above _ member
      rw [if_neg fun same : key = k => String.lt_irrefl k (same ▸ less)]
      exact ih later member

theorem mem_entries (d : Dict β) (key : String) (value : β) :
    (key, value) ∈ d.entries ↔ d.get? key = some value := by
  refine ⟨get?_of_mem, fun found => ?_⟩
  obtain ⟨before, after, split, -⟩ := List.lookup_eq_some_iff.mp found
  rw [split]
  exact List.mem_append_right _ List.mem_cons_self

theorem mem_keys (d : Dict β) (key : String) : key ∈ d.keys ↔ ∃ value, d.get? key = some value := by
  simp [keys, mem_entries]

theorem get?_eq_none (outside : key ∉ d.keys) : d.get? key = none := by
  unfold get?
  rw [List.lookup_eq_none_iff]
  intro entry member
  exact bne_iff_ne.mpr fun same => outside (List.mem_map.mpr ⟨entry, member, same.symm⟩)

theorem nodup_keys (d : Dict β) : d.keys.Nodup := by
  refine (List.pairwise_map.mpr d.ascending).imp ?_
  rintro a _ less rfl
  exact String.lt_irrefl a less

theorem nodup_entries (d : Dict β) : d.entries.Nodup :=
  d.nodup_keys.of_map _

theorem ext_get? (same : ∀ key, d.get? key = d'.get? key) : d = d' := by
  have members : ∀ entry, entry ∈ d.entries ↔ entry ∈ d'.entries := by
    rintro ⟨key, value⟩
    rw [mem_entries, mem_entries, same]
  have perm : d.entries.Perm d'.entries :=
    (List.perm_ext_iff_of_nodup d.nodup_entries d'.nodup_entries).mpr members
  have entries : d.entries = d'.entries :=
    perm.eq_of_pairwise (fun a b _ _ less more => absurd (String.lt_trans less more)
      (String.lt_irrefl _)) d.ascending d'.ascending
  obtain ⟨_, ascending⟩ := d
  cases entries
  rfl

end SandboxBridge.Dict

import SandboxBridge.Proofs.Dict
import SandboxBridge.Registry

/-!
Registries by what they find under each pair of names. A registry is what has been registered last
under each pair, whatever the order; a builder makes one exactly if no pair comes twice.
-/

namespace SandboxBridge

variable {α : Type}

def pairOf (addition : String × String × α) : String × String :=
  (addition.1, addition.2.1)

theorem mem_pairs {additions : List (String × String × α)} {module function : String} :
    (module, function) ∈ additions.map pairOf ↔ ∃ entry, (module, function, entry) ∈ additions := by
  simp [pairOf]

namespace Registry

variable {r r' : Registry α} {module function : String} {entry : α}
  {additions : List (String × String × α)}

theorem find?_empty (module function : String) :
    (empty : Registry α).find? module function = none :=
  rfl

theorem find?_register (r : Registry α) (module function : String) (entry : α)
    (module' function' : String) :
    (r.register module function entry).find? module' function' =
      if (module', function') = (module, function) then some entry
      else r.find? module' function' := by
  unfold find? register
  rw [Dict.get?_insert]
  by_cases home : module' = module
  · subst home
    rw [if_pos rfl, Option.bind_some, Dict.get?_insert]
    by_cases same : function' = function
    · rw [if_pos same, if_pos (by rw [same])]
    · rw [if_neg same, if_neg (by simp [same])]
      cases r.modules.get? module' with
      | none => exact Dict.get?_empty function'
      | some functions => rfl
  · rw [if_neg home, if_neg (by simp [home])]

theorem find?_registerEach_of_notMem (outside : (module, function) ∉ additions.map pairOf) :
    (r.registerEach additions).find? module function = r.find? module function := by
  induction additions generalizing r with
  | nil => rfl
  | cons first rest ih =>
    rw [List.map_cons, List.mem_cons, not_or] at outside
    exact (ih outside.2).trans ((find?_register ..).trans (if_neg outside.1))

theorem find?_registerEach (member : (module, function, entry) ∈ additions)
    (only : ∀ other, (module, function, other) ∈ additions → other = entry) :
    (r.registerEach additions).find? module function = some entry := by
  induction additions generalizing r with
  | nil => cases member
  | cons first rest ih =>
    obtain ⟨module', function', entry'⟩ := first
    change ((r.register module' function' entry').registerEach rest).find? module function = _
    by_cases later : (module, function) ∈ rest.map pairOf
    · obtain ⟨other, again⟩ := mem_pairs.mp later
      cases only other (List.mem_cons_of_mem _ again)
      exact ih again fun other again => only other (List.mem_cons_of_mem _ again)
    · rw [find?_registerEach_of_notMem later, find?_register]
      rcases List.mem_cons.mp member with same | member
      · cases same
        rw [if_pos rfl]
      · exact absurd (mem_pairs.mpr ⟨entry, member⟩) later

theorem find?_registerEach_of_nodup (nodup : (additions.map pairOf).Nodup)
    (member : (module, function, entry) ∈ additions) :
    (r.registerEach additions).find? module function = some entry := by
  refine find?_registerEach member fun other again => ?_
  cases List.inj_on_of_nodup_map nodup again member rfl
  rfl

/-- No module has been entered without a function. -/
def Filled (r : Registry α) : Prop :=
  ∀ module functions, r.modules.get? module = some functions →
    ∃ function entry, functions.get? function = some entry

theorem filled_empty : (empty : Registry α).Filled := by
  intro module functions found
  cases found

theorem Filled.register (filled : r.Filled) (module function : String) (entry : α) :
    (r.register module function entry).Filled := by
  intro module' functions found
  unfold Registry.register at found
  rw [Dict.get?_insert] at found
  split at found
  next =>
    cases found
    exact ⟨function, entry, by rw [Dict.get?_insert, if_pos rfl]⟩
  next => exact filled module' functions found

theorem Filled.registerEach (filled : r.Filled) (additions : List (String × String × α)) :
    (r.registerEach additions).Filled := by
  induction additions generalizing r with
  | nil => exact filled
  | cons first rest ih => exact ih (filled.register _ _ _)

theorem logging_registerEach (r : Registry α) (additions : List (String × String × α)) :
    (r.registerEach additions).logging = r.logging := by
  induction additions generalizing r with
  | nil => rfl
  | cons first rest ih => exact ih (r.register ..)

theorem Filled.get?_of_find? (filled : r.Filled)
    (same : ∀ module function, r.find? module function = r'.find? module function)
    {functions : Dict α} (found : r.modules.get? module = some functions) :
    r'.modules.get? module = some functions := by
  obtain ⟨function, entry, member⟩ := filled module functions found
  have finds : r'.find? module function = some entry := by
    rw [← same, find?, found, Option.bind_some, member]
  cases found' : r'.modules.get? module with
  | none =>
    rw [find?, found', Option.bind_none] at finds
    cases finds
  | some functions' =>
    refine congrArg some (Dict.ext_get? fun name => ?_)
    have alike := same module name
    rw [find?, find?, found, found'] at alike
    exact alike.symm

/-- Apart from the logging slot, a registry is what it finds. -/
theorem ext_find? (filled : r.Filled) (filled' : r'.Filled) (slot : r.logging = r'.logging)
    (same : ∀ module function, r.find? module function = r'.find? module function) : r = r' := by
  have modules : r.modules = r'.modules := by
    refine Dict.ext_get? fun module => ?_
    cases found : r.modules.get? module with
    | some functions => exact (filled.get?_of_find? same found).symm
    | none =>
      cases found' : r'.modules.get? module with
      | none => rfl
      | some functions' =>
        have there := filled'.get?_of_find? (fun m f => (same m f).symm) found'
        rw [found] at there
        cases there
  cases r
  cases r'
  cases slot
  cases modules
  rfl

theorem mem_functions (r : Registry α) (module function : String) :
    function ∈ r.functions module ↔ ∃ entry, r.find? module function = some entry := by
  rw [functions, Dict.mem_keys, find?]
  cases r.modules.get? module with
  | none => exact Iff.rfl
  | some functions => exact Iff.rfl

theorem mem_entries (r : Registry α) (module function : String) (entry : α) :
    (module, function, entry) ∈ r.entries ↔ r.find? module function = some entry := by
  rw [entries, find?, Option.bind_eq_some_iff, List.mem_flatMap]
  constructor
  · rintro ⟨⟨name, functions⟩, member, inside⟩
    obtain ⟨⟨name', entry'⟩, member', ⟨⟩⟩ := List.mem_map.mp inside
    exact ⟨functions, Dict.get?_of_mem member, Dict.get?_of_mem member'⟩
  · rintro ⟨functions, found, found'⟩
    exact ⟨(module, functions), (Dict.mem_entries ..).mpr found,
      List.mem_map.mpr ⟨(function, entry), (Dict.mem_entries ..).mpr found', rfl⟩⟩

theorem find?_clone (r : Registry α) (module function : String) :
    r.clone.find? module function = r.find? module function := by
  cases found : r.find? module function with
  | some entry =>
    refine find?_registerEach ((mem_entries ..).mpr found) fun other member => ?_
    have found' := (mem_entries ..).mp member
    rw [found] at found'
    exact (Option.some.inj found').symm
  | none =>
    refine (find?_registerEach_of_notMem fun member => ?_).trans (find?_empty ..)
    obtain ⟨entry, member⟩ := mem_pairs.mp member
    have found' := (mem_entries ..).mp member
    rw [found] at found'
    cases found'

theorem clone_eq (filled : r.Filled) (slot : r.logging = none) : r.clone = r :=
  ext_find? (filled_empty.registerEach _) filled ((logging_registerEach ..).trans slot.symm)
    r.find?_clone

theorem registerEach_perm {others : List (String × String × α)} (filled : r.Filled)
    (perm : others.Perm additions) (nodup : (additions.map pairOf).Nodup) :
    r.registerEach others = r.registerEach additions := by
  have nodup' : (others.map pairOf).Nodup := (perm.map pairOf).nodup_iff.mpr nodup
  refine ext_find? (filled.registerEach _) (filled.registerEach _) ?_ fun module function => ?_
  · rw [logging_registerEach, logging_registerEach]
  · by_cases inside : (module, function) ∈ additions.map pairOf
    · obtain ⟨entry, member⟩ := mem_pairs.mp inside
      rw [find?_registerEach_of_nodup nodup member,
        find?_registerEach_of_nodup nodup' (perm.mem_iff.mpr member)]
    · have outside : (module, function) ∉ others.map pairOf := by
        rwa [(perm.map pairOf).mem_iff]
      rw [find?_registerEach_of_notMem inside, find?_registerEach_of_notMem outside]

end Registry

namespace RegistryBuilder

variable {r : Registry α} {additions : List (String × String × α)}

def Fresh (r : Registry α) (additions : List (String × String × α)) : Prop :=
  ∀ module function, (module, function) ∈ additions.map pairOf → r.find? module function = none

theorem registerAll_ok (nodup : (additions.map pairOf).Nodup) (fresh : Fresh r additions) :
    registerAll r additions = .ok (r.registerEach additions) := by
  induction additions generalizing r with
  | nil => rfl
  | cons first rest ih =>
    obtain ⟨module, function, entry⟩ := first
    obtain ⟨apart, nodup⟩ := List.nodup_cons.mp nodup
    have absent : r.find? module function = none := fresh module function List.mem_cons_self
    rw [registerAll, Registry.contains, absent]
    refine ih nodup fun module' function' member => ?_
    have different : (module', function') ≠ (module, function) := by
      rintro ⟨⟩
      exact apart member
    rw [Registry.find?_register, if_neg different]
    exact fresh module' function' (List.mem_cons_of_mem _ member)

theorem registerAll_error (clash : ¬((additions.map pairOf).Nodup ∧ Fresh r additions)) :
    registerAll r additions = .error .importedTwice := by
  induction additions generalizing r with
  | nil => exact absurd ⟨List.nodup_nil, nofun⟩ clash
  | cons first rest ih =>
    obtain ⟨module, function, entry⟩ := first
    rw [registerAll, Registry.contains]
    cases found : r.find? module function with
    | some _ => rfl
    | none =>
      refine ih fun ⟨nodup, fresh⟩ => clash ⟨List.nodup_cons.mpr ⟨fun member => ?_, nodup⟩, ?_⟩
      · have again := fresh module function member
        rw [Registry.find?_register, if_pos rfl] at again
        cases again
      · intro module' function' member
        rcases List.mem_cons.mp member with same | member
        · cases same
          exact found
        · have absent := fresh module' function' member
          rw [Registry.find?_register] at absent
          split at absent
          next => cases absent
          next => exact absent

end RegistryBuilder

end SandboxBridge

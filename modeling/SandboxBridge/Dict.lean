/-!
Finite maps from text to values, kept as entries in ascending order of their keys. `get?_insert` and
`get?_erase` say what the two operations do to every key.
-/

namespace SandboxBridge

structure Dict (β : Type) where
  entries : List (String × β)
  ascending : entries.Pairwise fun a b => a.1 < b.1

namespace Dict

variable {β : Type}

def empty : Dict β :=
  ⟨[], .nil⟩

instance : EmptyCollection (Dict β) := ⟨empty⟩
instance : Inhabited (Dict β) := ⟨empty⟩

def insertEntry (key : String) (value : β) : List (String × β) → List (String × β)
  | [] => [(key, value)]
  | (k, v) :: rest =>
    if key < k then (key, value) :: (k, v) :: rest
    else if key = k then (key, value) :: rest
    else (k, v) :: insertEntry key value rest

theorem mem_insertEntry {key : String} {value : β} {entries : List (String × β)}
    {entry : String × β} (member : entry ∈ insertEntry key value entries) :
    entry = (key, value) ∨ entry ∈ entries := by
  induction entries with
  | nil => simpa [insertEntry] using member
  | cons first rest ih =>
    obtain ⟨k, v⟩ := first
    unfold insertEntry at member
    split at member
    · simpa using member
    · split at member
      · rcases List.mem_cons.1 member with rfl | later
        · exact .inl rfl
        · exact .inr (List.mem_cons_of_mem _ later)
      · rcases List.mem_cons.1 member with rfl | later
        · exact .inr List.mem_cons_self
        · rcases ih later with same | old
          · exact .inl same
          · exact .inr (List.mem_cons_of_mem _ old)

theorem lt_of_not_lt_of_ne {a b : String} (notLess : ¬ a < b) (different : a ≠ b) :
    b < a := by
  rcases Decidable.em (b < a) with less | notGreater
  · exact less
  · exact absurd (String.le_antisymm notGreater notLess) different

theorem ascending_insertEntry (key : String) (value : β) {entries : List (String × β)}
    (ascending : entries.Pairwise fun a b => a.1 < b.1) :
    (insertEntry key value entries).Pairwise fun a b => a.1 < b.1 := by
  induction entries with
  | nil => simp [insertEntry]
  | cons first rest ih =>
    obtain ⟨k, v⟩ := first
    obtain ⟨above, later⟩ := List.pairwise_cons.1 ascending
    unfold insertEntry
    split
    next less =>
      refine List.pairwise_cons.2 ⟨?_, ascending⟩
      intro entry member
      rcases List.mem_cons.1 member with rfl | old
      · exact less
      · exact String.lt_trans less (above entry old)
    next notLess =>
      split
      next same =>
        subst same
        exact List.pairwise_cons.2 ⟨above, later⟩
      next different =>
        refine List.pairwise_cons.2 ⟨?_, ih later⟩
        intro entry member
        rcases mem_insertEntry member with rfl | old
        · exact lt_of_not_lt_of_ne notLess different
        · exact above entry old

def insert (d : Dict β) (key : String) (value : β) : Dict β :=
  ⟨insertEntry key value d.entries, ascending_insertEntry key value d.ascending⟩

def erase (d : Dict β) (key : String) : Dict β :=
  ⟨d.entries.filter (·.1 ≠ key), d.ascending.filter _⟩

def get? (d : Dict β) (key : String) : Option β :=
  d.entries.lookup key

def contains (d : Dict β) (key : String) : Bool :=
  (d.get? key).isSome

/-- In ascending order. -/
def keys (d : Dict β) : List String :=
  d.entries.map (·.1)

def size (d : Dict β) : Nat :=
  d.entries.length

/-- Later entries of the list win. -/
def ofList (entries : List (String × β)) : Dict β :=
  entries.foldl (fun d entry => d.insert entry.1 entry.2) empty

theorem lookup_cons (key other : String) (value : β) (rest : List (String × β)) :
    ((key, value) :: rest).lookup other =
      if other = key then some value else rest.lookup other := by
  by_cases same : other = key
  · simp [same]
  · have differ : (other == key) = false := beq_eq_false_iff_ne.2 same
    simp [List.lookup_cons, differ, same]

theorem lookup_insertEntry (key other : String) (value : β) (entries : List (String × β)) :
    (insertEntry key value entries).lookup other =
      if other = key then some value else entries.lookup other := by
  induction entries with
  | nil => simp [insertEntry, lookup_cons]
  | cons first rest ih =>
    obtain ⟨k, v⟩ := first
    unfold insertEntry
    split
    · simp [lookup_cons]
    · split
      next same =>
        subst same
        by_cases here : other = key <;> simp [lookup_cons, here]
      next different =>
        by_cases here : other = k
        · subst here
          simp [Ne.symm different]
        · simp [lookup_cons, here, ih]

theorem get?_insert (d : Dict β) (key other : String) (value : β) :
    (d.insert key value).get? other = if other = key then some value else d.get? other :=
  lookup_insertEntry key other value d.entries

theorem lookup_filter_ne (key other : String) (entries : List (String × β)) :
    (entries.filter (·.1 ≠ key)).lookup other =
      if other = key then none else entries.lookup other := by
  induction entries with
  | nil => simp
  | cons first rest ih =>
    obtain ⟨k, v⟩ := first
    by_cases gone : k = key
    · subst gone
      rw [List.filter_cons_of_neg (by simp), ih, lookup_cons]
      by_cases same : other = k <;> simp [same]
    · rw [List.filter_cons_of_pos (by simp [gone]), lookup_cons, lookup_cons, ih]
      by_cases here : other = k
      · subst here
        simp [gone]
      · simp [here]

theorem get?_erase (d : Dict β) (key other : String) :
    (d.erase key).get? other = if other = key then none else d.get? other :=
  lookup_filter_ne key other d.entries

@[simp]
theorem get?_empty (key : String) : (empty : Dict β).get? key = none :=
  rfl

end Dict

end SandboxBridge

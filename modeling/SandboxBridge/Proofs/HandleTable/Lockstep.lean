import SandboxBridge.Proofs.HandleTable.FreeList

/-!
Runs of a handle table. Whatever is done to a table and to the store that it stands for, with
handles that are live, released or made up, the two answer alike and go on standing for each other.
-/

namespace SandboxBridge.HandleTable

inductive Operation where
  | allocate (value : Value)
  | get (h : Handle)
  | take (h : Handle)
  | release (h : Handle)
  | duplicate (h : Handle)
  | reset

inductive Answer where
  | handle (h : Handle)
  | value (value : Value)
  | done

abbrev Outcome :=
  Except Error Answer

/-- An operation that fails leaves things as they were. -/
def settled {α τ : Type} (before : τ) (answer : α → Answer) : Except Error (α × τ) → Outcome × τ
  | .ok (result, after) => (.ok (answer result), after)
  | .error e => (.error e, before)

namespace Operation

def onTable (t : HandleTable) : Operation → Outcome × HandleTable
  | .allocate value => settled t .handle (t.allocate value)
  | .get h => ((t.get h).map .value, t)
  | .take h => settled t .value (t.take h)
  | .release h => settled t (fun () => .done) ((t.release h).map ((), ·))
  | .duplicate h => settled t .handle (t.duplicate h)
  | .reset => (.ok .done, t.reset)

def onStore (s : HandleStore) : Operation → Outcome × HandleStore
  | .allocate value => settled s .handle (s.allocate value)
  | .get h => ((s.get h).map .value, s)
  | .take h => settled s .value (s.take h)
  | .release h => settled s (fun () => .done) ((s.release h).map ((), ·))
  | .duplicate h => settled s .handle (s.duplicate h)
  | .reset => (.ok .done, s.reset)

def run {τ : Type} (perform : τ → Operation → Outcome × τ) (before : τ) :
    List Operation → List Outcome × τ
  | [] => ([], before)
  | operation :: rest =>
    let (outcome, after) := perform before operation
    let (outcomes, last) := run perform after rest
    (outcome :: outcomes, last)

end Operation

variable {t : HandleTable} {s : HandleStore}

/-- Both fail alike, or both succeed with one result and still stand for each other. -/
inductive Agree {α : Type} : Except Error (α × HandleTable) → Except Error (α × HandleStore) → Prop
  | failed (e : Error) : Agree (.error e) (.error e)
  | stood (result : α) {t : HandleTable} {s : HandleStore} (stands : t.Represents s) :
    Agree (.ok (result, t)) (.ok (result, s))

theorem Agree.forget {α : Type} {onTable : Except Error (α × HandleTable)}
    {onStore : Except Error (α × HandleStore)} (agree : Agree onTable onStore) :
    Agree ((onTable.map (·.2)).map ((), ·)) ((onStore.map (·.2)).map ((), ·)) := by
  cases agree with
  | failed e => exact .failed e
  | stood result stands => exact .stood () stands

theorem Agree.settled {α : Type} {onTable : Except Error (α × HandleTable)}
    {onStore : Except Error (α × HandleStore)} (agree : Agree onTable onStore)
    (stands : t.Represents s) (answer : α → Answer) :
    (settled t answer onTable).1 = (settled s answer onStore).1 ∧
      (settled t answer onTable).2.Represents (settled s answer onStore).2 := by
  cases agree with
  | failed e => exact ⟨rfl, stands⟩
  | stood result after => exact ⟨rfl, after⟩

namespace Represents

theorem isFullAt_eq (stands : t.Represents s) (index : Nat) :
    t.isFullAt index = s.limit.any (· ≤ index) := by
  unfold isFullAt
  rw [stands.limit_eq]
  cases s.limit <;> rfl

theorem next_eq (stands : t.Represents s) :
    t.next = if s.freed = [] ∧ s.limit.any (· ≤ s.size) then .error .tableFull
      else .ok (s.freed.headD ⟨s.size⟩) := by
  unfold next
  cases stack : s.freed with
  | nil =>
    have last := (stands.occupy_unused stack .undefined).1
    simp only [last, ↓reduceIte, stands.isFullAt_eq, stands.size_eq, true_and, List.headD_nil]
  | cons h rest =>
    have head := (stands.occupy_freed stack .undefined).1
    obtain ⟨next, link⟩ := (stands.mem_freed_iff h).mp (by simp [stack])
    have within : h.index < t.slots.size := (Array.getElem?_eq_some_iff.mp link).1
    simp [head, Nat.ne_of_lt within, link]

theorem allocate_agree (stands : t.Represents s) (value : Value) :
    Agree (t.allocate value) (s.allocate value) := by
  unfold allocate HandleStore.allocate
  rw [stands.next_eq]
  cases stack : s.freed with
  | nil =>
    have after := (stands.occupy_unused stack value).2
    by_cases full : s.limit.any (· ≤ s.size)
    · simp only [full, and_self, ↓reduceIte]
      exact .failed _
    · simp only [full, and_false, Bool.false_eq_true, ↓reduceIte]
      exact .stood _ (stack ▸ after)
  | cons h rest =>
    have after := (stands.occupy_freed stack value).2
    simp only [List.cons_ne_nil, false_and, ↓reduceIte]
    exact .stood h after

theorem take_agree (stands : t.Represents s) (h : Handle) : Agree (t.take h) (s.take h) := by
  unfold take
  rw [stands.claim_eq]
  unfold HandleStore.take
  cases found : s.value? h with
  | none => exact .failed _
  | some value =>
    by_cases low : h.isReserved
    · simp only [low, ↓reduceIte]
      refine .stood value ?_
      simpa [HandleTable.vacate, low] using stands
    · simp only [low, Bool.false_eq_true, ↓reduceIte]
      have high : Handle.reserved ≤ h.index := by simpa [Handle.isReserved] using low
      have live : h ∈ s.values := by
        simp only [HandleStore.value?, low, Bool.false_eq_true, ↓reduceIte] at found
        exact Finmap.mem_of_lookup_eq_some found
      exact .stood value (stands.vacate high live)

theorem duplicate_agree (stands : t.Represents s) (h : Handle) :
    Agree (t.duplicate h) (s.duplicate h) := by
  unfold duplicate HandleStore.duplicate
  rw [stands.get_eq]
  cases s.get h with
  | error e => exact .failed e
  | ok value => exact stands.allocate_agree value

theorem release_agree (stands : t.Represents s) (h : Handle) :
    Agree ((t.release h).map ((), ·)) ((s.release h).map ((), ·)) :=
  (stands.take_agree h).forget

theorem reset (stands : t.Represents s) : t.reset.Represents s.reset := by
  unfold HandleTable.reset HandleStore.reset
  rw [stands.limit_eq]
  exact represents_empty s.limit

end Represents

/-- One operation on both: the same outcome, and they go on standing for each other. -/
theorem Represents.operation (stands : t.Represents s) (operation : Operation) :
    (operation.onTable t).1 = (operation.onStore s).1 ∧
      (operation.onTable t).2.Represents (operation.onStore s).2 := by
  cases operation with
  | allocate value => exact (stands.allocate_agree value).settled stands .handle
  | get h => exact ⟨by simp only [Operation.onTable, Operation.onStore, stands.get_eq], stands⟩
  | take h => exact (stands.take_agree h).settled stands .value
  | release h => exact (stands.release_agree h).settled stands fun () => .done
  | duplicate h => exact (stands.duplicate_agree h).settled stands .handle
  | reset => exact ⟨rfl, stands.reset⟩

theorem Represents.run (stands : t.Represents s) (operations : List Operation) :
    (Operation.run Operation.onTable t operations).1 =
        (Operation.run Operation.onStore s operations).1 ∧
      (Operation.run Operation.onTable t operations).2.Represents
        (Operation.run Operation.onStore s operations).2 := by
  induction operations generalizing t s with
  | nil => exact ⟨rfl, stands⟩
  | cons operation rest ih =>
    obtain ⟨outcome, after⟩ := stands.operation operation
    obtain ⟨outcomes, last⟩ := ih after
    exact ⟨congrArg₂ List.cons outcome outcomes, last⟩

/-- How a table keeps step with a store, and what its operations therefore do. -/
structure InStep (limit : Option Nat) (t : HandleTable) (s : HandleStore) : Prop where
  /-- The free list visits the released handles in the order of the stack and then ends. -/
  threads : Threads t.slots t.nextFree s.freed
  nodup : s.freed.Nodup
  mem_freed_iff : ∀ h, h ∈ s.freed ↔ ∃ next, t.slots[h.index]? = some (.free next)
  freeHandles_eq : t.freeHandles = s.freed
  nextFree_eq_size_iff : t.nextFree = t.size ↔ s.freed = []
  live_eq : t.live = s.values.keys.card
  size_eq : t.size = Handle.reserved + t.live + s.freed.length
  unreserved : ∀ h ∈ s.values, Handle.reserved ≤ h.index
  get_ok_iff : ∀ h, Handle.reserved ≤ h.index →
    ∀ value, t.get h = .ok value ↔ s.values.lookup h = some value
  take_ok_iff : ∀ h, Handle.reserved ≤ h.index → ∀ value,
    (∃ after, t.take h = .ok (value, after)) ↔ s.values.lookup h = some value
  /-- A released handle is refused, and so is one that was never handed out. -/
  take_refused : ∀ h, Handle.reserved ≤ h.index → h ∉ s.values →
    let refusal : Error := if h ∈ s.freed then .releasedTwice else .handleOutOfRange
    t.take h = .error refusal ∧ t.release h = .error refusal
  get_refused : ∀ h, Handle.reserved ≤ h.index → h ∉ s.values →
    t.get h = .error (if h ∈ s.freed then .handleReleased else .handleOutOfRange)
  permanent : ∀ h, h.isReserved → ∃ value, HandleStore.permanent[h.index]? = some value ∧
    t.get h = .ok value ∧ t.take h = .ok (value, t) ∧ t.release h = .ok t
  /-- A fresh handle is the top of the stack or, with nothing on the stack, the next number. -/
  allocate_ok : ∀ value h after, t.allocate value = .ok (h, after) →
    h = s.freed.headD ⟨t.size⟩ ∧ t.isLive h = false ∧ after.get h = .ok value
  allocate_error_iff : ∀ value e, t.allocate value = .error e ↔
    e = .tableFull ∧ s.freed = [] ∧ ∃ most, limit = some most ∧ most ≤ t.size

namespace Represents

theorem value?_of_unreserved (h : Handle) (high : Handle.reserved ≤ h.index) :
    s.value? h = s.values.lookup h := by
  simp [HandleStore.value?, Handle.isReserved, Nat.not_lt.mpr high]

theorem freeHandles_eq (stands : t.Represents s) : t.freeHandles = s.freed := by
  apply stands.threads.freeFrom_eq
  rw [stands.size_eq, HandleStore.size]
  omega

theorem get_ok_iff (stands : t.Represents s) (h : Handle) (value : Value) :
    t.get h = .ok value ↔ s.value? h = some value := by
  rw [stands.get_eq, HandleStore.get]
  cases s.value? h <;> simp

theorem take_ok_iff (stands : t.Represents s) (h : Handle) (value : Value) :
    (∃ after, t.take h = .ok (value, after)) ↔ s.value? h = some value := by
  unfold take
  rw [stands.claim_eq, HandleStore.take]
  cases s.value? h with
  | none => simp [bind, Except.bind, Except.map]
  | some held =>
    by_cases low : h.isReserved <;> simp [low, bind, Except.bind, Except.map, pure, Except.pure]

theorem take_refused (stands : t.Represents s) {h : Handle} (absent : s.value? h = none) :
    let refusal : Error := if h ∈ s.freed then .releasedTwice else .handleOutOfRange
    t.take h = .error refusal ∧ t.release h = .error refusal := by
  intro refusal
  have refused : t.take h = .error refusal := by
    unfold take
    rw [stands.claim_eq, HandleStore.take, absent]
    rfl
  refine ⟨refused, ?_⟩
  rw [release, refused]
  rfl

theorem take_permanent (stands : t.Represents s) {h : Handle} (low : h.isReserved) :
    ∃ value, HandleStore.permanent[h.index]? = some value ∧ t.get h = .ok value ∧
      t.take h = .ok (value, t) ∧ t.release h = .ok t := by
  obtain ⟨value, slot, known⟩ := stands.permanent_slot (by simpa [Handle.isReserved] using low)
  have taken : t.take h = .ok (value, t) := by
    simp [take, claim, HandleTable.vacate, slot, low, bind, Except.bind, pure, Except.pure]
  exact ⟨value, known, by simp [get, slot], taken, by simp [release, taken, Except.map]⟩

theorem allocate_error_iff (stands : t.Represents s) (value : Value) (e : Error) :
    t.allocate value = .error e ↔
      e = .tableFull ∧ s.freed = [] ∧ ∃ most, s.limit = some most ∧ most ≤ s.size := by
  unfold allocate
  rw [stands.next_eq]
  have full_iff : s.limit.any (· ≤ s.size) ↔ ∃ most, s.limit = some most ∧ most ≤ s.size := by
    simp [Option.any_eq_true]
  rw [← full_iff]
  split
  next full => simp [full, eq_comm, bind, Except.bind]
  next room => simp [room, bind, Except.bind, pure, Except.pure]

theorem allocate_ok (stands : t.Represents s) {value : Value} {h : Handle} {after : HandleTable}
    (allocated : t.allocate value = .ok (h, after)) :
    h = s.freed.headD ⟨s.size⟩ ∧ t.isLive h = false ∧ after.get h = .ok value := by
  have given : h = s.freed.headD ⟨s.size⟩ ∧ after = t.occupy value := by
    unfold allocate at allocated
    rw [stands.next_eq] at allocated
    split at allocated
    next full => cases allocated
    next room =>
      cases allocated
      exact ⟨rfl, rfl⟩
  obtain ⟨rfl, rfl⟩ := given
  have high : Handle.reserved ≤ (s.freed.headD ⟨s.size⟩).index := by
    cases stack : s.freed with
    | nil => simp only [List.headD_nil, HandleStore.size]; omega
    | cons h rest => exact stands.unreserved_of_mem_freed (by simp [stack])
  refine ⟨rfl, ?_, ?_⟩
  · have absent : s.values.lookup (s.freed.headD ⟨s.size⟩) = none := by
      apply Finmap.lookup_eq_none.mpr
      cases stack : s.freed with
      | nil => exact (stands.unused (by simp [stands.size_eq])).2
      | cons h rest => exact stands.freed_has_no_value (by simp [stack])
    unfold isLive
    rw [stands.get_eq, HandleStore.get, value?_of_unreserved _ high, absent]
  · cases stack : s.freed with
    | nil =>
      have stands := (stands.occupy_unused stack value).2
      rw [stack, List.headD_nil] at high
      rw [List.headD_nil, stands.get_ok_iff, value?_of_unreserved _ high, Finmap.lookup_insert]
    | cons h rest =>
      have stands := (stands.occupy_freed stack value).2
      rw [stack, List.headD_cons] at high
      rw [List.headD_cons, stands.get_ok_iff, value?_of_unreserved _ high, Finmap.lookup_insert]

theorem inStep (stands : t.Represents s) : InStep s.limit t s where
  threads := stands.threads
  nodup := stands.nodup
  mem_freed_iff := stands.mem_freed_iff
  freeHandles_eq := stands.freeHandles_eq
  nextFree_eq_size_iff := stands.threads.index_eq_size_iff
  live_eq := stands.live_eq
  size_eq := by rw [size, stands.size_eq, stands.live_eq, HandleStore.size]
  unreserved := stands.unreserved
  get_ok_iff := by
    intro h high value
    rw [stands.get_ok_iff, value?_of_unreserved h high]
  take_ok_iff := by
    intro h high value
    rw [stands.take_ok_iff, value?_of_unreserved h high]
  take_refused := by
    intro h high absent
    apply stands.take_refused
    rw [value?_of_unreserved h high, Finmap.lookup_eq_none.mpr absent]
  get_refused := by
    intro h high absent
    rw [stands.get_eq, HandleStore.get, value?_of_unreserved h high,
      Finmap.lookup_eq_none.mpr absent, HandleStore.refusal]
  permanent := by
    intro h low
    exact stands.take_permanent low
  allocate_ok := by
    intro value h after allocated
    rw [size, stands.size_eq]
    exact stands.allocate_ok allocated
  allocate_error_iff := by
    intro value e
    rw [size, stands.size_eq]
    exact stands.allocate_error_iff value e

end Represents

/-! The bound never changes. -/

theorem limit_settled {α : Type} (answer : α → Answer) {onStore : Except Error (α × HandleStore)}
    (kept : ∀ result after, onStore = .ok (result, after) → after.limit = s.limit) :
    (settled s answer onStore).2.limit = s.limit := by
  cases onStore with
  | error e => rfl
  | ok done => exact kept done.1 done.2 rfl

theorem limit_allocate {value : Value} {h : Handle} {after : HandleStore}
    (allocated : s.allocate value = .ok (h, after)) : after.limit = s.limit := by
  unfold HandleStore.allocate at allocated
  split at allocated
  next => cases allocated; rfl
  next =>
    split at allocated
    next => cases allocated
    next => cases allocated; rfl

theorem limit_take {value : Value} {h : Handle} {after : HandleStore}
    (taken : s.take h = .ok (value, after)) : after.limit = s.limit := by
  unfold HandleStore.take at taken
  split at taken
  next =>
    split at taken
    next => cases taken; rfl
    next => cases taken; rfl
  next => cases taken

theorem limit_onStore (operation : Operation) : (operation.onStore s).2.limit = s.limit := by
  cases operation with
  | allocate value => exact limit_settled _ fun _ _ => limit_allocate
  | get h => rfl
  | take h => exact limit_settled _ fun _ _ => limit_take
  | release h =>
    apply limit_settled
    intro _ after released
    unfold HandleStore.release at released
    cases taken : s.take h with
    | error e => simp [taken, Except.map] at released
    | ok result =>
      simp only [taken, Except.map, Except.ok.injEq, Prod.mk.injEq, true_and] at released
      exact released ▸ limit_take taken
  | duplicate h =>
    apply limit_settled
    intro _ after duplicated
    unfold HandleStore.duplicate at duplicated
    cases got : s.get h with
    | error e => simp [got, bind, Except.bind] at duplicated
    | ok value => exact limit_allocate (by simpa [got, bind, Except.bind] using duplicated)
  | reset => rfl

theorem limit_run (operations : List Operation) :
    (Operation.run Operation.onStore s operations).2.limit = s.limit := by
  induction operations generalizing s with
  | nil => rfl
  | cons operation rest ih => exact ih.trans (limit_onStore operation)

/-- A table that starts with the permanent handles, after any operations on any handles, has
answered as the store that it stands for and keeps step with it. -/
theorem run_inStep (limit : Option Nat) (operations : List Operation) :
    (Operation.run Operation.onTable (empty limit) operations).1 =
        (Operation.run Operation.onStore (.empty limit) operations).1 ∧
      InStep limit (Operation.run Operation.onTable (empty limit) operations).2
        (Operation.run Operation.onStore (.empty limit) operations).2 := by
  obtain ⟨answers, stands⟩ := (represents_empty limit).run operations
  refine ⟨answers, ?_⟩
  have step := stands.inStep
  rwa [limit_run operations] at step

end SandboxBridge.HandleTable

import SandboxBridge.Proofs.HandleTable.Lockstep

/-!
What becomes of the handles of a table when a value is stored and when a handle is released: one
handle comes to live or goes, and every other handle stays as it was.
-/

namespace SandboxBridge.HandleTable

/-- A table that stands for some store. -/
def WellFormed (t : HandleTable) : Prop :=
  ∃ s, t.Represents s

def Full (t : HandleTable) : Prop :=
  t.freeHandles = [] ∧ ∃ most, t.limit = some most ∧ most ≤ t.size

/-- From `t` to `t'`, a fresh handle has come to denote a value. -/
structure Gains (h : Handle) (value : Value) (t t' : HandleTable) : Prop where
  unreserved : Handle.reserved ≤ h.index
  fresh : t.isLive h = false
  denotes : t'.get h = .ok value
  others : ∀ other, other ≠ h → t'.get other = t.get other
  live : t'.live = t.live + 1

structure Loses (h : Handle) (t t' : HandleTable) : Prop where
  unreserved : Handle.reserved ≤ h.index
  before : t.isLive h
  after : t'.isLive h = false
  others : ∀ other, other ≠ h → t'.get other = t.get other
  live : t.live = t'.live + 1

variable {t t' : HandleTable} {h : Handle} {value : Value}

theorem isLive_of_get (found : t.get h = .ok value) : t.isLive h := by
  rw [isLive, found]

theorem exists_of_isLive (live : t.isLive h) : ∃ value, t.get h = .ok value := by
  unfold isLive at live
  cases found : t.get h with
  | ok value => exact ⟨value, rfl⟩
  | error e =>
    rw [found] at live
    cases live

theorem index_lt_of_get (found : t.get h = .ok value) : h.index < t.size := by
  unfold get at found
  split at found
  next slot => exact (Array.getElem?_eq_some_iff.mp slot).1
  all_goals cases found

theorem get_congr (same : t'.slots[h.index]? = t.slots[h.index]?) : t'.get h = t.get h := by
  rw [get, same, get]

theorem index_ne {other : Handle} (different : other ≠ h) : other.index ≠ h.index :=
  fun same => different (by cases other; cases h; exact congrArg Handle.mk same)

theorem claim_ok_iff : t.claim h = .ok value ↔ t.get h = .ok value := by
  unfold claim get
  split <;> simp

theorem next_spec (next : t.next = .ok h) :
    t.nextFree = h.index ∧ ((∃ link, t.slots[h.index]? = some (.free link)) ∨
      t.slots[h.index]? = none ∧ h.index = t.slots.size) := by
  unfold HandleTable.next at next
  split at next
  next last =>
    split at next
    next => cases next
    next =>
      cases next
      exact ⟨rfl, .inr ⟨by simp [last], last⟩⟩
  next =>
    split at next
    next link found =>
      cases next
      exact ⟨rfl, .inl ⟨link, found⟩⟩
    next => cases next

theorem get_occupy (next : t.next = .ok h) (value : Value) :
    (t.occupy value).get h = .ok value := by
  obtain ⟨head, ⟨link, found⟩ | ⟨-, last⟩⟩ := next_spec next
  · have inside := (Array.getElem?_eq_some_iff.mp found).1
    simp only [HandleTable.occupy, get, head, found]
    simp [inside]
  · simp [HandleTable.occupy, get, head, last]

theorem isLive_next (next : t.next = .ok h) : t.isLive h = false := by
  obtain ⟨-, ⟨link, found⟩ | ⟨found, -⟩⟩ := next_spec next <;> simp [isLive, get, found]

theorem WellFormed.occupy (formed : t.WellFormed) (next : t.next = .ok h) (value : Value) :
    (t.occupy value).WellFormed ∧ t.Gains h value (t.occupy value) := by
  obtain ⟨s, stands⟩ := formed
  have agree := stands.allocate_agree value
  have allocated : t.allocate value = .ok (h, t.occupy value) := by
    rw [allocate, next]
    rfl
  rw [allocated] at agree
  generalize s.allocate value = stored at agree
  cases agree with
  | stood _ after =>
    refine ⟨⟨_, after⟩, ?_, isLive_next next, (stands.allocate_ok allocated).2.2, ?_, ?_⟩
    · by_contra low
      obtain ⟨held, slot, -⟩ := stands.permanent_slot (Nat.lt_of_not_le low)
      obtain ⟨-, ⟨link, found⟩ | ⟨found, -⟩⟩ := next_spec next <;> simp [slot] at found
    · intro other different
      apply get_congr
      have apart := index_ne different
      obtain ⟨head, ⟨link, found⟩ | ⟨found, last⟩⟩ := next_spec next
      · simp [HandleTable.occupy, head, found, Ne.symm apart]
      · rw [last] at apart
        simp [HandleTable.occupy, head, found, Array.getElem?_push, apart]
    · obtain ⟨head, ⟨link, found⟩ | ⟨found, -⟩⟩ := next_spec next <;>
        simp [HandleTable.occupy, head, found]

theorem WellFormed.next_error_iff (formed : t.WellFormed) (e : Error) :
    t.next = .error e ↔ e = .tableFull ∧ t.Full := by
  obtain ⟨s, stands⟩ := formed
  have refused := stands.allocate_error_iff .undefined e
  rw [← stands.freeHandles_eq, ← stands.size_eq, ← stands.limit_eq] at refused
  refine Iff.trans ?_ refused
  rw [allocate]
  cases t.next <;> simp [bind, Except.bind, pure, Except.pure]

theorem WellFormed.vacate (formed : t.WellFormed) (high : Handle.reserved ≤ h.index)
    (live : t.isLive h) : (t.vacate h).WellFormed ∧ t.Loses h (t.vacate h) := by
  obtain ⟨s, stands⟩ := formed
  obtain ⟨value, found⟩ := exists_of_isLive live
  have held : s.values.lookup h = some value := by
    rw [← Represents.value?_of_unreserved h high, ← stands.get_ok_iff, found]
  have member := Finmap.mem_of_lookup_eq_some held
  have after := stands.vacate high member
  have unreserved : h.isReserved = false := by simpa [Handle.isReserved] using high
  have slot := (stands.occupied_iff h high value).mpr held
  have within : h.index < t.slots.size := (Array.getElem?_eq_some_iff.mp slot).1
  refine ⟨⟨_, after⟩, high, live, ?_, ?_, ?_⟩
  · simp [isLive, get, HandleTable.vacate, unreserved, within]
  · intro other different
    apply get_congr
    simp [HandleTable.vacate, unreserved, Ne.symm (index_ne different)]
  · have positive : 0 < s.values.keys.card :=
      Finset.card_pos.mpr ⟨h, Finmap.mem_keys.mpr member⟩
    rw [← stands.live_eq] at positive
    simp only [HandleTable.vacate, unreserved, Bool.false_eq_true, ↓reduceIte]
    omega

theorem WellFormed.vacate_of_get (formed : t.WellFormed) (found : t.get h = .ok value) :
    (t.vacate h).WellFormed ∧ (h.isReserved ∧ t.vacate h = t ∨
      h.isReserved = false ∧ t.Loses h (t.vacate h)) := by
  cases low : h.isReserved with
  | true =>
    have same : t.vacate h = t := by rw [HandleTable.vacate, if_pos low]
    exact ⟨by rwa [same], .inl ⟨rfl, same⟩⟩
  | false =>
    have high : Handle.reserved ≤ h.index := by simpa [Handle.isReserved] using low
    obtain ⟨after, loses⟩ := formed.vacate high (isLive_of_get found)
    exact ⟨after, .inr ⟨rfl, loses⟩⟩

theorem wellFormed_empty (limit : Option Nat) : (empty limit).WellFormed :=
  ⟨_, represents_empty limit⟩

theorem wellFormed_reset (t : HandleTable) : t.reset.WellFormed :=
  wellFormed_empty t.limit

/-! Several handles. -/

/-- From `t` to `t'`, some handles have been consumed and superseded, and others have been created
and parked. -/
structure Balance (consumed superseded created parked : Option Handle) (t t' : HandleTable) :
    Prop where
  live_iff : ∀ h, t'.isLive h ↔
    (t.isLive h ∧ consumed ≠ some h ∧ superseded ≠ some h) ∨ created = some h ∨ parked = some h
  fresh : ∀ h, created = some h ∨ parked = some h → t.isLive h = false
  same : ∀ h value, t.get h = .ok value → t'.isLive h → t'.get h = .ok value

variable {t₁ : HandleTable}

theorem isLive_congr (same : t'.get h = t.get h) : t'.isLive h = t.isLive h := by
  rw [isLive, same, isLive]

theorem balance_refl (t : HandleTable) : t.Balance none none none none t where
  live_iff h := by simp
  fresh h := by simp
  same _ _ found _ := found

theorem Gains.live_iff (gains : t.Gains h value t') (other : Handle) :
    t'.isLive other ↔ t.isLive other ∨ h = other := by
  by_cases same : h = other
  · subst same
    simp [isLive_of_get gains.denotes]
  · simp [same, isLive_congr (gains.others other (Ne.symm same))]

theorem Gains.ne_of_isLive (gains : t.Gains h value t') {other : Handle} (live : t.isLive other) :
    other ≠ h := by
  rintro rfl
  rw [gains.fresh] at live
  cases live

theorem Loses.live_iff (loses : t.Loses h t') (other : Handle) :
    t'.isLive other ↔ t.isLive other ∧ h ≠ other := by
  by_cases same : h = other
  · subst same
    simp [loses.after]
  · simp [same, isLive_congr (loses.others other (Ne.symm same))]

theorem Gains.created (gains : t.Gains h value t') : t.Balance none none (some h) none t' where
  live_iff other := by simp [gains.live_iff]
  fresh other := by
    rintro (⟨⟨⟩⟩ | ⟨⟨⟩⟩)
    exact gains.fresh
  same other held found _ :=
    (gains.others other (gains.ne_of_isLive (isLive_of_get found))).trans found

theorem Gains.parked (gains : t.Gains h value t') : t.Balance none none none (some h) t' where
  live_iff other := by simp [gains.live_iff]
  fresh other := by
    rintro (⟨⟨⟩⟩ | ⟨⟨⟩⟩)
    exact gains.fresh
  same other held found _ :=
    (gains.others other (gains.ne_of_isLive (isLive_of_get found))).trans found

theorem Loses.consumed (loses : t.Loses h t') : t.Balance (some h) none none none t' where
  live_iff other := by simp [loses.live_iff]
  fresh other := by simp
  same other held found live := by
    have apart := ((loses.live_iff other).mp live).2
    exact (loses.others other apart.symm).trans found

theorem Gains.superseding (gains : t.Gains h value t₁) {old : Handle} (loses : t₁.Loses old t')
    (before : t.isLive old) : t.Balance none (some old) none (some h) t' where
  live_iff other := by
    have apart := gains.ne_of_isLive before
    simp only [loses.live_iff, gains.live_iff]
    by_cases same : h = other
    · subst same
      simp [apart]
    · simp [same]
  fresh other := by
    rintro (⟨⟨⟩⟩ | ⟨⟨⟩⟩)
    exact gains.fresh
  same other held found live := by
    have apart := ((loses.live_iff other).mp live).2
    have kept := gains.others other (gains.ne_of_isLive (isLive_of_get found))
    exact (loses.others other apart.symm).trans (kept.trans found)

end SandboxBridge.HandleTable

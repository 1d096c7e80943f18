import Mathlib.Data.Finset.Card
import SandboxBridge.Proofs.Memory.Paging

/-!
The buffers that a memory goes through as it grows, and the views over them. Growing moves the
contents to a new buffer and detaches the old one, so that a view is over the current buffer or does
not work any more; views are built anew only then.
-/

namespace SandboxBridge.Memory

open Work

namespace Access

/-- Whether an access leaves it to growth to detach buffers. -/
def isOrdinary : Access → Bool
  | .detachAt _ | .replaceBuffer _ => false
  | _ => true

/-- The buffer, kept from earlier by itself or in a view, that an access goes through. -/
def through : Access → Option Nat
  | .readAt buffer _ _ | .writeAt buffer _ _ | .copyWithinAt buffer _ _ _ | .getWordAt buffer _
  | .setWordAt buffer _ _ => some buffer
  | _ => none

def fetches : Access → Option ViewKind
  | .fetch kind => some kind
  | .writePair slot _ _ | .readPair slot => if slot % 4 = 0 then some .words else none
  | _ => none

/-- Whether an access makes the memory grow. -/
def Grows (m : Memory) : Access → Prop
  | .grow count => count ≠ 0 ∧ ∃ previous, ((Memory.grow count).run m).1 = .ok previous
  | _ => False

end Access

def after (m : Memory) : List Access → Memory
  | [] => m
  | access :: rest => (access.perform.run m).2.after rest

/-- Whether the memory grows in a series of accesses. -/
def Grows (m : Memory) : List Access → Prop
  | [] => False
  | access :: rest => access.Grows m ∨ (access.perform.run m).2.Grows rest

def fetched (m : Memory) : List Access → List (ViewKind × View)
  | [] => []
  | access :: rest =>
    (access.fetches.map fun kind => (kind, (m.view kind).1)).toList ++
      (access.perform.run m).2.fetched rest

structure Outline where
  current : Nat
  pages : Option Nat
  maxPages : Option Nat
  cached : ViewKind → Option View
  rebuilds : Nat
  detached : Nat → Bool

def outline (m : Memory) : Outline :=
  { current := m.current, pages := m.pages, maxPages := m.maxPages, cached := m.cached
    rebuilds := m.rebuilds, detached := fun buffer => (m.bufferAt buffer).detached }

variable {m m' : Memory} {kind : ViewKind} {seen : List (ViewKind × View)} {access : Access}
  {pages : Nat}

theorem keeps_modifyBuffer {f : Buffer → Buffer} (same : ∀ b, (f b).detached = b.detached)
    (buffer : Nat) : Keeps outline (modifyBuffer buffer f).run := by
  apply Keeps.of_change
  intro m
  unfold outline
  congr 1
  funext other
  simp only [bufferAt, Array.getElem?_modify]
  split
  · cases m.buffers[other]? with
    | none => rfl
    | some b => exact same b
  · rfl

instance (buffer start : Nat) (data : ByteArray) :
    Keeps outline (writeAt buffer start data).run := by
  have : Keeps outline (modifyBuffer buffer (·.overwrite start data)).run :=
    keeps_modifyBuffer (f := (·.overwrite start data)) (fun _ => rfl) buffer
  unfold writeAt
  infer_instance

instance (buffer source target length : Nat) :
    Keeps outline (copyWithinAt buffer source target length).run := by
  have : Keeps outline (modifyBuffer buffer (·.duplicate source target length)).run :=
    keeps_modifyBuffer (fun b => by rw [Buffer.duplicate, Buffer.overwrite]) buffer
  unfold copyWithinAt
  infer_instance

instance (buffer index : Nat) (word : UInt32) :
    Keeps outline (setWordAt buffer index word).run := by
  unfold setWordAt
  infer_instance

instance (start : Nat) (data : ByteArray) : Keeps outline (write start data).run := by
  unfold write
  infer_instance

instance (source target length : Nat) : Keeps outline (copyWithin source target length).run := by
  unfold copyWithin
  infer_instance

def fetching (m : Memory) : Option ViewKind → Memory
  | none => m
  | some kind => (m.view kind).2

theorem outline_of_keeps {α : Type} (work : Action α) [keeps : Keeps outline work.run]
    (m : Memory) : (work.run m).2.outline = m.outline :=
  keeps.same m

theorem outline_at_slot {α : Type} (slot : Nat) (next : Nat → View → Action α)
    [keeps : ∀ index view, Keeps outline (next index view).run] (m : Memory) :
    ((slotIndex slot >>= fun index => fetch .words >>= next index : Action α).run m).2.outline =
      (m.fetching (if slot % 4 = 0 then some .words else none)).outline := by
  rw [run_bind, run_liftExcept, slotIndex]
  by_cases aligned : slot % 4 = 0
  · simp only [aligned, ↓reduceIte]
    rw [run_fetch_bind]
    exact outline_of_keeps _ _
  · simp only [aligned, ↓reduceIte]
    rfl

theorem outline_perform (ordinary : access.isOrdinary) (idle : ¬access.Grows m) :
    (access.perform.run m).2.outline = (m.fetching access.fetches).outline := by
  cases access with
  | grow count =>
    change ((grow count).run m).2.outline = m.outline
    change ¬(count ≠ 0 ∧ ∃ previous, ((grow count).run m).1 = .ok previous) at idle
    rw [run_grow] at idle ⊢
    cases found : m.room count with
    | error e => rfl
    | ok previous =>
      rw [found] at idle
      have nothing : count = 0 := by
        by_contra more
        exact idle ⟨more, previous, rfl⟩
      dsimp only
      rw [if_pos nothing]
  | writePair slot first second =>
    exact outline_at_slot slot (fun index view => do
      setWordAt view.buffer index first
      setWordAt view.buffer (index + 1) second) m
  | readPair slot =>
    exact outline_at_slot slot (fun index view => do
      let m ← get
      return (← m.getWordAt view.buffer index, ← m.getWordAt view.buffer (index + 1))) m
  | fetch kind => rfl
  | detachAt | replaceBuffer => cases ordinary
  | _ =>
    unfold Access.perform
    exact outline_of_keeps _ _

def Outline.rebuilt (o : Outline) (kind : ViewKind) : Outline :=
  { o with
    cached := fun other => if other = kind then some ⟨o.current, o.rebuilds⟩ else o.cached other
    rebuilds := o.rebuilds + 1 }

theorem view_cases (m : Memory) (kind : ViewKind) :
    m.cached kind = some (m.view kind).1 ∧ (m.view kind).2 = m ∨
      (m.view kind).1 = ⟨m.current, m.rebuilds⟩ ∧
        (m.view kind).2.outline = m.outline.rebuilt kind := by
  have bytes : outline { m with
      rebuilds := m.rebuilds + 1, byteView := some ⟨m.current, m.rebuilds⟩ } =
      m.outline.rebuilt .bytes := by
    simp only [outline, Outline.rebuilt, Outline.mk.injEq, true_and]
    exact ⟨funext fun other => by cases other <;> rfl, rfl⟩
  have words : outline { m with
      rebuilds := m.rebuilds + 1, wordView := some ⟨m.current, m.rebuilds⟩ } =
      m.outline.rebuilt .words := by
    simp only [outline, Outline.rebuilt, Outline.mk.injEq, true_and]
    exact ⟨funext fun other => by cases other <;> rfl, rfl⟩
  unfold view
  split
  next kept found =>
    split
    next => exact .inl ⟨found, rfl⟩
    next =>
      cases kind with
      | bytes => exact .inr ⟨rfl, bytes⟩
      | words => exact .inr ⟨rfl, words⟩
  next =>
    cases kind with
    | bytes => exact .inr ⟨rfl, bytes⟩
    | words => exact .inr ⟨rfl, words⟩

theorem view_of_cached {view : View} (found : m.cached kind = some view)
    (same : view.buffer = m.current) : m.view kind = (view, m) := by
  unfold Memory.view
  rw [found]
  exact if_pos same

theorem cached_view (m : Memory) (kind : ViewKind) :
    (m.view kind).2.cached kind = some (m.view kind).1 := by
  rcases view_cases m kind with ⟨found, same⟩ | ⟨built, after⟩
  · rw [same, found]
  · have cached := congrFun (congrArg Outline.cached after) kind
    rw [built]
    exact cached.trans (if_pos rfl)

theorem current_regrown (m : Memory) (pages : Nat) :
    (m.regrown pages).current = m.buffers.size := by
  simp only [regrown, detachAt, replaceBuffer, Array.set!_eq_setIfInBounds,
    Array.size_setIfInBounds]

theorem bufferAt_regrown (m : Memory) (pages : Nat) {buffer : Nat}
    (old : buffer ≠ m.buffers.size) : (m.regrown pages).bufferAt buffer =
      if buffer = m.current then .gone else m.bufferAt buffer := by
  simp only [regrown, detachAt, replaceBuffer, bufferAt, Array.set!_eq_setIfInBounds,
    Array.getElem?_push, Array.size_setIfInBounds, old, ↓reduceIte, Array.getElem?_setIfInBounds]
  by_cases own : buffer = m.current
  · simp only [own, ↓reduceIte]
    split <;> rfl
  · simp only [own, Ne.symm own, ↓reduceIte]

/-! What holds in every series of accesses. -/

/-- Only the current buffer is attached, the cached views have been handed out, and every view that
has been handed out was built once. -/
structure Coherent (seen : List (ViewKind × View)) (o : Outline) : Prop where
  attached : o.detached o.current = false
  others : ∀ buffer, buffer ≠ o.current → o.detached buffer = true
  cached : ∀ kind view, o.cached kind = some view → (kind, view) ∈ seen
  earlier : ∀ kind view, (kind, view) ∈ seen → view.serial < o.rebuilds
  counted : o.rebuilds = seen.toFinset.card

theorem coherent_ofPages (pages : Nat) (maxPages : Option Nat) :
    Coherent [] (ofPages pages maxPages).outline where
  attached := rfl
  others buffer other := by
    have other : buffer ≠ 0 := other
    simp [outline, ofPages, bufferAt, other, Buffer.gone]
  cached kind view found := by cases kind <;> cases found
  earlier _ _ member := nomatch member
  counted := rfl

theorem Coherent.fetching (coherent : Coherent seen m.outline) (kind : Option ViewKind) :
    Coherent (seen ++ (kind.map fun kind => (kind, (m.view kind).1)).toList)
      (m.fetching kind).outline := by
  cases kind with
  | none => simpa [Memory.fetching] using coherent
  | some kind =>
    change Coherent (seen ++ [(kind, (m.view kind).1)]) (m.view kind).2.outline
    -- A cached view is one of those seen, and a view that is built now comes after all of them.
    rcases view_cases m kind with ⟨found, same⟩ | ⟨built, after⟩
    · have known := coherent.cached kind _ found
      rw [same]
      refine ⟨coherent.attached, coherent.others, ?_, ?_, ?_⟩
      · exact fun other view cached => List.mem_append_left _ (coherent.cached other view cached)
      · intro other view member
        rcases List.mem_append.mp member with member | member
        · exact coherent.earlier other view member
        · cases List.mem_singleton.mp member
          exact coherent.earlier kind _ known
      · rw [coherent.counted, List.toFinset_append, List.toFinset_cons, List.toFinset_nil,
          Finset.union_insert, Finset.union_empty, Finset.insert_eq_self.mpr]
        exact List.mem_toFinset.mpr known
    · have fresh : (kind, (m.view kind).1) ∉ seen := by
        intro member
        have before := coherent.earlier _ _ member
        rw [built] at before
        exact Nat.lt_irrefl _ before
      rw [after]
      refine ⟨coherent.attached, coherent.others, ?_, ?_, ?_⟩
      · intro other view cached
        change (if other = kind then _ else _) = some view at cached
        split at cached
        next same =>
          cases cached
          rw [same, built]
          exact List.mem_append_right _ (List.mem_singleton.mpr rfl)
        next => exact List.mem_append_left _ (coherent.cached other view cached)
      · intro other view member
        rcases List.mem_append.mp member with member | member
        · exact Nat.lt_succ_of_lt (coherent.earlier other view member)
        · cases List.mem_singleton.mp member
          rw [built]
          exact Nat.lt_succ_self _
      · rw [List.toFinset_append, List.toFinset_cons, List.toFinset_nil, Finset.union_insert,
          Finset.union_empty, Finset.card_insert_of_notMem (by simpa using fresh),
          ← coherent.counted]
        rfl

theorem Coherent.regrown (coherent : Coherent seen m.outline) (pages : Nat) :
    Coherent seen (m.regrown pages).outline where
  attached := by
    change (m.regrown pages).buffer.detached = false
    rw [buffer_regrown]
    rfl
  others buffer other := by
    have other : buffer ≠ (m.regrown pages).current := other
    rw [current_regrown] at other
    change ((m.regrown pages).bufferAt buffer).detached = true
    rw [bufferAt_regrown m pages other]
    split
    next => rfl
    next old => exact coherent.others buffer old
  cached kind view found := coherent.cached kind view (by cases kind <;> exact found)
  earlier := coherent.earlier
  counted := coherent.counted

theorem perform_of_grows (grows : access.Grows m) : ∃ count previous,
    access = .grow count ∧ count ≠ 0 ∧ m.room count = .ok previous ∧
      (access.perform.run m).2 = m.regrown (previous + count) := by
  cases access with
  | grow count =>
    obtain ⟨more, previous, succeeds⟩ := grows
    refine ⟨count, previous, rfl, more, ?_⟩
    change _ ∧ ((grow count).run m).2 = _
    rw [run_grow] at succeeds ⊢
    cases found : m.room count with
    | error e =>
      rw [found] at succeeds
      cases succeeds
    | ok before =>
      rw [found] at succeeds
      cases succeeds
      exact ⟨rfl, if_neg more⟩
  | _ => cases grows

theorem Coherent.perform (coherent : Coherent seen m.outline) (ordinary : access.isOrdinary) :
    Coherent (seen ++ (access.fetches.map fun kind => (kind, (m.view kind).1)).toList)
      (access.perform.run m).2.outline := by
  by_cases grows : access.Grows m
  · obtain ⟨count, previous, rfl, -, -, after⟩ := perform_of_grows grows
    rw [after]
    simpa [Access.fetches] using coherent.regrown (previous + count)
  · rw [outline_perform ordinary grows]
    exact coherent.fetching access.fetches

theorem cached_fetching {view : View} (found : m.cached kind = some view)
    (same : view.buffer = m.current) (fetches : Option ViewKind) :
    (m.fetching fetches).cached kind = some view := by
  cases fetches with
  | none => exact found
  | some other =>
    change (m.view other).2.cached kind = some view
    by_cases own : kind = other
    · subst own
      rw [view_of_cached found same, found]
    · rcases view_cases m other with ⟨-, unchanged⟩ | ⟨-, rebuilt⟩
      · rw [unchanged, found]
      · have cached := congrFun (congrArg Outline.cached rebuilt) kind
        exact cached.trans ((if_neg own).trans found)

/-- What stays as it is, unless the memory grows. -/
structure Stays (m m' : Memory) : Prop where
  current : m'.current = m.current
  pages : m'.pages = m.pages
  limit : m'.pageLimit = m.pageLimit
  cached : ∀ kind view, m.cached kind = some view → view.buffer = m.current →
    m'.cached kind = some view

theorem stays_perform (ordinary : access.isOrdinary) (idle : ¬access.Grows m) :
    m.Stays (access.perform.run m).2 := by
  have same := outline_perform ordinary idle
  generalize (access.perform.run m).2 = m' at same ⊢
  have fetching : (m.fetching access.fetches).current = m.current ∧
      (m.fetching access.fetches).pages = m.pages ∧
      (m.fetching access.fetches).pageLimit = m.pageLimit := by
    cases access.fetches with
    | none => exact ⟨rfl, rfl, rfl⟩
    | some kind => exact ⟨(view_buffers m kind).2, view_pages m kind, view_pageLimit m kind⟩
  obtain ⟨current, pages, limit⟩ := fetching
  refine ⟨(congrArg Outline.current same).trans current, (congrArg Outline.pages same).trans pages,
    Eq.trans (congrArg (fun o => o.maxPages.getD 65536) same) limit,
    fun kind view found fresh => ?_⟩
  exact (congrFun (congrArg Outline.cached same) kind).trans (cached_fetching found fresh _)

theorem perform_through {buffer : Nat} (through : access.through = some buffer)
    (detached : (m.bufferAt buffer).detached = true) :
    ∃ e, access.perform.run m = (.error e, m) ∧ e.category = .memory := by
  have refused (start length : Nat) :
      (m.bufferAt buffer).check start length = .error .detached := if_pos detached
  have unread (start length : Nat) : m.readAt buffer start length = .error .detached := by
    rw [readAt, Buffer.read, refused]
    rfl
  have unwritten (start : Nat) (data : ByteArray) :
      (writeAt buffer start data).run m = (.error .detached, m) := by
    unfold writeAt
    rw [run_bind, run_get]
    dsimp only
    rw [refused]
    rfl
  -- An index of words can also be too large to be looked up at all.
  cases access with
  | readAt _ start length =>
    cases through
    refine ⟨.detached, ?_, rfl⟩
    unfold Access.perform
    rw [run_bind, run_get]
    dsimp only
    rw [unread]
    rfl
  | writeAt _ start data =>
    cases through
    exact ⟨.detached, unwritten start data, rfl⟩
  | copyWithinAt _ source target length =>
    cases through
    refine ⟨.detached, ?_, rfl⟩
    unfold Access.perform copyWithinAt
    rw [run_bind, run_get]
    dsimp only
    rw [refused]
    rfl
  | getWordAt _ index =>
    cases through
    unfold Access.perform
    rw [run_bind, run_get]
    dsimp only
    rw [run_liftExcept]
    unfold getWordAt wordOffset
    by_cases narrow : index * 4 < UInt32.size
    · rw [if_pos narrow]
      refine ⟨.detached, ?_, rfl⟩
      change (m.readAt buffer (index * 4) 4 >>= fun bytes => pure (bytesWord bytes), m) = _
      rw [unread]
      rfl
    · rw [if_neg narrow]
      exact ⟨.wordIndexOutOfRange, rfl, rfl⟩
  | setWordAt _ index word =>
    cases through
    unfold Access.perform setWordAt wordOffset
    rw [run_bind, run_liftExcept]
    by_cases narrow : index * 4 < UInt32.size
    · rw [if_pos narrow]
      exact ⟨.detached, unwritten _ _, rfl⟩
    · rw [if_neg narrow]
      exact ⟨.wordIndexOutOfRange, rfl, rfl⟩
  | _ => cases through

/-! Series of accesses. -/

variable {accesses : List Access}

theorem isPaged_after (paged : m.IsPaged) (ordinary : ∀ access ∈ accesses, access.isOrdinary) :
    (m.after accesses).IsPaged := by
  induction accesses generalizing m with
  | nil => exact paged
  | cons access rest ih =>
    obtain ⟨first, others⟩ := List.forall_mem_cons.mp ordinary
    have kept : ∀ bytes, access ≠ .replaceBuffer bytes := by
      rintro bytes rfl
      cases first
    exact ih ((access.preserves kept).allowed m paged) others

theorem Coherent.after (coherent : Coherent seen m.outline)
    (ordinary : ∀ access ∈ accesses, access.isOrdinary) :
    Coherent (seen ++ m.fetched accesses) (m.after accesses).outline := by
  induction accesses generalizing m seen with
  | nil => rwa [fetched, List.append_nil]
  | cons access rest ih =>
    obtain ⟨first, others⟩ := List.forall_mem_cons.mp ordinary
    rw [fetched, ← List.append_assoc]
    exact ih (coherent.perform first) others

theorem Stays.trans {m₁ m₂ m₃ : Memory} (first : m₁.Stays m₂) (second : m₂.Stays m₃) :
    m₁.Stays m₃ where
  current := second.current.trans first.current
  pages := second.pages.trans first.pages
  limit := second.limit.trans first.limit
  cached kind view found fresh := second.cached kind view (first.cached kind view found fresh)
    (fresh.trans first.current.symm)

theorem stays_after (ordinary : ∀ access ∈ accesses, access.isOrdinary)
    (idle : ¬m.Grows accesses) : m.Stays (m.after accesses) := by
  induction accesses generalizing m with
  | nil => exact ⟨rfl, rfl, rfl, fun _ _ found _ => found⟩
  | cons access rest ih =>
    obtain ⟨first, others⟩ := List.forall_mem_cons.mp ordinary
    rw [Grows, not_or] at idle
    exact (stays_perform first idle.1).trans (ih others idle.2)

/-- A memory only grows, and moves on to buffers that were not there. -/
structure Advances (m m' : Memory) : Prop where
  current : m.current ≤ m'.current
  pages : ∀ count ∈ m.pages, ∃ more ∈ m'.pages, count ≤ more
  limit : m'.pageLimit = m.pageLimit

theorem Advances.trans {m₁ m₂ m₃ : Memory} (first : m₁.Advances m₂) (second : m₂.Advances m₃) :
    m₁.Advances m₃ where
  current := Nat.le_trans first.current second.current
  pages count counted := by
    obtain ⟨between, counted, early⟩ := first.pages count counted
    obtain ⟨more, counted, late⟩ := second.pages between counted
    exact ⟨more, counted, Nat.le_trans early late⟩
  limit := second.limit.trans first.limit

theorem Stays.advances (stays : m.Stays m') : m.Advances m' where
  current := Nat.le_of_eq stays.current.symm
  pages count counted := ⟨count, stays.pages ▸ counted, Nat.le_refl _⟩
  limit := stays.limit

theorem current_lt (coherent : Coherent seen m.outline) : m.current < m.buffers.size :=
  (Array.getElem?_eq_some_iff.mp (buffers_current coherent.attached)).1

theorem advances_perform (coherent : Coherent seen m.outline) (ordinary : access.isOrdinary) :
    m.Advances (access.perform.run m).2 := by
  by_cases grows : access.Grows m
  · obtain ⟨count, previous, -, -, found, after⟩ := perform_of_grows grows
    rw [after]
    refine ⟨?_, ?_, rfl⟩
    · rw [current_regrown]
      exact Nat.le_of_lt (current_lt coherent)
    · rw [room_ok found]
      rintro _ ⟨⟩
      exact ⟨_, rfl, Nat.le_add_right _ _⟩
  · exact (stays_perform ordinary grows).advances

theorem advances_after (coherent : Coherent seen m.outline)
    (ordinary : ∀ access ∈ accesses, access.isOrdinary) : m.Advances (m.after accesses) := by
  induction accesses generalizing m seen with
  | nil => exact ⟨Nat.le_refl _, fun count counted => ⟨count, counted, Nat.le_refl _⟩, rfl⟩
  | cons access rest ih =>
    obtain ⟨first, others⟩ := List.forall_mem_cons.mp ordinary
    exact (advances_perform coherent first).trans (ih (coherent.perform first) others)

theorem current_lt_after (coherent : Coherent seen m.outline)
    (ordinary : ∀ access ∈ accesses, access.isOrdinary) (grows : m.Grows accesses) :
    m.current < (m.after accesses).current := by
  induction accesses generalizing m seen with
  | nil => exact grows.elim
  | cons access rest ih =>
    obtain ⟨first, others⟩ := List.forall_mem_cons.mp ordinary
    have coherent' := coherent.perform first
    rcases grows with now | later
    · obtain ⟨count, previous, -, -, -, after⟩ := perform_of_grows now
      have moved : m.current < (access.perform.run m).2.current := by
        rw [after, current_regrown]
        exact current_lt coherent
      exact Nat.lt_of_lt_of_le moved (advances_after coherent' others).current
    · exact Nat.lt_of_le_of_lt (advances_perform coherent first).current (ih coherent' others later)

theorem detached_after (coherent : Coherent seen m.outline)
    (ordinary : ∀ access ∈ accesses, access.isOrdinary) (grows : m.Grows accesses) :
    ((m.after accesses).bufferAt m.current).detached = true :=
  (coherent.after ordinary).others m.current
    (Nat.ne_of_lt (current_lt_after coherent ordinary grows))

theorem view_again_iff (coherent : Coherent seen m.outline)
    (ordinary : ∀ access ∈ accesses, access.isOrdinary) (kind : ViewKind) :
    (((m.view kind).2.after accesses).view kind).1 = (m.view kind).1 ↔
      ¬(m.view kind).2.Grows accesses := by
  have coherent := coherent.fetching (some kind)
  have current : (m.view kind).1.buffer = (m.view kind).2.current := view_current m kind
  constructor
  · intro same grows
    have moved := current_lt_after coherent ordinary grows
    have later := view_buffer ((m.view kind).2.after accesses) kind
    rw [same, current] at later
    exact Nat.ne_of_lt moved later
  · intro idle
    have stays := stays_after ordinary idle
    have kept := stays.cached kind _ (cached_view m kind) current
    rw [view_of_cached kept (current.trans stays.current.symm)]

/-- A memory of `count` pages that grows up to `most` of them: by nothing, within the limit and
beyond it. -/
structure GrowsUpTo (m : Memory) (count most : Nat) : Prop where
  nothing : (grow 0).run m = (.ok count, m)
  within : ∀ more ≠ 0, count + more ≤ most → ∃ m', (grow more).run m = (.ok count, m') ∧
    m'.current ≠ m.current ∧ m'.Spans (count + more) ∧ m.Extends m'
  beyond : ∀ more ≠ 0, most < count + more →
    ∃ e, (grow more).run m = (.error e, m) ∧ e.category = .memory

theorem growsUpTo {count : Nat} (spans : m.Spans count) (narrow : m.pageLimit < UInt32.size) :
    m.GrowsUpTo count m.pageLimit where
  nothing := by
    rw [run_grow, room, spans.counted]
    rfl
  within more some_more fits := by
    have found := room_of_admits spans.counted some_more ⟨Nat.lt_of_le_of_lt fits narrow, fits⟩
    have attached := buffers_current spans.attached
    obtain ⟨spans', longer⟩ := spans.regrown (Nat.le_add_right count more)
    refine ⟨m.regrown (count + more), ?_, ?_, spans', longer⟩
    · rw [run_grow, found]
      dsimp only
      rw [if_neg some_more]
    · rw [current_regrown]
      exact Nat.ne_of_gt (Array.getElem?_eq_some_iff.mp attached).1
  beyond more some_more past := by
    rw [run_grow, room, spans.counted]
    dsimp only
    rw [if_neg some_more, if_pos past]
    by_cases wide : UInt32.size ≤ count + more
    · rw [if_pos wide]
      exact ⟨.pageCountOverflow, rfl, rfl⟩
    · rw [if_neg wide]
      exact ⟨.pastMaximum, rfl, rfl⟩

/-- A memory of pages at any two points of its use, between which growth alone detaches buffers: how
large it is and how it grows, and what becomes of its views and of whatever was kept of it. -/
theorem generations (pages : UInt32) (maxPages : Option UInt32) (early later : List Access)
    (ordinary : ∀ access ∈ early ++ later, access.isOrdinary) :
    let fresh := ofPages pages.toNat (maxPages.map UInt32.toNat)
    let m := fresh.after early
    let m' := m.after later
    (∃ count ∈ m.pages, m.size = 65536 * count ∧ (∃ more ∈ m'.pages, count ≤ more) ∧
      m.GrowsUpTo count ((maxPages.map UInt32.toNat).getD 65536)) ∧
    (∀ kind, (m.view kind).1.buffer = m.current ∧
      ((((m.view kind).2.after later).view kind).1 = (m.view kind).1 ↔
        ¬(m.view kind).2.Grows later)) ∧
    m.rebuilds = (fresh.fetched early).toFinset.card ∧
    (m.Grows later → ∀ access : Access, access.through = some m.current →
      ∃ e, access.perform.run m' = (.error e, m') ∧ e.category = .memory) := by
  intro fresh m m'
  obtain ⟨early_ordinary, later_ordinary⟩ := List.forall_mem_append.mp ordinary
  have origin : Coherent [] fresh.outline := coherent_ofPages _ _
  have coherent : Coherent (fresh.fetched early) m.outline := origin.after early_ordinary
  have limit : m.pageLimit = (maxPages.map UInt32.toNat).getD 65536 :=
    (advances_after origin early_ordinary).limit
  have narrow : m.pageLimit < UInt32.size := by
    rw [limit]
    cases maxPages with
    | none => decide
    | some most => exact most.toNat_lt_size
  obtain ⟨count, spans⟩ :=
    (isPaged_after (isPaged_ofPages _ _) early_ordinary).spans coherent.attached
  refine ⟨⟨count, spans.counted, ?_, ?_, ?_⟩, fun kind => ⟨view_buffer m kind, ?_⟩,
    coherent.counted, fun grows access through => ?_⟩
  · rw [spans.sized, pageSize, Nat.mul_comm]
  · exact (advances_after coherent later_ordinary).pages count spans.counted
  · rw [← limit]
    exact growsUpTo spans narrow
  · exact view_again_iff coherent later_ordinary kind
  · exact perform_through through (detached_after coherent later_ordinary grows)

theorem word_view_outlived :
    let m := (ofPages 1 (some 2)).after [.fetch .words]
    m.Grows [.grow 1] ∧ m.rebuilds = 1 ∧
      ∃ e, (Access.getWordAt 0 0).perform.run (m.after [.grow 1]) =
        (.error e, m.after [.grow 1]) ∧ e.category = .memory := by
  intro m
  obtain ⟨⟨count, counted, -, -, growth⟩, -, rebuilds, stale⟩ :=
    generations 1 (some 2) [.fetch .words] [.grow 1] (by decide)
  have single : count = 1 := (Option.some.inj counted).symm
  subst single
  obtain ⟨_, grown, -⟩ := growth.within 1 (by decide) (by decide)
  have grows : m.Grows [.grow 1] := .inl ⟨by decide, 1, congrArg Prod.fst grown⟩
  exact ⟨grows, rebuilds, stale grows (.getWordAt 0 0) rfl⟩

end SandboxBridge.Memory

import SandboxBridge.Allocator
import SandboxBridge.Proofs.Memory.Paging

/-!
The module's own allocator over a memory that grows by pages: a block is handed out, or resized where
it is, exactly if its end is an address and the memory can be made to reach it.
-/

namespace SandboxBridge

open Work

variable {m m' m₁ m₂ m₃ : Memory} {a a' : Allocator} {pages stop size start : Nat}

namespace Memory

def pagesTo (stop : Nat) : Nat :=
  (stop + (pageSize - 1)) / pageSize

/-- The memory once it reaches up to `stop`, if it can. -/
def reaching (m : Memory) (stop : Nat) : Option Memory :=
  if m.size < stop then
    match m.room (Allocator.missingPages m.size stop) with
    | .ok previous => some (m.regrown (previous + Allocator.missingPages m.size stop))
    | .error _ => none
  else some m

theorem reaching_of_within (within : stop ≤ m.size) : m.reaching stop = some m := by
  rw [reaching, if_neg (Nat.not_lt.mpr within)]

theorem Spans.reaching_of_le (spans : m.Spans pages) (within : pagesTo stop ≤ pages) :
    m.reaching stop = some m := by
  have sized := spans.sized
  unfold pagesTo pageSize at *
  exact reaching_of_within (by omega)

theorem Spans.reaching_of_lt (spans : m.Spans pages) (beyond : pages < pagesTo stop) :
    m.reaching stop =
      if m.Admits (pagesTo stop) then some (m.regrown (pagesTo stop)) else none := by
  have sized := spans.sized
  have total : pages + Allocator.missingPages m.size stop = pagesTo stop := by
    unfold Allocator.missingPages pagesTo pageSize at *
    omega
  have short : m.size < stop := by
    unfold pagesTo pageSize at *
    omega
  have missing : Allocator.missingPages m.size stop ≠ 0 := by omega
  rw [reaching, if_pos short]
  cases found : m.room (Allocator.missingPages m.size stop) with
  | ok previous =>
    have same : previous = pages :=
      Option.some.inj ((room_ok found).symm.trans spans.counted)
    have admits := admits_of_room missing found
    subst same
    rw [total] at admits
    dsimp only
    rw [if_pos admits, total]
  | error e =>
    have refused : ¬m.Admits (pagesTo stop) := by
      intro admits
      rw [← total] at admits
      rw [room_of_admits spans.counted missing admits] at found
      cases found
    rw [if_neg refused]

/-- A memory that has come to reach an address has the pages that this takes, and no more. -/
structure Reached (m : Memory) (pages stop : Nat) (m' : Memory) : Prop where
  spans : m'.Spans (max pages (pagesTo stop))
  limit : m'.pageLimit = m.pageLimit
  padded : m.Extends m'
  admitted : pages < pagesTo stop → m.Admits (pagesTo stop)

theorem Extends.refl (m : Memory) : m.Extends m :=
  ⟨Nat.le_refl _, fun _ _ => rfl, fun _ outside inside => absurd inside (Nat.not_lt.mpr outside)⟩

theorem Spans.reached (spans : m.Spans pages) (found : m.reaching stop = some m') :
    m.Reached pages stop m' := by
  by_cases within : pagesTo stop ≤ pages
  · rw [spans.reaching_of_le within] at found
    cases found
    refine ⟨?_, rfl, .refl m, fun beyond => absurd within (Nat.not_le.mpr beyond)⟩
    rwa [Nat.max_eq_left within]
  · have beyond := Nat.lt_of_not_le within
    rw [spans.reaching_of_lt beyond] at found
    split at found
    next admitted =>
      cases found
      obtain ⟨after, padded⟩ := spans.regrown (Nat.le_of_lt beyond)
      refine ⟨?_, rfl, padded, fun _ => admitted⟩
      rwa [Nat.max_eq_right (Nat.le_of_lt beyond)]
    next => cases found

theorem Reached.within (reached : m.Reached pages stop m') : stop ≤ m'.size := by
  have sized := reached.spans.sized
  have most := Nat.le_max_right pages (pagesTo stop)
  generalize max pages (pagesTo stop) = total at sized most
  unfold pagesTo pageSize at *
  omega

theorem IsPaged.reaching (paged : m.IsPaged) (found : m.reaching stop = some m') :
    m'.IsPaged := by
  unfold Memory.reaching at found
  split at found
  next =>
    split at found
    next previous counted =>
      cases found
      exact paged.regrown (room_ok counted) _
    next => cases found
  next =>
    cases found
    exact paged

theorem Spans.reaching_of_admits (spans : m.Spans pages)
    (admits : pages < pagesTo stop → m.Admits (pagesTo stop)) :
    ∃ m', m.reaching stop = some m' := by
  by_cases within : pagesTo stop ≤ pages
  · exact ⟨m, spans.reaching_of_le within⟩
  · have beyond := Nat.lt_of_not_le within
    exact ⟨_, by rw [spans.reaching_of_lt beyond, if_pos (admits beyond)]⟩

theorem Reached.admits {far fewer : Nat} (early : m.Reached pages stop m₁)
    (limit : m₂.pageLimit = m₁.pageLimit)
    (late : m₂.Reached (max pages (pagesTo stop)) far m₃) (beyond : pages < fewer)
    (fewest : fewer ≤ pagesTo far) : m.Admits fewer := by
  by_cases grown : max pages (pagesTo stop) < pagesTo far
  · obtain ⟨narrow, within⟩ := late.admitted grown
    rw [limit, early.limit] at within
    exact ⟨by omega, by omega⟩
  · obtain ⟨narrow, within⟩ := early.admitted (by omega)
    exact ⟨by omega, by omega⟩

theorem pagesTo_mono {early late : Nat} (before : early ≤ late) : pagesTo early ≤ pagesTo late :=
  Nat.div_le_div_right (Nat.add_le_add_right before _)

end Memory

namespace Allocator

open Memory

theorem run_onMemory {α : Type} (work : Memory.Action α) (a : Allocator) (m : Memory) :
    (onMemory work).run (a, m) = ((work.run m).1, a, (work.run m).2) :=
  rfl

theorem run_ensure (stop : Nat) (a : Allocator) (m : Memory) :
    (ensure stop).run (a, m) = match m.reaching stop with
      | some m' => (.ok (), a, m')
      | none => (.error .outOfMemory, a, m) := by
  unfold ensure reaching
  rw [run_bind, run_get]
  dsimp only
  split
  next short =>
    have missing : missingPages m.size stop ≠ 0 := by
      unfold missingPages pageSize
      omega
    have grown : (onMemory (Memory.grow (missingPages m.size stop)) <|> throw .outOfMemory :
        Action Nat).run (a, m) = match m.room (missingPages m.size stop) with
          | .ok previous =>
            (.ok previous, a, m.regrown (previous + missingPages m.size stop))
          | .error _ => (.error .outOfMemory, a, m) := by
      rw [run_orElse, run_onMemory, run_grow]
      cases m.room (missingPages m.size stop) with
      | error e => rfl
      | ok previous =>
        dsimp only
        rw [if_neg missing]
    rw [run_bind, grown]
    cases m.room (missingPages m.size stop) <;> rfl
  next => rfl

theorem run_bump (size : Nat) (a : Allocator) (m : Memory) :
    (bump size).run (a, m) = match alignUp a.top with
      | .ok start =>
        if start + size < UInt32.size then
          match m.reaching (start + size) with
          | some m' => (.ok start, { a with top := start + size, last := some start }, m')
          | none => (.error .outOfMemory, a, m)
        else (.error .addressSpaceExhausted, a, m)
      | .error e => (.error e, a, m) := by
  unfold bump checkAddress
  simp only [run_bind, run_get, run_liftExcept]
  cases alignUp a.top with
  | error e => rfl
  | ok start =>
    dsimp only
    by_cases fits : start + size < UInt32.size
    · simp only [fits, ↓reduceIte, run_ensure]
      cases m.reaching (start + size) <;> rfl
    · simp only [fits, ↓reduceIte]

theorem run_realloc_last (exports : a.exportsRealloc = true) (last : a.last = some start)
    (oldSize size : Nat) (m : Memory) :
    (realloc start oldSize size).run (a, m) =
      if start + size < UInt32.size then
        match m.reaching (start + size) with
        | some m' => (.ok start, { a with reallocs := a.reallocs + 1, top := start + size }, m')
        | none => (.error .outOfMemory, { a with reallocs := a.reallocs + 1 }, m)
      else (.error .addressSpaceExhausted, { a with reallocs := a.reallocs + 1 }, m) := by
  unfold realloc checkAddress resizesInPlace
  simp only [run_bind, run_get, exports, Bool.not_true, Bool.false_eq_true, ↓reduceIte, update,
    run_modify, last, decide_true, run_pure, run_liftExcept]
  by_cases fits : start + size < UInt32.size
  · simp only [fits, ↓reduceIte, run_ensure]
    cases m.reaching (start + size) <;> rfl
  · simp only [fits, ↓reduceIte]

theorem run_realloc_without (lacks : a.exportsRealloc = false) (start oldSize size : Nat)
    (m : Memory) : (realloc start oldSize size).run (a, m) = (.error .noRealloc, a, m) := by
  unfold realloc
  rw [run_bind, run_get]
  dsimp only
  rw [lacks]
  rfl

/-! Requests that have been granted. -/

theorem bump_eq_ok (granted : (bump size).run (a, m) = (.ok start, a', m')) :
    alignUp a.top = .ok start ∧ start + size < UInt32.size ∧ m.reaching (start + size) = some m' ∧
      a' = { a with top := start + size, last := some start } := by
  rw [run_bump] at granted
  cases aligned : alignUp a.top with
  | error e =>
    rw [aligned] at granted
    cases granted
  | ok place =>
    rw [aligned] at granted
    dsimp only at granted
    split at granted
    next fits =>
      cases found : m.reaching (place + size) with
      | none =>
        rw [found] at granted
        cases granted
      | some reached =>
        rw [found] at granted
        cases granted
        exact ⟨rfl, fits, found, rfl⟩
    next => cases granted

theorem malloc_eq_ok (granted : (malloc size).run (a, m) = (.ok start, a', m')) :
    alignUp a.top = .ok start ∧ start + size < UInt32.size ∧ m.reaching (start + size) = some m' ∧
      a' = { a with mallocs := a.mallocs + 1, top := start + size, last := some start } :=
  bump_eq_ok (a := { a with mallocs := a.mallocs + 1 }) granted

theorem malloc_ok (aligned : alignUp a.top = .ok start) (fits : start + size < UInt32.size)
    (found : m.reaching (start + size) = some m') :
    (malloc size).run (a, m) = (.ok start,
      { a with mallocs := a.mallocs + 1, top := start + size, last := some start }, m') := by
  change (bump size).run ({ a with mallocs := a.mallocs + 1 }, m) = _
  rw [run_bump]
  dsimp only
  rw [aligned]
  dsimp only
  rw [if_pos fits, found]

theorem exports_of_realloc {oldSize moved : Nat}
    (granted : (realloc start oldSize size).run (a, m) = (.ok moved, a', m')) :
    a.exportsRealloc = true := by
  cases exports : a.exportsRealloc with
  | false =>
    rw [run_realloc_without exports] at granted
    cases granted
  | true => rfl

theorem realloc_last_eq_ok {oldSize moved : Nat}
    (granted : (realloc start oldSize size).run (a, m) = (.ok moved, a', m'))
    (last : a.last = some start) :
    moved = start ∧ start + size < UInt32.size ∧ m.reaching (start + size) = some m' ∧
      a' = { a with reallocs := a.reallocs + 1, top := start + size } := by
  rw [run_realloc_last (exports_of_realloc granted) last] at granted
  split at granted
  next fits =>
    cases found : m.reaching (start + size) with
    | none =>
      rw [found] at granted
      cases granted
    | some reached =>
      rw [found] at granted
      cases granted
      exact ⟨rfl, fits, rfl, rfl⟩
  next => cases granted

theorem realloc_last_ok (exports : a.exportsRealloc = true) (last : a.last = some start)
    (fits : start + size < UInt32.size) (found : m.reaching (start + size) = some m')
    (oldSize : Nat) :
    (realloc start oldSize size).run (a, m) =
      (.ok start, { a with reallocs := a.reallocs + 1, top := start + size }, m') := by
  rw [run_realloc_last exports last, if_pos fits, found]

theorem write_ok {data : ByteArray} (attached : m.buffer.detached = false)
    (within : start + data.size ≤ m.size) :
    (onMemory (writeBytes start data)).run (a, m) = (.ok (), a, m.written start data) := by
  rw [run_onMemory, writeBytes_ok attached within]

theorem write_eq_ok {data : ByteArray}
    (done : (onMemory (writeBytes start data)).run (a, m) = (.ok (), a', m')) :
    m.buffer.detached = false ∧ start + data.size ≤ m.size ∧ a' = a ∧
      m' = m.written start data := by
  rw [run_onMemory, run_writeBytes] at done
  cases checked : m.buffer.check start data.size with
  | error e =>
    rw [checked] at done
    cases done
  | ok _ =>
    rw [checked] at done
    cases done
    obtain ⟨attached, fits⟩ := check_eq_ok checked
    exact ⟨attached, fits, rfl, rfl⟩

def Resizing (s : Allocator × Memory) : Prop :=
  s.1.exportsRealloc = true ∧ s.2.IsPaged

theorem preserves_update {f : Allocator → Allocator}
    (same : ∀ a, (f a).exportsRealloc = a.exportsRealloc) : Preserves Resizing (update f).run :=
  ⟨fun s resizing => ⟨(same s.1).trans resizing.1, resizing.2⟩⟩

instance {α : Type} {work : Memory.Action α} [preserves : Preserves IsPaged work.run] :
    Preserves Resizing (onMemory work).run :=
  ⟨fun s resizing => ⟨resizing.1, preserves.allowed s.2 resizing.2⟩⟩

instance (stop : Nat) : Preserves Resizing (ensure stop).run where
  allowed := by
    rintro ⟨a, m⟩ ⟨exports, paged⟩
    change Resizing ((ensure stop).run (a, m)).2
    rw [run_ensure]
    cases found : m.reaching stop with
    | none => exact ⟨exports, paged⟩
    | some m' => exact ⟨exports, paged.reaching found⟩

instance (size : Nat) : Preserves Resizing (bump size).run := by
  unfold bump
  have (start stop : Nat) :
      Preserves Resizing (update ({ · with top := stop, last := some start })).run :=
    preserves_update fun _ => rfl
  infer_instance

instance (size : Nat) : Preserves Resizing (malloc size).run := by
  unfold malloc
  have : Preserves Resizing (update fun a => { a with mallocs := a.mallocs + 1 }).run :=
    preserves_update fun _ => rfl
  infer_instance

instance (start oldSize newSize : Nat) :
    Preserves Resizing (realloc start oldSize newSize).run := by
  unfold realloc
  have : Preserves Resizing (update fun a => { a with reallocs := a.reallocs + 1 }).run :=
    preserves_update fun _ => rfl
  have (stop : Nat) : Preserves Resizing (update ({ · with top := stop })).run :=
    preserves_update fun _ => rfl
  have inPlace : Preserves Resizing (do
      let stop ← checkAddress (start + newSize)
      ensure stop
      update ({ · with top := stop })
      return start : Action Nat).run := inferInstance
  have moving : Preserves Resizing (do
      let moved ← bump newSize
      onMemory (Memory.copyWithin start moved (min oldSize newSize))
      return moved : Action Nat).run := inferInstance
  apply Follows.bind inferInstance
  intro s
  dsimp only
  infer_instance

instance : Preserves Resizing free.run :=
  preserves_update fun _ => rfl

instance (data : ByteArray) : Preserves Resizing (place data).run := by
  unfold place
  infer_instance

end Allocator

end SandboxBridge

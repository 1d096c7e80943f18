import SandboxBridge.Proofs.Allocator

/-!
What the allocator leaves alone. A new block, and a block that moves, is put past the end of all
blocks so far, and growing the memory moves its bytes with it, so that whatever lies below that end
stays as it is, whether a request is granted or refused.
-/

namespace SandboxBridge

open Work

namespace Memory

variable {m m' m₁ m₂ m₃ : Memory} {floor start stop : Nat} {data : ByteArray}

/-- The second memory has the bytes of the first below an address. It is no smaller, and grows by
pages if the first does. -/
structure Retains (floor : Nat) (m m' : Memory) : Prop where
  bytes : ∀ address < floor, ∀ b ∈ m.byte? address, m'.byte? address = some b
  size : m.size ≤ m'.size
  paged : m.IsPaged → m'.IsPaged
  attached : m.buffer.detached = false → m'.buffer.detached = false

theorem Retains.refl (floor : Nat) (m : Memory) : m.Retains floor m :=
  ⟨fun _ _ _ found => found, Nat.le_refl _, id, id⟩

theorem Retains.trans (first : m₁.Retains floor m₂) (second : m₂.Retains floor m₃) :
    m₁.Retains floor m₃ where
  bytes address below b found := second.bytes address below b (first.bytes address below b found)
  size := Nat.le_trans first.size second.size
  paged paged := second.paged (first.paged paged)
  attached attached := second.attached (first.attached attached)

theorem Retains.byte (retains : m.Retains floor m') {address : Nat} (below : address < floor)
    (inside : address < m.size) : m'.byte? address = m.byte? address := by
  have found : m.byte? address = some (m.byte address) := by rw [byte?_eq, if_pos inside]
  rw [found]
  exact retains.bytes address below _ found

theorem Retains.holds (retains : m.Retains floor m') {held : ByteArray} (holds : m.Holds start held)
    (below : start + held.size ≤ floor) : m'.Holds start held := by
  intro offset inside
  have found : held.data[offset]? = some held.data[offset] := Array.getElem?_eq_getElem inside
  rw [found]
  exact retains.bytes _ (by omega) _ ((holds offset inside).trans found)

theorem retains_regrown (floor pages : Nat) (paged : m.IsPaged → (m.regrown pages).IsPaged) :
    m.Retains floor (m.regrown pages) where
  bytes address _ b found := by
    have inside : address < m.buffer.bytes.data.size :=
      (Array.getElem?_eq_some_iff.mp found).1
    simp only [byte?, Buffer.byte?, buffer_regrown, Buffer.ofBytes, ByteArray.data_append,
      Array.getElem?_append, inside, ↓reduceIte]
    exact found
  size := by
    rw [size, size, buffer_regrown, Buffer.size, Buffer.size, Buffer.ofBytes]
    simp only [ByteArray.size_append, Nat.le_add_right]
  paged := paged
  attached _ := by
    rw [buffer_regrown]
    rfl

theorem retains_reaching (found : m.reaching stop = some m') (floor : Nat) :
    m.Retains floor m' := by
  have paged (paged : m.IsPaged) : m'.IsPaged := paged.reaching found
  unfold reaching at found
  split at found
  next =>
    split at found
    next =>
      cases found
      exact retains_regrown floor _ paged
    next => cases found
  next =>
    cases found
    exact .refl floor m

theorem retains_of_overwrite (pages : m'.pages = m.pages)
    (wrote : m'.buffer = m.buffer.overwrite start data) (attached : m.buffer.detached = false)
    (fits : start + data.size ≤ m.size) (above : floor ≤ start) : m.Retains floor m' := by
  have kept : m'.buffer.detached = false := by
    rw [wrote]
    exact attached
  have sized : m'.size = m.size := by
    rw [size, wrote]
    exact Buffer.size_overwrite fits
  refine ⟨fun address below b found => ?_, Nat.le_of_eq sized.symm, fun paged => ?_, fun _ => kept⟩
  · rw [byte?, wrote, Buffer.byte?_overwrite fits, if_neg (by omega)]
    exact found
  · exact paged.of_buffer pages (.inr (.inr ⟨attached, kept, sized⟩))

theorem retains_written (attached : m.buffer.detached = false) (fits : start + data.size ≤ m.size)
    (above : floor ≤ start) : m.Retains floor (m.written start data) :=
  retains_of_overwrite (view_pages m .bytes) (buffer_written attached start data) attached fits
    above

theorem retains_view (m : Memory) (kind : ViewKind) (floor : Nat) :
    m.Retains floor (m.view kind).2 := by
  have same : (m.view kind).2.buffer = m.buffer := buffer_view m kind
  refine ⟨fun address _ b found => ?_, ?_, fun paged => ?_, fun attached => ?_⟩
  · rwa [byte?, same]
  · exact Nat.le_of_eq (by rw [size, size, same])
  · exact paged.of_buffer (view_pages m kind) (.inl same)
  · rwa [same]

def overwritten (m : Memory) (start : Nat) (data : ByteArray) : Memory :=
  { m with buffers := m.buffers.modify m.current (·.overwrite start data) }

theorem buffer_overwritten (attached : m.buffer.detached = false) (start : Nat)
    (data : ByteArray) : (m.overwritten start data).buffer = m.buffer.overwrite start data := by
  simp only [overwritten, buffer, bufferAt, Array.getElem?_modify, ↓reduceIte]
  rw [buffers_current attached]
  rfl

theorem size_overwritten (attached : m.buffer.detached = false)
    (fits : start + data.size ≤ m.size) :
    (m.overwritten start data).size = m.size := by
  rw [size, buffer_overwritten attached]
  exact Buffer.size_overwrite fits

theorem retains_overwritten (attached : m.buffer.detached = false)
    (fits : start + data.size ≤ m.size) (above : floor ≤ start) :
    m.Retains floor (m.overwritten start data) :=
  retains_of_overwrite rfl (buffer_overwritten attached start data) attached fits above

theorem byte?_overwritten (attached : m.buffer.detached = false)
    (fits : start + data.size ≤ m.size) (address : Nat) :
    (m.overwritten start data).byte? address =
      if start ≤ address ∧ address < start + data.size then data.data[address - start]?
      else m.byte? address := by
  rw [byte?, buffer_overwritten attached]
  exact Buffer.byte?_overwrite fits address

theorem holds_overwritten (attached : m.buffer.detached = false)
    (fits : start + data.size ≤ m.size) : (m.overwritten start data).Holds start data := by
  intro offset inside
  rw [byte?_overwritten attached fits, if_pos (by omega), Nat.add_sub_cancel_left]

theorem run_write (m : Memory) (start : Nat) (data : ByteArray) :
    (write start data).run m = match m.buffer.check start data.size with
      | .ok () => (.ok (), m.overwritten start data)
      | .error e => (.error e, m) := by
  unfold write writeAt modifyBuffer
  simp only [run_bind, run_get, run_liftExcept, run_modify]
  rw [show m.bufferAt m.current = m.buffer from rfl]
  cases m.buffer.check start data.size <;> rfl

theorem modify_duplicate (m : Memory) (buffer source target length : Nat) :
    m.buffers.modify buffer (·.duplicate source target length) =
      m.buffers.modify buffer
        (·.overwrite target ((m.bufferAt buffer).bytes.extract source (source + length))) := by
  apply Array.ext_getElem?
  intro other
  rw [Array.getElem?_modify, Array.getElem?_modify]
  split
  next own =>
    subst own
    cases found : m.buffers[buffer]? with
    | none => rw [Option.map_none, Option.map_none]
    | some b =>
      have same : m.bufferAt buffer = b := by rw [bufferAt, found, Option.getD_some]
      rw [same, Option.map_some, Option.map_some, Buffer.duplicate]
  next => rfl

theorem size_source {source length : Nat} (within : source + length ≤ m.size) :
    (m.buffer.bytes.extract source (source + length)).size = length := by
  have within : source + length ≤ m.buffer.bytes.size := within
  rw [ByteArray.size_extract]
  omega

theorem run_copyWithin (m : Memory) (source target length : Nat) :
    (copyWithin source target length).run m =
      match m.buffer.check source length with
      | .error e => (.error e, m)
      | .ok () =>
        match m.buffer.check target length with
        | .error e => (.error e, m)
        | .ok () =>
          (.ok (), m.overwritten target (m.buffer.bytes.extract source (source + length))) := by
  have own : m.bufferAt m.current = m.buffer := rfl
  unfold copyWithin copyWithinAt modifyBuffer
  simp only [run_bind, run_get, run_liftExcept, run_modify, own]
  cases m.buffer.check source length with
  | error e => rfl
  | ok _ =>
    dsimp only
    rw [own]
    cases m.buffer.check target length with
    | error e => rfl
    | ok _ => simp only [modify_duplicate, own, overwritten]

theorem copyWithin_ok {source target length : Nat} (attached : m.buffer.detached = false)
    (within : source + length ≤ m.size) (fits : target + length ≤ m.size) :
    ∃ m', (copyWithin source target length).run m = (.ok (), m') ∧
      ∀ offset < length, m'.byte? (target + offset) = m.byte? (source + offset) := by
  have sized := size_source within
  rw [run_copyWithin, check_ok attached within, check_ok attached fits]
  refine ⟨_, rfl, fun offset inside => ?_⟩
  have within : source + length ≤ m.buffer.bytes.data.size := within
  rw [byte?_overwritten attached (by rwa [sized]), sized, if_pos (by omega),
    Nat.add_sub_cancel_left, ByteArray.data_extract, Array.getElem?_extract, if_pos (by omega)]
  rfl

/-! Writes above the address. -/

theorem retains_writeBytes (above : floor ≤ start) (data : ByteArray) :
    m.Retains floor ((writeBytes start data).run m).2 := by
  rw [run_writeBytes]
  cases checked : m.buffer.check start data.size with
  | error e => exact retains_view m .bytes floor
  | ok _ =>
    obtain ⟨attached, fits⟩ := check_eq_ok checked
    exact retains_written attached fits above

theorem retains_write (above : floor ≤ start) (data : ByteArray) :
    m.Retains floor ((write start data).run m).2 := by
  rw [run_write]
  cases checked : m.buffer.check start data.size with
  | error e => exact .refl floor m
  | ok _ =>
    obtain ⟨attached, fits⟩ := check_eq_ok checked
    exact retains_overwritten attached fits above

theorem retains_copyWithin {target : Nat} (above : floor ≤ target) (source length : Nat) :
    m.Retains floor ((copyWithin source target length).run m).2 := by
  rw [run_copyWithin]
  cases checked : m.buffer.check source length with
  | error e => exact .refl floor m
  | ok _ =>
    dsimp only
    cases taken : m.buffer.check target length with
    | error e => exact .refl floor m
    | ok _ =>
      obtain ⟨attached, within⟩ := check_eq_ok checked
      obtain ⟨-, fits⟩ := check_eq_ok taken
      exact retains_overwritten attached (by rwa [size_source within]) above

theorem IsPaged.reached (paged : m.IsPaged) (found : m.reaching stop = some m')
    (positive : 0 < stop) : m'.buffer.detached = false ∧ stop ≤ m'.size := by
  obtain ⟨pages, spans | ⟨counted, gone⟩⟩ := paged
  · have reached := spans.reached found
    exact ⟨reached.spans.attached, reached.within⟩
  · have empty : m.size = 0 := by
      rw [size, gone]
      rfl
    rw [Memory.reaching, if_pos (by rwa [empty])] at found
    split at found
    next previous counted =>
      cases found
      have spans := spans_regrown_of_gone gone (previous + Allocator.missingPages m.size stop)
      refine ⟨spans.attached, ?_⟩
      rw [spans.sized, empty]
      unfold Allocator.missingPages pageSize
      omega
    next => cases found

end Memory

namespace Allocator

variable {α β : Type} {s t u : Allocator × Memory} {a a' : Allocator} {m m' : Memory}
  {floor start size top : Nat} {data : ByteArray}

theorem alignUp_eq_ok (aligned : alignUp top = .ok start) :
    top ≤ start ∧ start % 8 = 0 ∧ top + 7 < UInt32.size := by
  unfold alignUp checkAddress at aligned
  split at aligned
  next fits =>
    cases aligned
    unfold alignment at *
    exact ⟨by omega, Nat.mul_mod_left _ _, fits⟩
  next => cases aligned

/-- The module may have come to hand out more, but nothing below an address. -/
structure Retains (floor : Nat) (s t : Allocator × Memory) : Prop where
  top : floor ≤ t.1.top
  exports : t.1.exportsRealloc = s.1.exportsRealloc
  memory : s.2.Retains floor t.2

namespace Retains

theorem refl (below : floor ≤ s.1.top) : Retains floor s s :=
  ⟨below, rfl, .refl floor s.2⟩

theorem trans (first : Retains floor s t) (second : Retains floor t u) : Retains floor s u :=
  ⟨second.top, second.exports.trans first.exports, first.memory.trans second.memory⟩

theorem bind {work : Action α} {next : α → Action β} (first : Retains floor s (work.run s).2)
    (rest : ∀ value t, work.run s = (.ok value, t) → floor ≤ t.1.top →
      Retains floor t ((next value).run t).2) :
    Retains floor s ((work >>= next).run s).2 := by
  rw [run_bind]
  cases ran : work.run s with
  | mk result t =>
    rw [ran] at first
    cases result with
    | error e => exact first
    | ok value => exact first.trans (rest value t ran first.top)

theorem given {result : Except Error α} {next : α → Action β} (below : floor ≤ s.1.top)
    (rest : ∀ value, result = .ok value → Retains floor s ((next value).run s).2) :
    Retains floor s ((liftM result >>= next : Action β).run s).2 := by
  rw [run_bind, run_liftExcept]
  cases result with
  | error e => exact refl below
  | ok value => exact rest value rfl

end Retains

theorem retains_bump (below : floor ≤ s.1.top) (size : Nat) :
    Retains floor s ((bump size).run s).2 := by
  obtain ⟨a, m⟩ := s
  have refused : Retains floor (a, m) (a, m) := .refl below
  rw [run_bump]
  split
  next start aligned =>
    obtain ⟨above, -, -⟩ := alignUp_eq_ok aligned
    split
    next =>
      split
      next m' found =>
        exact ⟨Nat.le_trans below (Nat.le_add_right_of_le above), rfl,
          Memory.retains_reaching found floor⟩
      next => exact refused
    next => exact refused
  next => exact refused

theorem retains_malloc (below : floor ≤ s.1.top) (size : Nat) :
    Retains floor s ((malloc size).run s).2 := by
  have bumped := retains_bump (s := ({ s.1 with mallocs := s.1.mallocs + 1 }, s.2)) below size
  exact ⟨bumped.top, bumped.exports, bumped.memory⟩

theorem retains_onMemory {work : Memory.Action α} (below : floor ≤ s.1.top)
    (retains : s.2.Retains floor (work.run s.2).2) : Retains floor s ((onMemory work).run s).2 :=
  ⟨below, rfl, retains⟩

def move (start oldSize size : Nat) : Action Nat := do
  let moved ← bump size
  onMemory (Memory.copyWithin start moved (min oldSize size))
  return moved

theorem run_update (f : Allocator → Allocator) (a : Allocator) (m : Memory) :
    (update f).run (a, m) = (.ok (), f a, m) :=
  rfl

theorem run_realloc_moving (exports : a.exportsRealloc = true) (moves : a.last ≠ some start)
    (oldSize size : Nat) (m : Memory) :
    (realloc start oldSize size).run (a, m) =
      (move start oldSize size).run ({ a with reallocs := a.reallocs + 1 }, m) := by
  have elsewhere : decide (a.last = some start) = false := decide_eq_false moves
  unfold realloc resizesInPlace
  rw [run_bind, run_get]
  dsimp only
  rw [exports, Bool.not_true, if_neg Bool.false_ne_true, run_bind_ok (run_update _ _ _), run_bind,
    run_get]
  dsimp only
  rw [elsewhere, if_neg Bool.false_ne_true, move, exports]

theorem retains_move (below : floor ≤ s.1.top) (start oldSize size : Nat) :
    Retains floor s ((move start oldSize size).run s).2 := by
  refine .bind (retains_bump below size) fun moved t bumped below' => ?_
  obtain ⟨aligned, -, -, -⟩ := bump_eq_ok bumped
  have above := Nat.le_trans below (alignUp_eq_ok aligned).1
  have copied := Memory.retains_copyWithin (m := t.2) above start (min oldSize size)
  exact .bind (retains_onMemory below' copied) fun _ _ _ below'' => .refl below''

theorem retains_realloc (below : floor ≤ s.1.top) (above : floor ≤ start) (oldSize size : Nat) :
    Retains floor s ((realloc start oldSize size).run s).2 := by
  obtain ⟨a, m⟩ := s
  have refused : Retains floor (a, m) (a, m) := .refl below
  cases exports : a.exportsRealloc with
  | false =>
    rw [run_realloc_without exports]
    exact refused
  | true =>
    by_cases last : a.last = some start
    · rw [run_realloc_last exports last]
      split
      next =>
        split
        next m' found =>
          exact ⟨Nat.le_add_right_of_le above, rfl, Memory.retains_reaching found floor⟩
        next => exact ⟨refused.top, rfl, refused.memory⟩
      next => exact ⟨refused.top, rfl, refused.memory⟩
    · rw [run_realloc_moving exports last]
      have moved := retains_move (s := ({ a with reallocs := a.reallocs + 1 }, m)) below start
        oldSize size
      exact ⟨moved.top, moved.exports, moved.memory⟩

theorem le_of_realloc {oldSize moved : Nat} (below : floor ≤ s.1.top) (above : floor ≤ start)
    (granted : (realloc start oldSize size).run s = (.ok moved, t)) : floor ≤ moved := by
  obtain ⟨a, m⟩ := s
  by_cases last : a.last = some start
  · obtain ⟨rfl, -⟩ := realloc_last_eq_ok granted last
    exact above
  · rw [run_realloc_moving (exports_of_realloc granted) last] at granted
    obtain ⟨place, u, bumped, rest⟩ := bind_eq_ok granted
    obtain ⟨_, v, _, rest⟩ := bind_eq_ok rest
    cases rest
    obtain ⟨aligned, -, -, -⟩ := bump_eq_ok bumped
    exact Nat.le_trans below (alignUp_eq_ok aligned).1

theorem run_place (data : ByteArray) (a : Allocator) (m : Memory) :
    (place data).run (a, m) =
      if UInt32.size ≤ data.size then (.error .allocationTooLarge, a, m)
      else match (bump data.size).run (a, m) with
        | (.ok start, a', m') =>
          (((Memory.write start data).run m').1.map fun _ => (start, data.size),
            a', ((Memory.write start data).run m').2)
        | (.error e, s) => (.error e, s) := by
  unfold place
  by_cases large : UInt32.size ≤ data.size
  · rw [if_pos large, if_pos large]
    rfl
  · rw [if_neg large, if_neg large, run_bind]
    rcases (bump data.size).run (a, m) with ⟨e | start, a', m'⟩
    · rfl
    · dsimp only
      rw [run_bind, run_onMemory]
      rcases (Memory.write start data).run m' with ⟨e | _, m''⟩ <;> rfl

theorem retains_place (below : floor ≤ s.1.top) (data : ByteArray) :
    Retains floor s ((place data).run s).2 := by
  obtain ⟨a, m⟩ := s
  have bumped := retains_bump below data.size
  rw [run_place]
  split
  next => exact .refl below
  next =>
    cases ran : (bump data.size).run (a, m) with
    | mk result t =>
      rw [ran] at bumped
      cases result with
      | error e => exact bumped
      | ok start =>
        obtain ⟨aligned, -, -, -⟩ := bump_eq_ok ran
        have above := Nat.le_trans below (alignUp_eq_ok aligned).1
        exact bumped.trans ⟨bumped.top, rfl, Memory.retains_write above data⟩

/-! Blocks that have been granted. -/

structure LastBlock (start length : Nat) (s : Allocator × Memory) : Prop where
  aligned : start % 8 = 0
  narrow : start + length < UInt32.size
  last : s.1.last = some start
  top : s.1.top = start + length
  attached : s.2.buffer.detached = false
  inside : start + length ≤ s.2.size

theorem lastBlock_of_bump (paged : m.IsPaged) (positive : 0 < a.top)
    (granted : (bump size).run (a, m) = (.ok start, a', m')) :
    a.top ≤ start ∧ LastBlock start size (a', m') := by
  obtain ⟨aligned, narrow, found, rfl⟩ := bump_eq_ok granted
  obtain ⟨above, whole, -⟩ := alignUp_eq_ok aligned
  obtain ⟨attached, inside⟩ := paged.reached found (by omega)
  exact ⟨above, whole, narrow, rfl, rfl, attached, inside⟩

theorem lastBlock_of_malloc (paged : m.IsPaged) (positive : 0 < a.top)
    (granted : (malloc size).run (a, m) = (.ok start, a', m')) :
    a.top ≤ start ∧ LastBlock start size (a', m') :=
  lastBlock_of_bump (a := { a with mallocs := a.mallocs + 1 }) paged positive granted

theorem LastBlock.retained {length : Nat} (block : LastBlock start length (a, m))
    (retains : m.Retains floor m') : LastBlock start length (a, m') :=
  { block with
    attached := retains.attached block.attached
    inside := Nat.le_trans block.inside retains.size }

theorem run_write_lastBlock (block : LastBlock start data.size (a, m)) :
    (Memory.write start data).run m = (.ok (), m.overwritten start data) := by
  rw [Memory.run_write, Memory.check_ok block.attached block.inside]

theorem lastBlock_of_place {length : Nat} (paged : m.IsPaged) (positive : 0 < a.top)
    (granted : (place data).run (a, m) = (.ok (start, length), a', m')) :
    a.top ≤ start ∧ length = data.size ∧ LastBlock start length (a', m') ∧ m'.Holds start data := by
  rw [run_place] at granted
  split at granted
  next => cases granted
  next =>
    cases ran : (bump data.size).run (a, m) with
    | mk result t =>
      rw [ran] at granted
      cases result with
      | error e => cases granted
      | ok place =>
        obtain ⟨above, block⟩ := lastBlock_of_bump paged positive ran
        dsimp only at granted
        rw [run_write_lastBlock block] at granted
        cases granted
        exact ⟨above, rfl, block.retained
          (Memory.retains_overwritten block.attached block.inside (Nat.le_refl _)),
          Memory.holds_overwritten block.attached block.inside⟩

structure Unmoved (s t : Allocator × Memory) : Prop where
  top : t.1.top = s.1.top
  last : t.1.last = s.1.last
  memory : t.2 = s.2

theorem unmoved_of_bump {e : Error} (refused : (bump size).run s = (.error e, t)) : t = s := by
  obtain ⟨a, m⟩ := s
  rw [run_bump] at refused
  split at refused
  next =>
    split at refused
    next =>
      split at refused
      next => cases refused
      next =>
        cases refused
        rfl
    next =>
      cases refused
      rfl
  next =>
    cases refused
    rfl

theorem unmoved_of_malloc {e : Error} (refused : (malloc size).run s = (.error e, t)) :
    Unmoved s t := by
  have same : t = ({ s.1 with mallocs := s.1.mallocs + 1 }, s.2) := unmoved_of_bump refused
  subst same
  exact ⟨rfl, rfl, rfl⟩

theorem unmoved_of_place {e : Error} (paged : s.2.IsPaged) (positive : 0 < s.1.top)
    (refused : (place data).run s = (.error e, t)) : Unmoved s t := by
  obtain ⟨a, m⟩ := s
  rw [run_place] at refused
  split at refused
  next =>
    cases refused
    exact ⟨rfl, rfl, rfl⟩
  next =>
    cases ran : (bump data.size).run (a, m) with
    | mk result u =>
      rw [ran] at refused
      cases result with
      | error e =>
        cases refused
        cases unmoved_of_bump ran
        exact ⟨rfl, rfl, rfl⟩
      | ok start =>
        obtain ⟨-, block⟩ := lastBlock_of_bump paged positive ran
        dsimp only at refused
        rw [run_write_lastBlock block] at refused
        cases refused

end Allocator

end SandboxBridge

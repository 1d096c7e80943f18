import SandboxBridge.Memory.Access
import SandboxBridge.Proofs.Memory.Bytes

/-!
Memories that grow by pages. The buffer is as large as the pages, unless it has been detached by
hand, and growing it adds pages of zeros at the end.
-/

namespace SandboxBridge.Memory

open Work

variable {m m' : Memory} {pages count start : Nat} {data : ByteArray}

theorem data_zeros (count : Nat) : (zeros count).data = Array.replicate count 0 := by
  induction count using zeros.induct with
  | case1 => simp [zeros]
  | case2 count positive even ih =>
    have whole : count / 2 + count / 2 = count := by omega
    rw [zeros, if_neg positive]
    simp [even, ih, whole]
  | case3 count positive odd ih =>
    have whole : count / 2 + count / 2 + 1 = count := by omega
    rw [zeros, if_neg positive]
    simp [odd, ih, ← Array.replicate_succ, whole]

theorem size_zeros (count : Nat) : (zeros count).size = count := by
  rw [← ByteArray.size_data, data_zeros, Array.size_replicate]

def byte (m : Memory) (address : Nat) : UInt8 :=
  (m.byte? address).getD 0

theorem byte?_eq (m : Memory) (address : Nat) :
    m.byte? address = if address < m.size then some (m.byte address) else none := by
  have bound : m.size = m.buffer.bytes.data.size := rfl
  unfold byte byte? Buffer.byte?
  split
  next inside => simp [← bound, inside]
  next outside => simp [← bound, Nat.le_of_not_lt outside]

/-- The second memory has the bytes of the first, and zeros after them. -/
structure Extends (m m' : Memory) : Prop where
  size : m.size ≤ m'.size
  same : ∀ address < m.size, m'.byte? address = m.byte? address
  zero : ∀ address, m.size ≤ address → address < m'.size → m'.byte? address = some 0

theorem extends_iff : m.Extends m' ↔ m.size ≤ m'.size ∧ m'.byte = m.byte := by
  constructor
  · rintro ⟨size, same, zero⟩
    refine ⟨size, funext fun address => ?_⟩
    by_cases inside : address < m.size
    · rw [byte, same address inside, byte]
    · have absent : m.byte? address = none := by rw [byte?_eq, if_neg inside]
      rw [byte, byte, absent]
      by_cases added : address < m'.size
      · rw [zero address (Nat.le_of_not_lt inside) added]
        rfl
      · rw [byte?_eq, if_neg added]
  · rintro ⟨size, same⟩
    refine ⟨size, fun address inside => ?_, fun address outside added => ?_⟩
    · rw [byte?_eq, byte?_eq, if_pos inside, if_pos (Nat.lt_of_lt_of_le inside size), same]
    · have absent : m.byte? address = none := by rw [byte?_eq, if_neg (Nat.not_lt.mpr outside)]
      rw [byte?_eq, if_pos added, same, byte, absent]
      rfl

def patch (bytes : Nat → UInt8) (start : Nat) (data : ByteArray) (address : Nat) : UInt8 :=
  if start ≤ address ∧ address < start + data.size then (data.data[address - start]?).getD 0
  else bytes address

theorem byte_written (attached : m.buffer.detached = false) (fits : start + data.size ≤ m.size) :
    (m.written start data).byte = patch m.byte start data := by
  funext address
  rw [byte, byte?_written attached fits, patch]
  split <;> rfl

theorem patch_append (bytes : Nat → UInt8) (start : Nat) (front rest : ByteArray) :
    patch (patch bytes start front) (start + front.size) rest =
      patch bytes start (front ++ rest) := by
  funext address
  have sizes : (front ++ rest).size = front.size + rest.size := ByteArray.size_append
  by_cases before : address < start
  · simp only [patch, show ¬start ≤ address by omega, show ¬start + front.size ≤ address by omega,
      false_and, ↓reduceIte]
  · by_cases early : address < start + front.size
    · have inside : address - start < front.data.size := by
        rw [ByteArray.size_data]
        omega
      rw [patch, if_neg (by omega), patch, if_pos ⟨by omega, early⟩, patch,
        if_pos ⟨by omega, by omega⟩, ByteArray.data_append, Array.getElem?_append, if_pos inside]
    · by_cases late : address < start + front.size + rest.size
      · have beyond : ¬address - start < front.data.size := by
          rw [ByteArray.size_data]
          omega
        rw [patch, if_pos ⟨by omega, late⟩, patch, if_pos ⟨by omega, by omega⟩,
          ByteArray.data_append, Array.getElem?_append, if_neg beyond, ByteArray.size_data,
          Nat.sub_sub]
      · rw [patch, if_neg (by omega), patch, if_neg (by omega), patch, if_neg (by omega)]

theorem run_grow (count : Nat) (m : Memory) :
    (grow count).run m = match m.room count with
      | .ok previous => (.ok previous, if count = 0 then m else m.regrown (previous + count))
      | .error e => (.error e, m) := by
  unfold grow
  simp only [run_bind, run_get, run_liftExcept]
  cases m.room count with
  | error e => rfl
  | ok previous =>
    by_cases nothing : count = 0
    · simp [nothing]
    · simp only [nothing, ne_eq, not_false_eq_true, ↓reduceIte]
      rfl

def Admits (m : Memory) (pages : Nat) : Prop :=
  pages < UInt32.size ∧ pages ≤ m.pageLimit

instance (m : Memory) (pages : Nat) : Decidable (m.Admits pages) :=
  inferInstanceAs (Decidable (_ ∧ _))

theorem room_of_admits (counted : m.pages = some pages) {count : Nat} (some_more : count ≠ 0)
    (admits : m.Admits (pages + count)) : m.room count = .ok pages := by
  obtain ⟨narrow, within⟩ := admits
  rw [room, counted]
  dsimp only
  rw [if_neg some_more, if_neg (Nat.not_le.mpr narrow), if_neg (Nat.not_lt.mpr within)]

theorem admits_of_room {count previous : Nat} (some_more : count ≠ 0)
    (found : m.room count = .ok previous) : m.Admits (previous + count) := by
  unfold room at found
  split at found
  next => cases found
  next =>
    rw [if_neg some_more] at found
    split at found
    next => cases found
    next narrow =>
      split at found
      next => cases found
      next within =>
        cases found
        exact ⟨Nat.lt_of_not_le narrow, Nat.le_of_not_lt within⟩

theorem buffer_regrown (m : Memory) (pages : Nat) : (m.regrown pages).buffer =
    .ofBytes (m.buffer.bytes ++ zeros (pages * pageSize - m.buffer.bytes.size)) := by
  simp only [regrown, detachAt, replaceBuffer, buffer, bufferAt, Array.getElem?_push_size,
    Option.getD_some]

/-- The buffer is attached and as large as the pages. -/
structure Spans (m : Memory) (pages : Nat) : Prop where
  counted : m.pages = some pages
  attached : m.buffer.detached = false
  sized : m.size = pages * pageSize

theorem Spans.written (spans : m.Spans pages) (fits : start + data.size ≤ m.size) :
    (m.written start data).Spans pages where
  counted := (view_pages m .bytes).trans spans.counted
  attached := detached_written spans.attached start data
  sized := (size_written spans.attached fits).trans spans.sized

theorem pageLimit_written (m : Memory) (start : Nat) (data : ByteArray) :
    (m.written start data).pageLimit = m.pageLimit :=
  view_pageLimit m .bytes

theorem Spans.regrown (spans : m.Spans pages) {more : Nat} (grows : pages ≤ more) :
    (m.regrown more).Spans more ∧ m.Extends (m.regrown more) := by
  have before : m.buffer.bytes.size = pages * pageSize := spans.sized
  have fits : pages * pageSize ≤ more * pageSize := Nat.mul_le_mul_right _ grows
  have after : (m.regrown more).size = more * pageSize := by
    rw [size, buffer_regrown, Buffer.size, Buffer.ofBytes, ByteArray.size_append, size_zeros]
    omega
  refine ⟨⟨rfl, by rw [buffer_regrown]; rfl, after⟩, ?_, fun address inside => ?_,
    fun address outside added => ?_⟩
  · rwa [spans.sized, after]
  · have inside : address < m.buffer.bytes.data.size := inside
    simp only [byte?, Buffer.byte?, buffer_regrown, Buffer.ofBytes, ByteArray.data_append,
      Array.getElem?_append, inside, ↓reduceIte]
  · rw [after] at added
    rw [spans.sized] at outside
    have beyond : ¬address < m.buffer.bytes.size := by omega
    simp only [byte?, Buffer.byte?, buffer_regrown, Buffer.ofBytes, ByteArray.data_append,
      Array.getElem?_append, beyond, ↓reduceIte, data_zeros, ByteArray.size_data]
    rw [Array.getElem?_replicate, if_pos (by omega)]

theorem spans_regrown_of_gone (gone : m.buffer = .gone) (pages : Nat) :
    (m.regrown pages).Spans pages := by
  refine ⟨rfl, by rw [buffer_regrown]; rfl, ?_⟩
  rw [size, buffer_regrown, gone]
  simp [Buffer.size, Buffer.ofBytes, Buffer.gone, size_zeros]

/-! Whatever is done to a memory. -/

/-- The buffer is as large as the pages, if it has not been detached by hand. -/
def IsPaged (m : Memory) : Prop :=
  ∃ pages, m.Spans pages ∨ m.pages = some pages ∧ m.buffer = .gone

theorem IsPaged.spans (paged : m.IsPaged) (attached : m.buffer.detached = false) :
    ∃ pages, m.Spans pages := by
  obtain ⟨pages, spans | ⟨-, gone⟩⟩ := paged
  · exact ⟨pages, spans⟩
  · rw [gone] at attached
    cases attached

theorem spans_ofPages (pages : Nat) (maxPages : Option Nat) :
    (ofPages pages maxPages).Spans pages :=
  ⟨rfl, rfl, size_zeros _⟩

theorem isPaged_ofPages (pages : Nat) (maxPages : Option Nat) : (ofPages pages maxPages).IsPaged :=
  ⟨pages, .inl (spans_ofPages pages maxPages)⟩

theorem IsPaged.of_buffer (paged : m.IsPaged) (pages : m'.pages = m.pages)
    (buffer : m'.buffer = m.buffer ∨ m'.buffer = .gone ∨
      m.buffer.detached = false ∧ m'.buffer.detached = false ∧ m'.size = m.size) :
    m'.IsPaged := by
  obtain ⟨count, before⟩ := paged
  have counted : m'.pages = some count :=
    pages.trans (before.elim (fun spans => spans.counted) fun gone => gone.1)
  rcases buffer with same | gone | ⟨attached, after, sized⟩
  · refine ⟨count, before.imp (fun spans => ⟨counted, ?_, ?_⟩) fun gone => ⟨counted, ?_⟩⟩
    · rw [same]
      exact spans.attached
    · rw [size, same]
      exact spans.sized
    · exact same.trans gone.2
  · exact ⟨count, .inr ⟨counted, gone⟩⟩
  · refine ⟨count, .inl ⟨counted, after, sized.trans ?_⟩⟩
    rcases before with spans | ⟨-, gone⟩
    · exact spans.sized
    · rw [gone] at attached
      cases attached

theorem IsPaged.regrown (paged : m.IsPaged) {previous : Nat} (counted : m.pages = some previous)
    (count : Nat) : (m.regrown (previous + count)).IsPaged := by
  obtain ⟨pages, spans | ⟨same, gone⟩⟩ := paged
  · have same : pages = previous := Option.some.inj (spans.counted.symm.trans counted)
    subst same
    exact ⟨_, .inl (spans.regrown (Nat.le_add_right _ _)).1⟩
  · exact ⟨_, .inl (spans_regrown_of_gone gone _)⟩

theorem room_ok (found : m.room count = .ok pages) : m.pages = some pages := by
  unfold room at found
  split at found
  next => cases found
  next previous counted =>
    split at found
    next =>
      cases found
      exact counted
    next =>
      split at found
      next => cases found
      next =>
        split at found
        next => cases found
        next =>
          cases found
          exact counted

instance (count : Nat) : Preserves IsPaged (grow count).run where
  allowed m paged := by
    change IsPaged ((grow count).run m).2
    rw [run_grow]
    cases found : m.room count with
    | error e => exact paged
    | ok previous =>
      dsimp only
      split
      · exact paged
      · exact paged.regrown (room_ok found) count

instance (kind : ViewKind) : Preserves IsPaged (fetch kind).run where
  allowed m paged := by
    obtain ⟨buffers, current⟩ := view_buffers m kind
    refine paged.of_buffer (view_pages m kind) (.inl ?_)
    change bufferAt (m.view kind).2 (m.view kind).2.current = _
    rw [view_bufferAt, current]
    rfl

theorem IsPaged.modify (paged : m.IsPaged) (buffer : Nat) {f : Buffer → Buffer}
    (attached : (m.bufferAt buffer).detached = false)
    (after : (f (m.bufferAt buffer)).detached = false)
    (sized : (f (m.bufferAt buffer)).size = (m.bufferAt buffer).size) :
    IsPaged { m with buffers := m.buffers.modify buffer f } := by
  refine paged.of_buffer rfl ?_
  unfold size
  simp only [Memory.buffer, bufferAt, Array.getElem?_modify] at attached after sized ⊢
  by_cases own : buffer = m.current
  · subst own
    simp only [↓reduceIte]
    cases found : m.buffers[m.current]? with
    | none => exact .inl rfl
    | some b =>
      rw [found] at attached after sized
      exact .inr (.inr ⟨attached, after, sized⟩)
  · simp [own]

theorem check_eq_ok {b : Buffer} {start length : Nat} (passed : b.check start length = .ok ()) :
    b.detached = false ∧ start + length ≤ b.size := by
  unfold Buffer.check at passed
  split at passed
  next => cases passed
  next attached =>
    split at passed
    next fits => exact ⟨by simpa using attached, fits⟩
    next => cases passed

instance (buffer start : Nat) (data : ByteArray) :
    Preserves IsPaged (writeAt buffer start data).run where
  allowed m paged := by
    change IsPaged ((writeAt buffer start data).run m).2
    unfold writeAt modifyBuffer
    simp only [run_bind, run_get, run_liftExcept, run_modify]
    cases passed : (m.bufferAt buffer).check start data.size with
    | error e => exact paged
    | ok _ =>
      obtain ⟨attached, fits⟩ := check_eq_ok passed
      exact paged.modify buffer (f := (·.overwrite start data)) attached attached
        (Buffer.size_overwrite fits)

instance (buffer source target length : Nat) :
    Preserves IsPaged (copyWithinAt buffer source target length).run where
  allowed m paged := by
    change IsPaged ((copyWithinAt buffer source target length).run m).2
    unfold copyWithinAt modifyBuffer
    simp only [run_bind, run_get, run_liftExcept, run_modify]
    cases passed : (m.bufferAt buffer).check source length with
    | error e => exact paged
    | ok _ =>
      dsimp only
      cases taken : (m.bufferAt buffer).check target length with
      | error e => exact paged
      | ok _ =>
        obtain ⟨attached, within⟩ := check_eq_ok passed
        obtain ⟨-, fits⟩ := check_eq_ok taken
        have copied :
            ((m.bufferAt buffer).bytes.extract source (source + length)).size = length := by
          have within : source + length ≤ (m.bufferAt buffer).bytes.size := within
          rw [ByteArray.size_extract]
          omega
        have sized : ((m.bufferAt buffer).duplicate source target length).size =
            (m.bufferAt buffer).size := by
          rw [Buffer.duplicate]
          exact Buffer.size_overwrite (by rwa [copied])
        have after : ((m.bufferAt buffer).duplicate source target length).detached = false := by
          simpa only [Buffer.duplicate, Buffer.overwrite] using attached
        exact paged.modify buffer attached after sized

instance (start : Nat) (data : ByteArray) : Preserves IsPaged (write start data).run := by
  unfold write
  infer_instance

instance (source target length : Nat) :
    Preserves IsPaged (copyWithin source target length).run := by
  unfold copyWithin
  infer_instance

instance (buffer index : Nat) (word : UInt32) :
    Preserves IsPaged (setWordAt buffer index word).run := by
  unfold setWordAt
  infer_instance

instance (start : Nat) (data : ByteArray) : Preserves IsPaged (writeBytes start data).run := by
  unfold writeBytes
  infer_instance

instance (start length : Nat) : Preserves IsPaged (readBytes start length).run := by
  unfold readBytes
  infer_instance

instance (slot : Nat) (first second : UInt32) :
    Preserves IsPaged (writePair slot first second).run := by
  unfold writePair
  infer_instance

instance (slot : Nat) : Preserves IsPaged (readPair slot).run := by
  unfold readPair
  infer_instance

theorem IsPaged.detachAt (paged : m.IsPaged) (buffer : Nat) :
    IsPaged (m.detachAt buffer).2 := by
  refine paged.of_buffer rfl ?_
  simp only [Memory.detachAt, Memory.buffer, bufferAt, Array.set!_eq_setIfInBounds,
    Array.getElem?_setIfInBounds]
  by_cases own : buffer = m.current
  · subst own
    simp only [↓reduceIte]
    split
    · exact .inr (.inl rfl)
    · exact .inr (.inl rfl)
  · simp [own]

/-- Nothing that can be done to a memory breaks its pages, but to put other bytes in its place. -/
theorem Access.preserves (access : Access) (kept : ∀ bytes, access ≠ .replaceBuffer bytes) :
    Preserves IsPaged access.perform.run := by
  cases access with
  | replaceBuffer bytes => exact absurd rfl (kept bytes)
  | detachAt buffer => exact ⟨fun m paged => paged.detachAt buffer⟩
  | _ =>
    unfold perform
    infer_instance

end SandboxBridge.Memory

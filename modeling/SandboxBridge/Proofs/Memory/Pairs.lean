import SandboxBridge.Proofs.Memory.Generations
import SandboxBridge.Proofs.Memory.Words

/-!
Writing a pair of words, seen from every memory that anyone can bring about. The pair is written
whole or the memory stays as it was, but for a slot whose second word alone is out of reach: there
the first word is written before the second is refused.
-/

namespace SandboxBridge.Memory

open Work

variable {m m' : Memory} {slot index : Nat} {first second word : UInt32}

def Emptied (m : Memory) : Prop :=
  ∀ buffer, (m.bufferAt buffer).detached = true → (m.bufferAt buffer).size = 0

theorem Emptied.of_bufferAt (emptied : m.Emptied)
    (each : ∀ buffer, m'.bufferAt buffer = m.bufferAt buffer ∨ m'.bufferAt buffer = .gone ∨
      (m'.bufferAt buffer).detached = false) : m'.Emptied := by
  intro buffer detached
  rcases each buffer with same | gone | attached
  · rw [same] at detached ⊢
    exact emptied buffer detached
  · rw [gone]
    rfl
  · rw [attached] at detached
    cases detached

theorem emptied_single (contents : ByteArray) (m : Memory)
    (single : m.buffers = #[.ofBytes contents]) : m.Emptied := by
  intro buffer detached
  rw [bufferAt, single] at detached ⊢
  rcases buffer with _ | buffer
  · cases detached
  · rfl

theorem Emptied.modify (emptied : m.Emptied) (buffer : Nat) {f : Buffer → Buffer}
    (attached : (m.bufferAt buffer).detached = false)
    (kept : ∀ b, (f b).detached = b.detached) :
    Emptied { m with buffers := m.buffers.modify buffer f } := by
  refine emptied.of_bufferAt fun other => ?_
  simp only [bufferAt, Array.getElem?_modify] at attached ⊢
  split
  next own =>
    subst own
    cases found : m.buffers[buffer]? with
    | none => exact .inl rfl
    | some b =>
      rw [found] at attached
      exact .inr (.inr ((kept b).trans attached))
  next => exact .inl rfl

theorem Emptied.detachAt (emptied : m.Emptied) (buffer : Nat) : Emptied (m.detachAt buffer).2 := by
  refine emptied.of_bufferAt fun other => ?_
  simp only [Memory.detachAt, bufferAt, Array.set!_eq_setIfInBounds, Array.getElem?_setIfInBounds]
  split
  next =>
    split
    · exact .inr (.inl rfl)
    · exact .inr (.inl rfl)
  next => exact .inl rfl

theorem Emptied.replaceBuffer (emptied : m.Emptied) (bytes : ByteArray) :
    (m.replaceBuffer bytes).Emptied := by
  refine emptied.of_bufferAt fun other => ?_
  simp only [Memory.replaceBuffer, bufferAt, Array.getElem?_push]
  split
  · exact .inr (.inr rfl)
  · exact .inl rfl

theorem Emptied.of_same_buffers (emptied : m.Emptied) (same : m'.buffers = m.buffers) :
    m'.Emptied := by
  refine emptied.of_bufferAt fun buffer => .inl ?_
  rw [bufferAt, same, bufferAt]

instance (count : Nat) : Preserves Emptied (grow count).run where
  allowed m emptied := by
    change Emptied ((grow count).run m).2
    rw [run_grow]
    cases m.room count with
    | error e => exact emptied
    | ok previous =>
      dsimp only
      split
      · exact emptied
      · exact ((emptied.detachAt m.current).replaceBuffer _).of_same_buffers rfl

instance (kind : ViewKind) : Preserves Emptied (fetch kind).run where
  allowed m emptied := emptied.of_same_buffers (view_buffers m kind).1

instance (buffer start : Nat) (data : ByteArray) :
    Preserves Emptied (writeAt buffer start data).run where
  allowed m emptied := by
    change Emptied ((writeAt buffer start data).run m).2
    unfold writeAt modifyBuffer
    simp only [run_bind, run_get, run_liftExcept, run_modify]
    cases passed : (m.bufferAt buffer).check start data.size with
    | error e => exact emptied
    | ok _ => exact emptied.modify buffer (check_eq_ok passed).1 fun _ => rfl

instance (buffer source target length : Nat) :
    Preserves Emptied (copyWithinAt buffer source target length).run where
  allowed m emptied := by
    change Emptied ((copyWithinAt buffer source target length).run m).2
    unfold copyWithinAt modifyBuffer
    simp only [run_bind, run_get, run_liftExcept, run_modify]
    cases passed : (m.bufferAt buffer).check source length with
    | error e => exact emptied
    | ok _ =>
      dsimp only
      cases (m.bufferAt buffer).check target length with
      | error e => exact emptied
      | ok _ =>
        refine emptied.modify buffer (check_eq_ok passed).1 fun b => ?_
        rw [Buffer.duplicate, Buffer.overwrite]

instance (start : Nat) (data : ByteArray) : Preserves Emptied (write start data).run := by
  unfold write
  infer_instance

instance (source target length : Nat) :
    Preserves Emptied (copyWithin source target length).run := by
  unfold copyWithin
  infer_instance

instance (buffer index : Nat) (word : UInt32) :
    Preserves Emptied (setWordAt buffer index word).run := by
  unfold setWordAt
  infer_instance

instance (slot : Nat) (first second : UInt32) :
    Preserves Emptied (writePair slot first second).run := by
  unfold writePair
  infer_instance

instance (slot : Nat) : Preserves Emptied (readPair slot).run := by
  unfold readPair
  infer_instance

theorem Access.preserves_emptied (access : Access) : Preserves Emptied access.perform.run := by
  cases access with
  | detachAt buffer => exact ⟨fun m emptied => emptied.detachAt buffer⟩
  | replaceBuffer bytes => exact ⟨fun m emptied => emptied.replaceBuffer bytes⟩
  | _ =>
    unfold perform
    infer_instance

theorem Emptied.after (emptied : m.Emptied) (accesses : List Access) :
    (m.after accesses).Emptied := by
  induction accesses generalizing m with
  | nil => exact emptied
  | cons access rest ih => exact ih (access.preserves_emptied.allowed m emptied)

theorem attached_of_size (emptied : m.Emptied) (filled : 0 < m.size) :
    m.buffer.detached = false := by
  cases detached : m.buffer.detached with
  | false => rfl
  | true =>
    have empty : m.size = 0 := emptied m.current detached
    omega

inductive Origin where
  | pages (count : Nat) (most : Option Nat)
  | bytes (contents : ByteArray)

def Origin.memory : Origin → Memory
  | .pages count most => ofPages count most
  | .bytes contents => ofBytes contents

theorem Origin.emptied (origin : Origin) : origin.memory.Emptied := by
  cases origin with
  | pages count most => exact emptied_single _ _ rfl
  | bytes contents => exact emptied_single _ _ rfl

/-! One word. -/

/-- The memory has the word at the address, and the address fits 32 bits. -/
def HasWord (m : Memory) (address : Nat) : Prop :=
  m.buffer.detached = false ∧ address + 4 ≤ m.size ∧ address < UInt32.size

theorem run_setWordAt {buffer : Nat} (current : buffer = m.current) (word : UInt32)
    (has : m.HasWord (index * 4)) :
    (setWordAt buffer index word).run m =
      (.ok (), m.overwritten (index * 4) (wordBytes word)) := by
  subst current
  obtain ⟨attached, fits, narrow⟩ := has
  unfold setWordAt wordOffset
  rw [if_pos narrow, run_bind_ok (run_liftExcept _ _)]
  change (write (index * 4) (wordBytes word)).run m = _
  rw [run_write, size_wordBytes, check_ok attached fits]

theorem setWordAt_refused {buffer : Nat} (current : buffer = m.current) (word : UInt32)
    (lacks : ¬m.HasWord (index * 4)) :
    ∃ e, (setWordAt buffer index word).run m = (.error e, m) := by
  subst current
  unfold setWordAt wordOffset
  by_cases narrow : index * 4 < UInt32.size
  · rw [if_pos narrow, run_bind_ok (run_liftExcept _ _)]
    change ∃ e, (write (index * 4) (wordBytes word)).run m = (.error e, m)
    rw [run_write, size_wordBytes]
    cases checked : m.buffer.check (index * 4) 4 with
    | error e => exact ⟨e, rfl⟩
    | ok _ =>
      obtain ⟨attached, fits⟩ := check_eq_ok checked
      exact absurd ⟨attached, fits, narrow⟩ lacks
  · rw [if_neg narrow]
    exact ⟨_, rfl⟩

theorem HasWord.of_same_buffer {address : Nat} (same : m'.buffer = m.buffer) :
    m'.HasWord address ↔ m.HasWord address := by
  unfold HasWord size
  rw [same]

def halfway (m : Memory) (slot : Nat) (word : UInt32) : Memory :=
  (m.view .words).2.overwritten slot (wordBytes word)

theorem current_halfway (m : Memory) (slot : Nat) (word : UInt32) :
    m.current = (m.halfway slot word).current :=
  (view_buffers m .words).2.symm

theorem HasWord.fetched (has : m.HasWord slot) (word : UInt32) :
    (m.view .words).2.buffer.detached = false ∧
      slot + (wordBytes word).size ≤ (m.view .words).2.size := by
  obtain ⟨attached, fits, -⟩ := (HasWord.of_same_buffer (buffer_view m .words)).mpr has
  exact ⟨attached, fits⟩

theorem HasWord.size_halfway (has : m.HasWord slot) (word : UInt32) :
    (m.halfway slot word).size = m.size := by
  obtain ⟨attached, fits⟩ := has.fetched word
  rw [halfway, size_overwritten attached fits, size, buffer_view, size]

theorem HasWord.halfway_iff (has : m.HasWord slot) (word : UInt32) {address : Nat} :
    (m.halfway slot word).HasWord address ↔ m.HasWord address := by
  obtain ⟨attached, fits⟩ := has.fetched word
  have attached' := (retains_overwritten attached fits (Nat.le_refl slot)).attached attached
  change (m.halfway slot word).buffer.detached = false at attached'
  unfold HasWord
  rw [has.size_halfway, attached', has.1]

theorem HasWord.holds_halfway (has : m.HasWord slot) (word : UInt32) :
    (m.halfway slot word).Holds slot (wordBytes word) := by
  obtain ⟨attached, fits⟩ := has.fetched word
  exact holds_overwritten attached fits

theorem HasWord.byte?_halfway (has : m.HasWord slot) (word : UInt32) {address : Nat}
    (outside : ¬(slot ≤ address ∧ address < slot + 4)) :
    (m.halfway slot word).byte? address = m.byte? address := by
  obtain ⟨attached, fits⟩ := has.fetched word
  rw [halfway, byte?_overwritten attached fits, size_wordBytes, if_neg outside, byte?,
    buffer_view, byte?]

/-- Of the two words at an aligned slot, the first is in reach and the second is not. -/
def Splits (m : Memory) (slot : Nat) : Prop :=
  slot % 4 = 0 ∧ slot + 4 ≤ m.size ∧ ¬(slot + 8 ≤ m.size ∧ slot + 4 < UInt32.size)

/-- Writing a pair succeeds exactly at an aligned slot inside the memory. It then changes the eight
bytes there, from which the pair can be read, and otherwise no byte at all. -/
structure AllOrNothing (m : Memory) (slot : Nat) (first second : UInt32) : Prop where
  succeeds : ((writePair slot first second).run m).1 = .ok () ↔
    slot % 4 = 0 ∧ slot + 8 ≤ m.size
  whole : ∀ m', (writePair slot first second).run m = (.ok (), m') →
    m.Paired slot first second m' ∧ m'.size = m.size ∧
      ((readPair slot).run m').1 = .ok (first, second)
  nothing : ∀ e m', (writePair slot first second).run m = (.error e, m') →
    m'.buffers = m.buffers ∧ m'.current = m.current

/-- Writing a pair fails after it has written the first of the two words. -/
def Half (m : Memory) (slot : Nat) (first second : UInt32) : Prop :=
  ∃ e m', (writePair slot first second).run m = (.error e, m') ∧ m'.size = m.size ∧
    m'.Holds slot (wordBytes first) ∧
    ∀ address, ¬(slot ≤ address ∧ address < slot + 4) → m'.byte? address = m.byte? address

theorem writePair_misaligned (odd : slot % 4 ≠ 0) (first second : UInt32) :
    (writePair slot first second).run m = (.error .misalignedSlot, m) := by
  unfold writePair slotIndex
  rw [if_neg odd]
  rfl

theorem run_writePair (aligned : slot % 4 = 0) (first second : UInt32) (m : Memory) :
    (writePair slot first second).run m =
      (setWordAt (m.view .words).1.buffer (slot / 4) first >>= fun _ =>
        setWordAt (m.view .words).1.buffer (slot / 4 + 1) second).run (m.view .words).2 := by
  unfold writePair slotIndex
  rw [if_pos aligned, run_bind_ok (run_liftExcept _ _), run_fetch_bind]

theorem writePair_lacking (aligned : slot % 4 = 0) (lacks : ¬m.HasWord slot)
    (first second : UInt32) :
    ∃ e, (writePair slot first second).run m = (.error e, (m.view .words).2) := by
  obtain ⟨index, rfl⟩ : ∃ index, slot = index * 4 := ⟨slot / 4, by omega⟩
  have lacks : ¬(m.view .words).2.HasWord (index * 4) := by
    rwa [HasWord.of_same_buffer (buffer_view m .words)]
  obtain ⟨e, refused⟩ := setWordAt_refused (view_current m .words) first lacks
  rw [run_writePair aligned, Nat.mul_div_cancel _ (by decide : 0 < 4), run_bind, refused]
  exact ⟨e, rfl⟩

/-- With the first word in reach, it is written before anything is known about the second. -/
theorem writePair_reaching (aligned : slot % 4 = 0) (has : m.HasWord slot)
    (first second : UInt32) :
    (writePair slot first second).run m =
      (setWordAt m.current (slot / 4 + 1) second).run (m.halfway slot first) := by
  obtain ⟨index, rfl⟩ : ∃ index, slot = index * 4 := ⟨slot / 4, by omega⟩
  have has : (m.view .words).2.HasWord (index * 4) := by
    rwa [HasWord.of_same_buffer (buffer_view m .words)]
  have wrote := run_setWordAt (view_current m .words) first has
  rw [run_writePair aligned, Nat.mul_div_cancel _ (by decide : 0 < 4), run_bind_ok wrote,
    view_buffer, halfway]

theorem half_of_lacking (aligned : slot % 4 = 0) (has : m.HasWord slot)
    (lacks : ¬m.HasWord (slot + 4)) (first second : UInt32) : m.Half slot first second := by
  have late : ¬(m.halfway slot first).HasWord ((slot / 4 + 1) * 4) := by
    rwa [show (slot / 4 + 1) * 4 = slot + 4 by omega, has.halfway_iff]
  obtain ⟨e, refused⟩ := setWordAt_refused (current_halfway m slot first) second late
  exact ⟨e, _, (writePair_reaching aligned has first second).trans refused,
    has.size_halfway first, has.holds_halfway first, fun _ => has.byte?_halfway first⟩

theorem writePair_whole (aligned : slot % 4 = 0) (has : m.HasWord slot)
    (has' : m.HasWord (slot + 4)) (first second : UInt32) :
    ∃ m', (writePair slot first second).run m = (.ok (), m') ∧ m'.size = m.size := by
  have late : (m.halfway slot first).HasWord ((slot / 4 + 1) * 4) := by
    rwa [show (slot / 4 + 1) * 4 = slot + 4 by omega, has.halfway_iff]
  have fits : (slot / 4 + 1) * 4 + (wordBytes second).size ≤ (m.halfway slot first).size :=
    late.2.1
  refine ⟨_, (writePair_reaching aligned has first second).trans
    (run_setWordAt (current_halfway m slot first) second late), ?_⟩
  rw [size_overwritten late.1 fits, has.size_halfway]

theorem allOrNothing_of_refused {e : Error}
    (ran : (writePair slot first second).run m = (.error e, m'))
    (same : m'.buffers = m.buffers ∧ m'.current = m.current)
    (unfit : ¬(slot % 4 = 0 ∧ slot + 8 ≤ m.size)) : m.AllOrNothing slot first second := by
  constructor
  · rw [ran]
    exact ⟨nofun, fun fit => absurd fit unfit⟩
  · rw [ran]
    rintro _ ⟨⟩
  · rw [ran]
    rintro _ _ ⟨⟩
    exact same

theorem allOrNothing_of_reach (aligned : slot % 4 = 0) (has : m.HasWord slot)
    (has' : m.HasWord (slot + 4)) (first second : UInt32) : m.AllOrNothing slot first second := by
  obtain ⟨m', ran, size⟩ := writePair_whole aligned has has' first second
  constructor
  · rw [ran]
    exact ⟨fun _ => ⟨aligned, has'.2.1⟩, fun _ => rfl⟩
  · rw [ran]
    rintro _ ⟨⟩
    have paired := writePair_eq_ok ran
    exact ⟨paired, size, congrArg Prod.fst paired.holds.readPair⟩
  · rw [ran]
    rintro _ _ ⟨⟩

/-- In every memory that comes of any accesses, a pair is written whole or not at all, unless the
slot splits: then half of it is written. -/
theorem writePair_settled (origin : Origin) (accesses : List Access)
    (slot first second : UInt32) :
    let m := origin.memory.after accesses
    (¬m.Splits slot.toNat → m.AllOrNothing slot.toNat first second) ∧
      (m.Splits slot.toNat → m.Half slot.toNat first second) := by
  intro m
  have attached : 0 < m.size → m.buffer.detached = false :=
    attached_of_size (origin.emptied.after accesses)
  have narrow : slot.toNat < UInt32.size := slot.toNat_lt
  constructor
  · intro together
    by_cases aligned : slot.toNat % 4 = 0
    · by_cases fits : slot.toNat + 4 ≤ m.size
      · have both : slot.toNat + 8 ≤ m.size ∧ slot.toNat + 4 < UInt32.size := by
          by_contra apart
          exact together ⟨aligned, fits, apart⟩
        have attached := attached (by omega)
        exact allOrNothing_of_reach aligned ⟨attached, fits, narrow⟩
          ⟨attached, both.1, both.2⟩ first second
      · obtain ⟨e, ran⟩ := writePair_lacking aligned (fun has => fits has.2.1) first second
        exact allOrNothing_of_refused ran (view_buffers m .words) (by omega)
    · exact allOrNothing_of_refused (writePair_misaligned aligned first second) ⟨rfl, rfl⟩
        fun fit => aligned fit.1
  · rintro ⟨aligned, fits, apart⟩
    exact half_of_lacking aligned ⟨attached (by omega), fits, narrow⟩
      (fun has => apart ⟨has.2.1, has.2.2⟩) first second

/-- At the last word of a page, half of a pair is written. -/
theorem writePair_not_allOrNothing : ¬(ofPages 1 none).AllOrNothing 65532 1 2 := by
  intro law
  have size : (ofPages 1 none).size = 65536 := size_zeros _
  have byte : (ofPages 1 none).byte? 65532 = some 0 := by
    change (zeros (1 * pageSize)).data[65532]? = some 0
    rw [data_zeros, Array.getElem?_replicate]
    rfl
  have has : (ofPages 1 none).HasWord 65532 := ⟨rfl, by omega, by decide⟩
  have lacks : ¬(ofPages 1 none).HasWord (65532 + 4) := fun has => by
    have := has.2.1
    omega
  obtain ⟨e, m', ran, -, holds, -⟩ := half_of_lacking (by decide) has lacks 1 2
  have changed : m'.byte? 65532 = some 1 := holds 0 (by decide)
  obtain ⟨buffers, current⟩ := law.nothing e m' ran
  rw [byte?, buffer, bufferAt, buffers, current] at changed
  rw [byte?, buffer, bufferAt, changed] at byte
  cases byte

end SandboxBridge.Memory

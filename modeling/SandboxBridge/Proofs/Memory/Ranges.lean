import SandboxBridge.Proofs.Memory.Words

/-!
Accesses to one buffer, by bytes or by words. An access succeeds exactly when all that it touches is
inside the buffer. It then changes what it names and nothing else, and if it fails it changes
nothing.
-/

namespace SandboxBridge

open Work

/-- The number that bytes stand for, least significant byte first. -/
def littleEndian (bytes : ByteArray) : Nat :=
  bytes.data.toList.foldr (fun byte value => byte.toNat + 256 * value) 0

theorem littleEndian_wordBytes (word : UInt32) : littleEndian (wordBytes word) = word.toNat := by
  have bound := word.toNat_lt
  change word.toUInt8.toNat + 256 * ((word >>> 8).toUInt8.toNat + 256 *
    ((word >>> 16).toUInt8.toNat + 256 * ((word >>> 24).toUInt8.toNat + 256 * 0))) = word.toNat
  simp only [UInt32.toNat_toUInt8, UInt32.toNat_shiftRight, Nat.shiftRight_eq_div_pow,
    UInt32.reduceToNat, Nat.reduceMod, Nat.reducePow]
  omega

theorem exists_wordBytes {bytes : ByteArray} (four : bytes.size = 4) :
    ∃ word, wordBytes word = bytes := by
  obtain ⟨⟨list⟩⟩ := bytes
  match list, four with
  | [a, b, c, d], _ =>
    have boundA := a.toNat_lt
    have boundB := b.toNat_lt
    have boundC := c.toNat_lt
    have boundD := d.toNat_lt
    refine ⟨.ofNat (a.toNat + 256 * (b.toNat + 256 * (c.toNat + 256 * d.toNat))), ?_⟩
    simp only [wordBytes, ByteArray.mk.injEq, Array.mk.injEq, List.cons.injEq, and_true,
      ← UInt8.toNat_inj, UInt32.toNat_toUInt8, UInt32.toNat_shiftRight, UInt32.toNat_ofNat',
      Nat.shiftRight_eq_div_pow, UInt32.reduceToNat, Nat.reduceMod, Nat.reducePow]
    omega

theorem toNat_bytesWord {bytes : ByteArray} (four : bytes.size = 4) :
    (bytesWord bytes).toNat = littleEndian bytes := by
  obtain ⟨word, rfl⟩ := exists_wordBytes four
  rw [bytesWord_wordBytes, littleEndian_wordBytes]

namespace Memory

variable {m m' : Memory} {buffer start source target length index : Nat} {data : ByteArray}

def sizeAt (m : Memory) (buffer : Nat) : Nat :=
  (m.bufferAt buffer).size

/-- The byte of a buffer at an offset; `none` outside the buffer. -/
def byteAt? (m : Memory) (buffer offset : Nat) : Option UInt8 :=
  (m.bufferAt buffer).byte? offset

/-- The second memory is the first one with `data` at `start` of one buffer. -/
structure Rewrites (m : Memory) (buffer start : Nat) (data : ByteArray) (m' : Memory) : Prop where
  bytes : ∀ offset, m'.byteAt? buffer offset =
    if start ≤ offset ∧ offset < start + data.size then data.data[offset - start]?
    else m.byteAt? buffer offset
  size : m'.sizeAt buffer = m.sizeAt buffer
  attached : (m'.bufferAt buffer).detached = (m.bufferAt buffer).detached
  others : ∀ other, other ≠ buffer → m'.bufferAt other = m.bufferAt other
  rest : m' = { m with buffers := m'.buffers }

def rewritten (m : Memory) (buffer start : Nat) (data : ByteArray) : Memory :=
  { m with buffers := m.buffers.modify buffer (·.overwrite start data) }

theorem bufferAt_rewritten (attached : (m.bufferAt buffer).detached = false) (start : Nat)
    (data : ByteArray) :
    (m.rewritten buffer start data).bufferAt buffer = (m.bufferAt buffer).overwrite start data := by
  unfold bufferAt at attached ⊢
  rw [rewritten, Array.getElem?_modify, if_pos rfl]
  cases found : m.buffers[buffer]? with
  | none => simp [found, Buffer.gone] at attached
  | some b => rfl

theorem bufferAt_rewritten_other {other : Nat} (different : other ≠ buffer) (start : Nat)
    (data : ByteArray) : (m.rewritten buffer start data).bufferAt other = m.bufferAt other := by
  unfold bufferAt
  rw [rewritten, Array.getElem?_modify, if_neg (Ne.symm different)]

theorem rewrites_rewritten (attached : (m.bufferAt buffer).detached = false)
    (fits : start + data.size ≤ m.sizeAt buffer) :
    m.Rewrites buffer start data (m.rewritten buffer start data) := by
  have there := bufferAt_rewritten attached start data
  refine ⟨fun offset => ?_, ?_, by rw [there]; rfl, fun other different => ?_, rfl⟩
  · rw [byteAt?, there]
    exact Buffer.byte?_overwrite fits offset
  · rw [sizeAt, there]
    exact Buffer.size_overwrite fits
  · exact bufferAt_rewritten_other different start data

theorem check_attached (attached : (m.bufferAt buffer).detached = false) (start length : Nat) :
    (m.bufferAt buffer).check start length =
      if start + length ≤ m.sizeAt buffer then .ok () else .error .outOfBounds := by
  rw [Buffer.check, attached, if_neg Bool.false_ne_true, sizeAt]

theorem readAt_eq (attached : (m.bufferAt buffer).detached = false) (start length : Nat) :
    m.readAt buffer start length =
      if start + length ≤ m.sizeAt buffer then
        .ok ((m.bufferAt buffer).bytes.extract start (start + length))
      else .error .outOfBounds := by
  rw [readAt, Buffer.read, check_attached attached]
  split <;> rfl

theorem size_extract (fits : start + length ≤ m.sizeAt buffer) :
    ((m.bufferAt buffer).bytes.extract start (start + length)).size = length := by
  have fits : start + length ≤ (m.bufferAt buffer).bytes.size := fits
  rw [ByteArray.size_extract]
  omega

theorem byte_extract (fits : start + length ≤ m.sizeAt buffer) {offset : Nat}
    (inside : offset < length) :
    ((m.bufferAt buffer).bytes.extract start (start + length)).data[offset]? =
      m.byteAt? buffer (start + offset) := by
  have fits : start + length ≤ (m.bufferAt buffer).bytes.data.size := fits
  rw [ByteArray.data_extract, Array.getElem?_extract, if_pos (by omega)]
  rfl

theorem run_writeAt (attached : (m.bufferAt buffer).detached = false) (start : Nat)
    (data : ByteArray) :
    (writeAt buffer start data).run m =
      if start + data.size ≤ m.sizeAt buffer then (.ok (), m.rewritten buffer start data)
      else (.error .outOfBounds, m) := by
  unfold writeAt modifyBuffer
  simp only [run_bind, run_get, run_liftExcept, run_modify, check_attached attached]
  by_cases fits : start + data.size ≤ m.sizeAt buffer
  · rw [if_pos fits, if_pos fits]
    rfl
  · rw [if_neg fits, if_neg fits]

theorem run_copyWithinAt (attached : (m.bufferAt buffer).detached = false)
    (source target length : Nat) :
    (copyWithinAt buffer source target length).run m =
      if source + length ≤ m.sizeAt buffer ∧ target + length ≤ m.sizeAt buffer then
        (.ok (), m.rewritten buffer target
          ((m.bufferAt buffer).bytes.extract source (source + length)))
      else (.error .outOfBounds, m) := by
  unfold copyWithinAt modifyBuffer
  simp only [run_bind, run_get, run_liftExcept, run_modify, check_attached attached]
  by_cases within : source + length ≤ m.sizeAt buffer
  · by_cases fits : target + length ≤ m.sizeAt buffer
    · rw [if_pos within, if_pos ⟨within, fits⟩]
      simp only [check_attached attached, if_pos fits, modify_duplicate, rewritten]
    · rw [if_pos within, if_neg fun both => fits both.2]
      simp only [check_attached attached, if_neg fits]
  · rw [if_neg within, if_neg fun both => within both.1]

theorem wordOffset_eq (bounded : m.sizeAt buffer ≤ UInt32.size) (index : Nat) :
    wordOffset index = .ok (4 * index) ∨
      (wordOffset index = .error .wordIndexOutOfRange ∧ ¬index < m.sizeAt buffer / 4) := by
  unfold wordOffset
  rw [Nat.mul_comm]
  by_cases narrow : 4 * index < UInt32.size
  · exact .inl (if_pos narrow)
  · exact .inr ⟨if_neg narrow, by omega⟩

theorem getWordAt_eq (attached : (m.bufferAt buffer).detached = false)
    (bounded : m.sizeAt buffer ≤ UInt32.size) (index : Nat) :
    ∃ e, m.getWordAt buffer index =
      if index < m.sizeAt buffer / 4 then
        .ok (bytesWord ((m.bufferAt buffer).bytes.extract (4 * index) (4 * index + 4)))
      else .error e := by
  unfold getWordAt
  rcases wordOffset_eq bounded index with found | ⟨refused, outside⟩
  · refine ⟨.outOfBounds, ?_⟩
    rw [found]
    change (m.readAt buffer (4 * index) 4 >>= fun bytes => pure (bytesWord bytes)) = _
    rw [readAt_eq attached]
    split
    next inside =>
      rw [if_pos (by omega)]
      rfl
    next outside =>
      rw [if_neg (by omega)]
      rfl
  · exact ⟨.wordIndexOutOfRange, by rw [refused, if_neg outside]; rfl⟩

theorem run_setWordAt_eq (attached : (m.bufferAt buffer).detached = false)
    (bounded : m.sizeAt buffer ≤ UInt32.size) (index : Nat) (word : UInt32) :
    ∃ e, (setWordAt buffer index word).run m =
      if index < m.sizeAt buffer / 4 then (.ok (), m.rewritten buffer (4 * index) (wordBytes word))
      else (.error e, m) := by
  unfold setWordAt
  rcases wordOffset_eq bounded index with found | ⟨refused, outside⟩
  · refine ⟨.outOfBounds, ?_⟩
    rw [found, run_bind_ok (run_liftExcept _ _), run_writeAt attached, size_wordBytes]
    split
    next inside => rw [if_pos (by omega)]
    next outside => rw [if_neg (by omega)]
  · exact ⟨.wordIndexOutOfRange, by rw [refused, if_neg outside]; rfl⟩

/-! All accesses. -/

/-- Work that succeeds exactly under a condition, and does nothing if it fails. -/
structure Checked (m : Memory) (work : Action Unit) (condition : Prop) (effect : Memory → Prop) :
    Prop where
  succeeds_iff : (work.run m).1 = .ok () ↔ condition
  done : ∀ m', work.run m = (.ok (), m') → effect m'
  refused : ∀ e m', work.run m = (.error e, m') → m' = m

theorem checked_of_run {work : Action Unit} {condition : Prop} [Decidable condition]
    {effect : Memory → Prop} {e : Error}
    (ran : work.run m = if condition then (.ok (), m') else (.error e, m))
    (holds : condition → effect m') : m.Checked work condition effect := by
  by_cases met : condition
  · rw [if_pos met] at ran
    refine ⟨by rw [ran]; exact ⟨fun _ => met, fun _ => rfl⟩, ?_, ?_⟩
    · rw [ran]
      rintro _ ⟨⟩
      exact holds met
    · rw [ran]
      rintro _ _ ⟨⟩
  · rw [if_neg met] at ran
    refine ⟨by rw [ran]; exact ⟨nofun, fun condition => absurd condition met⟩, ?_, ?_⟩
    · rw [ran]
      rintro _ ⟨⟩
    · rw [ran]
      rintro _ _ ⟨⟩
      rfl

/-- How each access to a buffer ends. Words are counted from the start of the buffer, and what is
left of it after the last whole word belongs to none. -/
structure Exact (m : Memory) (buffer : Nat) : Prop where
  read_iff : ∀ start length,
    (∃ data, m.readAt buffer start length = .ok data) ↔ start + length ≤ m.sizeAt buffer
  read : ∀ start length data, m.readAt buffer start length = .ok data →
    data.size = length ∧
      ∀ offset < length, data.data[offset]? = m.byteAt? buffer (start + offset)
  write : ∀ start data, m.Checked (writeAt buffer start data)
    (start + data.size ≤ m.sizeAt buffer) (m.Rewrites buffer start data)
  copy : ∀ source target length, m.Checked (copyWithinAt buffer source target length)
    (source + length ≤ m.sizeAt buffer ∧ target + length ≤ m.sizeAt buffer) fun m' =>
      ∃ snapshot, m.readAt buffer source length = .ok snapshot ∧
        m.Rewrites buffer target snapshot m'
  get_iff : ∀ index, (∃ word, m.getWordAt buffer index = .ok word) ↔ index < m.sizeAt buffer / 4
  get : ∀ index word, m.getWordAt buffer index = .ok word →
    ∃ bytes, m.readAt buffer (4 * index) 4 = .ok bytes ∧ word.toNat = littleEndian bytes
  set : ∀ index word, m.Checked (setWordAt buffer index word) (index < m.sizeAt buffer / 4)
    fun m' => ∃ bytes, bytes.size = 4 ∧ littleEndian bytes = word.toNat ∧
      m.Rewrites buffer (4 * index) bytes m'

/-- Bytes and words of a buffer that is no longer than 32 bits can address are the same bytes, and
every access to them is exact. -/
theorem exact_of_attached (attached : (m.bufferAt buffer).detached = false)
    (bounded : m.sizeAt buffer ≤ UInt32.size) : m.Exact buffer where
  read_iff start length := by
    rw [readAt_eq attached]
    split
    next fits => exact ⟨fun _ => fits, fun _ => ⟨_, rfl⟩⟩
    next outside => exact ⟨nofun, fun fits => absurd fits outside⟩
  read start length data found := by
    rw [readAt_eq attached] at found
    split at found
    next fits =>
      cases found
      exact ⟨size_extract fits, fun offset => byte_extract fits⟩
    next => cases found
  write start data := checked_of_run (run_writeAt attached start data) (rewrites_rewritten attached)
  copy source target length := by
    refine checked_of_run (run_copyWithinAt attached source target length) ?_
    rintro ⟨within, fits⟩
    refine ⟨_, by rw [readAt_eq attached, if_pos within], rewrites_rewritten attached ?_⟩
    rwa [size_extract within]
  get_iff index := by
    obtain ⟨e, found⟩ := getWordAt_eq attached bounded index
    rw [found]
    split
    next inside => exact ⟨fun _ => inside, fun _ => ⟨_, rfl⟩⟩
    next outside => exact ⟨nofun, fun inside => absurd inside outside⟩
  get index word found := by
    obtain ⟨e, answer⟩ := getWordAt_eq attached bounded index
    rw [answer] at found
    split at found
    next inside =>
      cases found
      have fits : 4 * index + 4 ≤ m.sizeAt buffer := by omega
      exact ⟨_, by rw [readAt_eq attached, if_pos fits], toNat_bytesWord (size_extract fits)⟩
    next => cases found
  set index word := by
    obtain ⟨e, ran⟩ := run_setWordAt_eq attached bounded index word
    refine checked_of_run ran fun inside => ?_
    have fits : 4 * index + (wordBytes word).size ≤ m.sizeAt buffer := by
      rw [size_wordBytes]
      omega
    exact ⟨_, size_wordBytes word, littleEndian_wordBytes word, rewrites_rewritten attached fits⟩

/-- A buffer of seven bytes has one word, and what would be the next one is refused. -/
theorem exact_of_ragged :
    let m := ofBytes ⟨#[1, 2, 3, 4, 5, 6, 7]⟩
    (m.bufferAt 0).detached = false ∧ m.sizeAt 0 ≤ UInt32.size ∧ m.Exact 0 ∧
      (∃ word, m.getWordAt 0 0 = .ok word) ∧ ¬∃ word, m.getWordAt 0 1 = .ok word := by
  intro m
  have exact : m.Exact 0 := exact_of_attached rfl (by decide)
  exact ⟨rfl, by decide, exact, (exact.get_iff 0).mpr (by decide),
    fun found => absurd ((exact.get_iff 1).mp found) (by decide)⟩

end Memory

end SandboxBridge

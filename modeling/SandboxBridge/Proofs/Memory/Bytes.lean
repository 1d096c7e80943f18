import SandboxBridge.Memory
import SandboxBridge.Proofs.Work

/-!
The bytes of a memory, one address at a time. A write changes the bytes of its range and no others,
and goes to the current buffer whatever view was kept from earlier.
-/

namespace SandboxBridge

namespace Buffer

/-- The byte at an offset; `none` outside the buffer. -/
def byte? (b : Buffer) (offset : Nat) : Option UInt8 :=
  b.bytes.data[offset]?

variable {b : Buffer}

theorem overwrite_bytes (b : Buffer) (start : Nat) (data : ByteArray) :
    (b.overwrite start data).bytes.data = b.bytes.data.extract 0 start ++ data.data ++
      b.bytes.data.extract (start + data.data.size) b.bytes.data.size := by
  simp [overwrite, ByteArray.copySlice, ← ByteArray.size_data]

theorem size_overwrite {start : Nat} {data : ByteArray} (fits : start + data.size ≤ b.size) :
    (b.overwrite start data).size = b.size := by
  have sizes : start + data.data.size ≤ b.bytes.data.size := fits
  change (b.overwrite start data).bytes.data.size = b.bytes.data.size
  rw [overwrite_bytes, Array.size_append, Array.size_append, Array.size_extract, Array.size_extract]
  omega

theorem byte?_overwrite {start : Nat} {data : ByteArray} (fits : start + data.size ≤ b.size)
    (offset : Nat) :
    (b.overwrite start data).byte? offset =
      if start ≤ offset ∧ offset < start + data.size then data.data[offset - start]?
      else b.byte? offset := by
  have sizes : start + data.data.size ≤ b.bytes.data.size := fits
  have front : (b.bytes.data.extract 0 start).size = start := by
    rw [Array.size_extract]
    omega
  have spliced : (b.bytes.data.extract 0 start ++ data.data).size = start + data.data.size := by
    rw [Array.size_append, front]
  rw [byte?, overwrite_bytes, Array.getElem?_append, spliced, Array.getElem?_append, front,
    ← ByteArray.size_data]
  by_cases before : offset < start
  · rw [if_pos (by omega), if_pos before, if_neg (by omega), Array.getElem?_extract,
      if_pos (by omega), byte?, Nat.zero_add]
  · by_cases within : offset < start + data.data.size
    · rw [if_pos within, if_neg before, if_pos ⟨by omega, within⟩]
    · rw [if_neg within, if_neg (fun both => within both.2), Array.getElem?_extract, byte?]
      split
      · congr 1
        omega
      · rw [Array.getElem?_eq_none (by omega)]

end Buffer

namespace Memory

/-- The byte at an address; `none` outside the memory. -/
def byte? (m : Memory) (address : Nat) : Option UInt8 :=
  m.buffer.byte? address

def Holds (m : Memory) (start : Nat) (data : ByteArray) : Prop :=
  ∀ offset < data.size, m.byte? (start + offset) = data.data[offset]?

variable {m : Memory}

theorem view_buffer (m : Memory) (kind : ViewKind) : (m.view kind).1.buffer = m.current := by
  unfold view
  split
  next kept _ =>
    split
    next same => exact same
    next => cases kind <;> rfl
  next => cases kind <;> rfl

theorem view_eq (m : Memory) (kind : ViewKind) : ∃ byteView wordView rebuilds,
    (m.view kind).2 = { m with byteView, wordView, rebuilds } := by
  unfold view
  split
  next =>
    split
    next => exact ⟨_, _, _, rfl⟩
    next => cases kind <;> exact ⟨_, _, _, rfl⟩
  next => cases kind <;> exact ⟨_, _, _, rfl⟩

theorem view_buffers (m : Memory) (kind : ViewKind) :
    (m.view kind).2.buffers = m.buffers ∧ (m.view kind).2.current = m.current := by
  obtain ⟨_, _, _, viewed⟩ := m.view_eq kind
  rw [viewed]
  exact ⟨rfl, rfl⟩

theorem view_pages (m : Memory) (kind : ViewKind) : (m.view kind).2.pages = m.pages := by
  obtain ⟨_, _, _, viewed⟩ := m.view_eq kind
  rw [viewed]

theorem view_pageLimit (m : Memory) (kind : ViewKind) :
    (m.view kind).2.pageLimit = m.pageLimit := by
  obtain ⟨_, _, _, viewed⟩ := m.view_eq kind
  rw [viewed]
  rfl

theorem view_bufferAt (m : Memory) (kind : ViewKind) (buffer : Nat) :
    (m.view kind).2.bufferAt buffer = m.bufferAt buffer := by
  rw [bufferAt, (view_buffers m kind).1, bufferAt]

theorem buffer_view (m : Memory) (kind : ViewKind) : (m.view kind).2.buffer = m.buffer := by
  rw [buffer, view_bufferAt, (view_buffers m kind).2, buffer]

theorem view_current (m : Memory) (kind : ViewKind) :
    (m.view kind).1.buffer = (m.view kind).2.current := by
  rw [view_buffer, (view_buffers m kind).2]

theorem run_fetch_bind {α : Type} (kind : ViewKind) (next : View → Action α) (m : Memory) :
    (fetch kind >>= next).run m = (next (m.view kind).1).run (m.view kind).2 := by
  rw [Work.run_bind, fetch, Work.run_modifyGet]

theorem buffers_current (attached : m.buffer.detached = false) :
    m.buffers[m.current]? = some m.buffer := by
  unfold buffer bufferAt at attached ⊢
  cases found : m.buffers[m.current]? with
  | none => simp [found, Buffer.gone] at attached
  | some b => rfl

theorem check_ok {start length : Nat} (attached : m.buffer.detached = false)
    (fits : start + length ≤ m.size) : m.buffer.check start length = .ok () := by
  have within : start + length ≤ m.buffer.size := fits
  unfold Buffer.check
  rw [attached, if_neg Bool.false_ne_true, if_pos within]

def written (m : Memory) (start : Nat) (data : ByteArray) : Memory :=
  { (m.view .bytes).2 with buffers := m.buffers.modify m.current (·.overwrite start data) }

theorem run_writeBytes (m : Memory) (start : Nat) (data : ByteArray) :
    (writeBytes start data).run m = match m.buffer.check start data.size with
      | .ok () => (.ok (), m.written start data)
      | .error e => (.error e, (m.view .bytes).2) := by
  obtain ⟨buffers, current⟩ := view_buffers m .bytes
  unfold writeBytes fetch writeAt modifyBuffer
  simp only [Work.run_bind, Work.run_get, Work.run_modifyGet, Work.run_liftExcept, Work.run_modify,
    view_bufferAt, view_buffer]
  rw [show m.bufferAt m.current = m.buffer from rfl]
  cases m.buffer.check start data.size with
  | error e => rfl
  | ok done => simp only [written, buffers]

theorem writeBytes_ok {start : Nat} {data : ByteArray} (attached : m.buffer.detached = false)
    (fits : start + data.size ≤ m.size) :
    (writeBytes start data).run m = (.ok (), m.written start data) := by
  rw [run_writeBytes, check_ok attached fits]

theorem buffer_written (attached : m.buffer.detached = false) (start : Nat) (data : ByteArray) :
    (m.written start data).buffer = m.buffer.overwrite start data := by
  simp only [written, buffer, bufferAt, (view_buffers m .bytes).2, Array.getElem?_modify,
    ↓reduceIte]
  rw [buffers_current attached]
  rfl

theorem detached_written (attached : m.buffer.detached = false) (start : Nat) (data : ByteArray) :
    (m.written start data).buffer.detached = false := by
  rw [buffer_written attached]
  exact attached

theorem size_written {start : Nat} {data : ByteArray} (attached : m.buffer.detached = false)
    (fits : start + data.size ≤ m.size) : (m.written start data).size = m.size := by
  rw [size, buffer_written attached]
  exact Buffer.size_overwrite fits

theorem byte?_written {start : Nat} {data : ByteArray} (attached : m.buffer.detached = false)
    (fits : start + data.size ≤ m.size) (address : Nat) :
    (m.written start data).byte? address =
      if start ≤ address ∧ address < start + data.size then data.data[address - start]?
      else m.byte? address := by
  rw [byte?, buffer_written attached]
  exact Buffer.byte?_overwrite fits address

theorem holds_written {start : Nat} {data : ByteArray} (attached : m.buffer.detached = false)
    (fits : start + data.size ≤ m.size) : (m.written start data).Holds start data := by
  intro offset inside
  rw [byte?_written attached fits, if_pos (by omega), Nat.add_sub_cancel_left]

theorem Holds.written {start place : Nat} {data held : ByteArray} (holds : m.Holds place held)
    (attached : m.buffer.detached = false) (fits : start + data.size ≤ m.size)
    (apart : place + held.size ≤ start ∨ start + data.size ≤ place) :
    (m.written start data).Holds place held := by
  intro offset inside
  rw [byte?_written attached fits, if_neg (by omega)]
  exact holds offset inside

theorem Holds.append {start : Nat} {front rest : ByteArray} (first : m.Holds start front)
    (second : m.Holds (start + front.size) rest) : m.Holds start (front ++ rest) := by
  intro offset inside
  rw [ByteArray.size_append] at inside
  rw [ByteArray.data_append, Array.getElem?_append, ByteArray.size_data]
  split
  next early => exact first offset early
  next late =>
    have found := second (offset - front.size) (by omega)
    rwa [show start + front.size + (offset - front.size) = start + offset by omega] at found

theorem read_of_holds {start : Nat} {data : ByteArray} (attached : m.buffer.detached = false)
    (fits : start + data.size ≤ m.size) (holds : m.Holds start data) :
    m.read start data.size = .ok data := by
  have within : start + data.data.size ≤ m.buffer.bytes.data.size := fits
  have same : m.buffer.bytes.extract start (start + data.size) = data := by
    apply ByteArray.ext
    rw [ByteArray.data_extract]
    apply Array.ext_getElem?
    intro offset
    rw [Array.getElem?_extract, ← ByteArray.size_data]
    split
    next inside => exact holds offset (by rw [← ByteArray.size_data]; omega)
    next outside => rw [Array.getElem?_eq_none (by omega)]
  change m.buffer.read start data.size = .ok data
  unfold Buffer.read
  rw [check_ok attached fits, same]
  rfl

end Memory

end SandboxBridge

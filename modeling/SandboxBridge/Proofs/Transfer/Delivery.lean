import SandboxBridge.Proofs.Transfer.Supply

/-!
Encoding delivers a string whole, whatever the allocator does within its promises: the block has the
exact length and the bytes of the string, and decoding it gives the string back.
-/

namespace SandboxBridge.Transfer

variable {σ : Type}

def byteCount : List Char → Nat
  | [] => 0
  | c :: rest => c.utf8Size + byteCount rest

theorem size_utf8Encode (text : List Char) : text.utf8Encode.size = byteCount text := by
  induction text with
  | nil => simp [byteCount]
  | cons c rest ih =>
    rw [List.utf8Encode_cons, ByteArray.size_append, ih, List.utf8Encode_singleton,
      List.size_toByteArray, String.length_utf8EncodeChar, byteCount]

theorem utf8ByteSize_eq (s : String) : s.utf8ByteSize = byteCount s.toList := by
  rw [← size_utf8Encode, String.utf8Encode_toList, String.size_toByteArray]

theorem utf8Size_of_isAscii {c : Char} (ascii : isAscii c) : c.utf8Size = 1 := by
  rw [Char.utf8Size_eq_one_iff, UInt32.le_iff_toNat_le]
  have below : c.toNat < 128 := by simpa [isAscii] using ascii
  exact Nat.le_of_lt_succ below

theorem byteCount_le (text : List Char) : byteCount text ≤ maxCharLength * text.length := by
  induction text with
  | nil => simp [byteCount]
  | cons c rest ih =>
    have short : c.utf8Size ≤ maxCharLength := c.utf8Size_le_four
    rw [byteCount, List.length_cons, Nat.mul_succ]
    omega

def plainLength (text : List Char) : Nat :=
  (text.takeWhile isAscii).length

theorem plainLength_cons_ascii {c : Char} (ascii : isAscii c) (rest : List Char) :
    plainLength (c :: rest) = plainLength rest + 1 := by
  rw [plainLength, List.takeWhile_cons_of_pos ascii, List.length_cons, plainLength]

theorem plainLength_cons_other {c : Char} (other : ¬isAscii c) (rest : List Char) :
    plainLength (c :: rest) = 0 := by
  rw [plainLength, List.takeWhile_cons_of_neg other, List.length_nil]

theorem byteCount_between (text : List Char) :
    plainLength text ≤ text.length ∧ plainLength text ≤ byteCount text ∧
      byteCount text ≤ plainLength text + maxCharLength * (text.length - plainLength text) := by
  induction text with
  | nil => simp [byteCount, plainLength]
  | cons c rest ih =>
    by_cases ascii : isAscii c
    · rw [plainLength_cons_ascii ascii, byteCount, utf8Size_of_isAscii ascii, List.length_cons,
        Nat.add_sub_add_right]
      omega
    · rw [plainLength_cons_other ascii, Nat.zero_add, Nat.sub_zero]
      exact ⟨Nat.zero_le _, Nat.zero_le _, byteCount_le _⟩

/-- The longest form of a string is the ASCII prefix and four bytes for each character after it. -/
def worstLength (s : String) : Nat :=
  asciiLength s + maxCharLength * (s.length - asciiLength s)

theorem lengths_between (s : String) :
    asciiLength s ≤ s.length ∧ asciiLength s ≤ s.utf8ByteSize ∧
      s.utf8ByteSize ≤ worstLength s := by
  rw [utf8ByteSize_eq, ← String.length_toList]
  exact byteCount_between s.toList

theorem prefix_append_rest (s : String) :
    s.toUTF8.extract 0 (asciiLength s) ++ s.toUTF8.extract (asciiLength s) s.utf8ByteSize =
      s.toUTF8 := by
  obtain ⟨_, within, _⟩ := lengths_between s
  have size : s.toUTF8.size = s.utf8ByteSize := rfl
  rw [ByteArray.extract_append_extract, Nat.zero_min, Nat.max_eq_right within, ← size,
    ByteArray.extract_zero_size]

theorem size_front (s : String) : (s.toUTF8.extract 0 (asciiLength s)).size = asciiLength s := by
  obtain ⟨_, within, _⟩ := lengths_between s
  have size : s.toUTF8.size = s.utf8ByteSize := rfl
  rw [ByteArray.size_extract, size]
  omega

theorem size_rest (s : String) :
    (s.toUTF8.extract (asciiLength s) s.utf8ByteSize).size = s.utf8ByteSize - asciiLength s := by
  have size : s.toUTF8.size = s.utf8ByteSize := rfl
  rw [ByteArray.size_extract, size, Nat.min_self]

theorem checkLength_ok {n : Nat} (small : n < UInt32.size) : checkLength n = .ok n :=
  if_pos small

variable (a : Supplier σ) (s : String)

def Delivered (extent : Extent) (w : Surroundings σ) : Prop :=
  extent.length = s.utf8ByteSize ∧ Block extent.start extent.length s.toUTF8 w

variable {s}

theorem Block.delivered {start length : Nat} {w : Surroundings σ} (exact : length = s.utf8ByteSize)
    (block : Block start length s.toUTF8 w) : Delivered s ⟨start, length⟩ w :=
  ⟨exact, block⟩

theorem secures_encodeExact (offersRealloc : Bool) (fits : s.utf8ByteSize < UInt32.size) :
    Secures Current (encodeExact (a.provider offersRealloc) s) (Delivered s) := by
  apply Secures.given (checkLength_ok fits)
  apply (a.secures_malloc fits).bind
  intro start
  have room : ByteArray.empty.size + s.toUTF8.size ≤ s.utf8ByteSize := Nat.le_of_eq (Nat.zero_add _)
  apply (Supplier.secures_write room).bind
  intro _
  apply Secures.pure
  intro w block
  rw [ByteArray.empty_append] at block
  exact block.delivered rfl

theorem secures_encodeGrowing (small : worstLength s < UInt32.size)
    (other : asciiLength s ≠ s.utf8ByteSize) :
    Secures Current
      (encodeGrowing (a.provider true)
        (fun start oldSize newSize =>
          Supplier.call (some ⟨start, oldSize⟩) newSize (a.realloc start oldSize newSize))
        s (asciiLength s))
      (Delivered s) := by
  obtain ⟨_, within, longest⟩ := lengths_between s
  have front := size_front s
  have back := size_rest s
  have whole := prefix_append_rest s
  have size : s.toUTF8.size = s.utf8ByteSize := rfl
  rw [worstLength, Nat.mul_comm] at longest small
  unfold encodeGrowing
  generalize s.toUTF8.extract 0 (asciiLength s) = first at front whole ⊢
  generalize s.toUTF8.extract (asciiLength s) s.utf8ByteSize = rest at back whole ⊢
  generalize s.length - asciiLength s = remaining at longest small ⊢
  rw [← front] at within longest small other back ⊢
  -- The sizes asked for, in the order of the calls: one byte, four bytes, the real length.
  have atLeast : remaining ≤ remaining * maxCharLength := Nat.le_mul_of_pos_right _ (by decide)
  have worst : remaining * maxCharLength + first.size < UInt32.size := by omega
  have grows : first.size ≤ min (first.size + remaining)
      (remaining * maxCharLength + first.size) := by omega
  have room : first.size + rest.size ≤ remaining * maxCharLength + first.size := by omega
  have exact : first.size + rest.size = s.utf8ByteSize := by omega
  apply Secures.given (checkLength_ok (by omega))
  apply Secures.given (checkLength_ok (by omega))
  apply Secures.given (checkLength_ok (by omega))
  -- The ASCII prefix goes into the first block.
  apply (a.secures_malloc (by omega)).bind
  intro start
  have space : ByteArray.empty.size + first.size ≤ first.size + remaining := by
    rw [ByteArray.size_empty]
    omega
  apply (Supplier.secures_write space).bind
  intro _
  rw [ByteArray.empty_append]
  apply Secures.given (checkLength_ok worst)
  apply Secures.idle
  -- The block grows to the worst case of what is left, and the rest goes behind the prefix.
  apply (a.secures_realloc worst grows).bind
  intro moved
  apply Secures.unrefused
  · intro w block
    have fits := block.fits
    omega
  apply (Supplier.secures_write room).bind
  intro _
  apply Secures.given (checkLength_ok (by omega))
  -- If the worst case has been too much, the block shrinks to what is written.
  simp only [exact, whole]
  split
  next same =>
    apply Secures.pure
    intro w block
    rw [← same] at block
    exact block.delivered rfl
  next =>
    apply (a.secures_realloc (by omega) (by omega)).bind
    intro moved
    apply Secures.pure
    intro w block
    exact block.delivered rfl

theorem secures_encode (offersRealloc asciiFirst : Bool) (small : worstLength s < UInt32.size) :
    Secures Current (encode (a.provider offersRealloc) asciiFirst s) (Delivered s) := by
  obtain ⟨_, _, longest⟩ := lengths_between s
  have fits : s.utf8ByteSize < UInt32.size := Nat.lt_of_le_of_lt longest small
  cases offersRealloc with
  | false => exact secures_encodeExact a false fits
  | true =>
    change Secures Current (if asciiFirst then _ else _) _
    split
    · split
      next => exact secures_encodeExact a true fits
      next other => exact secures_encodeGrowing a small other
    · exact secures_encodeExact a true fits

theorem decode_of_holds {m : Memory} {start : Nat} (attached : m.buffer.detached = false)
    (fits : start + s.utf8ByteSize ≤ m.size) (holds : m.Holds start s.toUTF8) :
    ((decode start s.utf8ByteSize).run m).1 = .ok s := by
  have found : (m.bufferAt m.current).read start s.utf8ByteSize = .ok s.toUTF8 :=
    Memory.read_of_holds attached fits holds
  have valid : String.fromUTF8? s.toUTF8 = some s := dif_pos s.isValidUTF8
  unfold decode Memory.readBytes Memory.fetch Memory.readAt
  simp only [Work.run_bind, Work.run_modifyGet, Work.run_get, Work.run_liftExcept,
    Memory.view_bufferAt, Memory.view_buffer, found, valid, Work.run_pure]

theorem toUTF8_of_fromUTF8? {bytes : ByteArray} (valid : String.fromUTF8? bytes = some s) :
    s.toUTF8 = bytes := by
  unfold String.fromUTF8? at valid
  split at valid
  next =>
    cases valid
    rfl
  next => cases valid

theorem decode_eq_ok {m m' : Memory} {start length : Nat}
    (decoded : (decode start length).run m = (.ok s, m')) :
    m.read start length = .ok s.toUTF8 ∧ m'.buffer = m.buffer := by
  unfold decode Memory.readBytes at decoded
  obtain ⟨bytes, between, found, decoded⟩ := Work.bind_eq_ok decoded
  rw [Memory.run_fetch_bind, Work.run_bind_ok (Work.run_get _), Work.run_liftExcept, Memory.readAt,
    Memory.view_bufferAt, Memory.view_buffer] at found
  have read : m.read start length = .ok bytes := congrArg Prod.fst found
  have rest : (m.view .bytes).2 = between := congrArg Prod.snd found
  subst rest
  rw [read]
  split at decoded
  next valid =>
    cases decoded
    rw [toUTF8_of_fromUTF8? valid]
    exact ⟨rfl, Memory.buffer_view m .bytes⟩
  next => cases decoded

/-- From wherever the allocator and the memory start, encoding gives an extent of the exact length.
The memory reads as the string there, decoding returns it, the allocator was last asked for just
that size of just that block, and no byte was written through a view of a detached buffer. -/
theorem encode_delivers (a : Supplier σ) (offersRealloc asciiFirst : Bool) (s : String) (own : σ)
    (memory : Memory)
    (small : asciiLength s + maxCharLength * (s.length - asciiLength s) < UInt32.size)
    (kept : PromisesKept
      ((encode (a.provider offersRealloc) asciiFirst s).run ⟨own, memory, [], []⟩).2.grants) :
    ∃ start after,
      (encode (a.provider offersRealloc) asciiFirst s).run ⟨own, memory, [], []⟩ =
        (.ok ⟨start, s.utf8ByteSize⟩, after) ∧
      after.memory.read start s.utf8ByteSize = .ok s.toUTF8 ∧
      ((decode start s.utf8ByteSize).run after.memory).1 = .ok s ∧
      (∃ last ∈ after.grants.head?, start ∈ last.place ∧ last.size = s.utf8ByteSize) ∧
      ∀ access ∈ after.accesses,
        access.1.buffer = access.2.current ∧ access.2.buffer.detached = false := by
  have secures := secures_encode a offersRealloc asciiFirst small
  obtain ⟨⟨start, length⟩, result, exact, block⟩ :=
    secures.succeeds ⟨own, memory, [], []⟩ (fun _ none => nomatch none) kept
  simp only at exact block
  subst exact
  have fits := Nat.le_trans block.fits (Nat.min_le_left _ _)
  exact ⟨start, _, Prod.ext result rfl, Memory.read_of_holds block.attached fits block.holds,
    decode_of_holds block.attached fits block.holds, block.granted, block.current⟩

def Supplier.moving : Supplier Unit where
  malloc size _ memory :=
    let bytes := memory.buffer.bytes
    (.ok bytes.size, (), memory.replaceBuffer (bytes ++ ⟨.replicate size 0⟩))
  realloc start oldSize newSize _ memory :=
    let bytes := memory.buffer.bytes
    let kept := bytes.extract start (start + min oldSize newSize)
    (.ok bytes.size, (), memory.replaceBuffer
      (bytes ++ kept ++ ⟨.replicate (newSize - oldSize) 0⟩))

theorem encode_delivers_moving :
    PromisesKept ((encode (Supplier.moving.provider true) true "aé").run
      ⟨(), .ofBytes .empty, [], []⟩).2.grants ∧
    ∃ start after,
      (encode (Supplier.moving.provider true) true "aé").run ⟨(), .ofBytes .empty, [], []⟩ =
        (.ok ⟨start, "aé".utf8ByteSize⟩, after) ∧
      after.memory.read start "aé".utf8ByteSize = .ok "aé".toUTF8 := by
  have kept : PromisesKept ((encode (Supplier.moving.provider true) true "aé").run
      ⟨(), .ofBytes .empty, [], []⟩).2.grants := by
    decide +kernel
  obtain ⟨start, after, result, stands, _⟩ :=
    encode_delivers Supplier.moving true true "aé" () (.ofBytes .empty) (by decide) kept
  exact ⟨kept, start, after, result, stands⟩

end SandboxBridge.Transfer

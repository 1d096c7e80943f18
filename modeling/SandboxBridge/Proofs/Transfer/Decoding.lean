import SandboxBridge.Proofs.Imports.Demands
import SandboxBridge.Proofs.Transfer.Paths
import SandboxBridge.Proofs.Transfer.Utf8

/-!
Decoding, byte by byte. The bytes of a range are decoded when they spell a text, and to that text
alone. A range that is not inside the memory is refused, and so is one in which something malformed
stands after the spelling of a text; a buffer that has been detached refuses every range, the empty
one too. What has been decoded is encoded to the same bytes.
-/

namespace SandboxBridge

namespace Memory

def slice (m : Memory) (start length : Nat) : List UInt8 :=
  (m.buffer.bytes.data.toList.drop start).take length

theorem read_eq (m : Memory) (start length : Nat) : m.read start length =
    if m.buffer.detached then .error .detached
    else if start + length ≤ m.size then .ok ⟨(m.slice start length).toArray⟩
    else .error .outOfBounds := by
  have bytes : m.buffer.bytes.extract start (start + length) =
      ⟨(m.slice start length).toArray⟩ := by
    apply ByteArray.ext
    apply Array.toList_inj.mp
    rw [ByteArray.data_extract, Array.toList_extract, List.extract_eq_take_drop,
      Nat.add_sub_cancel_left, slice]
  change m.buffer.read start length = _
  unfold Buffer.read Buffer.check size
  rw [bytes]
  split
  · rfl
  · split <;> rfl

theorem length_slice {m : Memory} {start length : Nat} (inside : start + length ≤ m.size) :
    (m.slice start length).length = length := by
  have whole : m.buffer.bytes.data.size = m.size := rfl
  rw [slice, List.length_take, List.length_drop, Array.length_toList, whole]
  omega

theorem slice_eq_of_read {m : Memory} {start length : Nat} {bytes : ByteArray}
    (read : m.read start length = .ok bytes) : m.slice start length = bytes.data.toList := by
  rw [read_eq] at read
  split at read
  · cases read
  · split at read
    · cases read
      rfl
    · cases read

end Memory

namespace Transfer

/-- How a range of a memory is decoded. -/
inductive Decodes (m : Memory) (start length : Nat) : Except Error String → Prop
  | text {s : String} (attached : m.buffer.detached = false) (inside : start + length ≤ m.size)
    (spells : Utf8.Spells s.toList (m.slice start length)) : Decodes m start length (.ok s)
  | malformed {text : List Char} {front bad : List UInt8} (attached : m.buffer.detached = false)
    (inside : start + length ≤ m.size) (parts : m.slice start length = front ++ bad)
    (spells : Utf8.Spells text front) (malformed : Utf8.Malformed bad) :
    Decodes m start length (.error .malformedUtf8)
  | outside (attached : m.buffer.detached = false) (past : m.size < start + length) :
    Decodes m start length (.error .outOfBounds)
  | detached (gone : m.buffer.detached = true) : Decodes m start length (.error .detached)

theorem fromUTF8?_eq_some_iff {bytes : ByteArray} {s : String} :
    String.fromUTF8? bytes = some s ↔ Utf8.Spells s.toList bytes.data.toList := by
  have stored : (s.toList.flatMap String.utf8EncodeChar).toByteArray = s.toUTF8 :=
    String.utf8Encode_toList
  rw [Utf8.spells_iff]
  constructor
  · intro valid
    rw [← toUTF8_of_fromUTF8? valid, ← stored, List.data_toByteArray]
  · intro same
    have whole : s.toUTF8 = bytes := by
      rw [← stored, same]
      apply ByteArray.ext
      rw [List.data_toByteArray, Array.toArray_toList]
    subst whole
    exact dif_pos s.isValidUTF8

theorem eq_of_spells {bytes : List UInt8} {s t : String} (spells : Utf8.Spells s.toList bytes)
    (again : Utf8.Spells t.toList bytes) : s = t := by
  let stored : ByteArray := ⟨bytes.toArray⟩
  have first : String.fromUTF8? stored = some s := fromUTF8?_eq_some_iff.mpr spells
  have second : String.fromUTF8? stored = some t := fromUTF8?_eq_some_iff.mpr again
  exact Option.some.inj (first.symm.trans second)

theorem fromUTF8?_eq_none_iff {bytes : ByteArray} :
    String.fromUTF8? bytes = none ↔ ∀ text, ¬Utf8.Spells text bytes.data.toList := by
  rw [Option.eq_none_iff_forall_ne_some]
  constructor
  · intro none text spells
    rw [← String.toList_ofList (l := text)] at spells
    exact none _ (fromUTF8?_eq_some_iff.mpr spells)
  · intro none s valid
    exact none _ (fromUTF8?_eq_some_iff.mp valid)

theorem text_decodes (m : Memory) (start length : Nat) :
    Decodes m start length (m.text start length) := by
  unfold Memory.text
  rw [Memory.read_eq]
  cases gone : m.buffer.detached with
  | true => exact .detached gone
  | false =>
    rw [if_neg Bool.false_ne_true]
    by_cases inside : start + length ≤ m.size
    · rw [if_pos inside]
      simp only [bind, Except.bind]
      cases valid : String.fromUTF8? ⟨(m.slice start length).toArray⟩ with
      | some s => exact .text gone inside (fromUTF8?_eq_some_iff.mp valid)
      | none =>
        rcases Utf8.spells_or_malformed (m.slice start length) with
          ⟨text, spells⟩ | ⟨text, front, bad, parts, spells, malformed⟩
        · exact absurd spells (fromUTF8?_eq_none_iff.mp valid text)
        · exact .malformed gone inside parts spells malformed
    · rw [if_neg inside]
      exact .outside gone (by omega)

theorem Decodes.unique {m : Memory} {start length : Nat} {answer other : Except Error String}
    (first : Decodes m start length answer) (second : Decodes m start length other) :
    answer = other := by
  cases first with
  | text attached inside spells =>
    cases second with
    | text _ _ again => exact congrArg Except.ok (eq_of_spells spells again)
    | malformed _ _ parts first malformed =>
      rw [parts] at spells
      exact absurd spells (malformed.not_spells_append first)
    | outside _ past => omega
    | detached gone => cases attached.symm.trans gone
  | malformed attached inside parts first malformed =>
    cases second with
    | text _ _ spells =>
      rw [parts] at spells
      exact absurd spells (malformed.not_spells_append first)
    | malformed => rfl
    | outside _ past => omega
    | detached gone => cases attached.symm.trans gone
  | outside attached past =>
    cases second with
    | text _ inside _ => omega
    | malformed _ inside _ _ _ => omega
    | outside => rfl
    | detached gone => cases attached.symm.trans gone
  | detached gone =>
    cases second with
    | text attached _ _ => cases attached.symm.trans gone
    | malformed attached _ _ _ _ => cases attached.symm.trans gone
    | outside attached _ => cases attached.symm.trans gone
    | detached => rfl

/-! Encoding again. -/

variable {σ : Type}

theorem worst_of_encodeGrowing {p : Provider σ}
    {resize : Nat → Nat → Nat → ExceptT Error (StateM σ) Nat} {s : String} {before after : σ}
    {extent : Extent}
    (done : (encodeGrowing p resize s (asciiLength s)).run before = (.ok extent, after)) :
    worstLength s < UInt32.size := by
  unfold encodeGrowing at done
  obtain ⟨_, _, step, done⟩ := Work.bind_eq_ok done
  obtain ⟨-, rfl, -⟩ := checked_eq_ok step
  obtain ⟨_, _, step, done⟩ := Work.bind_eq_ok done
  obtain ⟨-, rfl, -⟩ := checked_eq_ok step
  obtain ⟨_, _, -, done⟩ := Work.bind_eq_ok done
  obtain ⟨_, _, -, done⟩ := Work.bind_eq_ok done
  obtain ⟨_, _, -, done⟩ := Work.bind_eq_ok done
  obtain ⟨_, _, step, -⟩ := Work.bind_eq_ok done
  obtain ⟨small, -, -⟩ := checked_eq_ok step
  rwa [(sizes_asked s).2.1] at small

theorem secures_of_encoded {a : Supplier σ} {offersRealloc asciiFirst : Bool} {s : String}
    {before after : Surroundings σ} {extent : Extent}
    (done : (encode (a.provider offersRealloc) asciiFirst s).run before = (.ok extent, after)) :
    Secures Current (encode (a.provider offersRealloc) asciiFirst s) (Delivered s) := by
  have exact (offers : Bool)
      (done : (encodeExact (a.provider offers) s).run before = (.ok extent, after)) :
      Secures Current (encodeExact (a.provider offers) s) (Delivered s) := by
    obtain ⟨_, _, step, -⟩ := Work.bind_eq_ok done
    exact secures_encodeExact a offers (checked_eq_ok step).1
  rcases offersRealloc, asciiFirst with ⟨_ | _, _ | _⟩
  · exact exact false done
  · exact exact false done
  · exact exact true done
  · by_cases ascii : asciiLength s = s.utf8ByteSize
    · have same : encode (a.provider true) true s = encodeExact (a.provider true) s := if_pos ascii
      rw [same] at done ⊢
      exact exact true done
    · have same : encode (a.provider true) true s = _ := if_neg ascii
      rw [same] at done
      exact secures_encode a true true (worst_of_encodeGrowing done)

/-- The answer of decoding is fixed by the bytes in the range, and decoding changes none. A string
that has been decoded is encoded, over any allocator that keeps its promises, to the bytes that it
has been decoded from, at least where its worst case fits 32 bits. -/
theorem decode_iff (m : Memory) (start length : Nat) :
    (∀ answer, ((decode start length).run m).1 = answer ↔ Decodes m start length answer) ∧
    ((decode start length).run m).2.buffer = m.buffer ∧
    ∀ s, ((decode start length).run m).1 = .ok s →
      ∀ (σ : Type) (a : Supplier σ) (offersRealloc asciiFirst : Bool) (own : σ) (memory : Memory),
      let encoded := (encode (a.provider offersRealloc) asciiFirst s).run ⟨own, memory, [], []⟩
      PromisesKept encoded.2.grants →
        (worstLength s < UInt32.size → ∃ extent, encoded.1 = .ok extent) ∧
        ∀ extent, encoded.1 = .ok extent → extent.length = length ∧
          extent.start + length ≤ encoded.2.memory.size ∧
          encoded.2.memory.slice extent.start length = m.slice start length := by
  have decodes := text_decodes m start length
  have ran := run_decode start length m
  refine ⟨fun answer => ?_, ?_, ?_⟩
  · rw [ran]
    exact ⟨fun same => same ▸ decodes, decodes.unique⟩
  · rw [ran]
    exact Memory.buffer_view m .bytes
  intro s decoded σ a offersRealloc asciiFirst own memory encoded kept
  have begun : Current (⟨own, memory, [], []⟩ : Surroundings σ) := fun _ none => nomatch none
  constructor
  · intro small
    obtain ⟨extent, done, -⟩ :=
      (secures_encode a offersRealloc asciiFirst small).succeeds _ begun kept
    exact ⟨extent, done⟩
  · intro extent done
    -- The block holds the bytes of `s`, which are those that `s` was decoded from.
    obtain ⟨_, same, size, block⟩ :=
      (secures_of_encoded (Prod.ext done rfl)).succeeds _ begun kept
    cases done.symm.trans same
    have bytes := Memory.slice_eq_of_read (decode_eq_ok (Prod.ext decoded rfl)).1
    have exact : s.toUTF8.size = length := by
      rw [ran] at decoded
      rw [show m.text start length = .ok s from decoded] at decodes
      cases decodes with
      | text attached inside spells =>
        rw [← Memory.length_slice inside, bytes, Array.length_toList]
        rfl
    have whole : extent.length = s.toUTF8.size := size
    have fits : extent.start + s.toUTF8.size ≤ encoded.2.memory.size :=
      whole ▸ Nat.le_trans block.fits (Nat.min_le_left _ _)
    refine ⟨whole.trans exact, exact ▸ fits, ?_⟩
    rw [bytes, ← exact]
    exact Memory.slice_eq_of_read (Memory.read_of_holds block.attached fits block.holds)

theorem decode_iff_moving :
    ((decode 0 3).run (.ofBytes "aé".toUTF8)).1 = .ok "aé" ∧
    ∃ extent after,
      (encode (Supplier.moving.provider true) true "aé").run ⟨(), .ofBytes .empty, [], []⟩ =
        (.ok extent, after) ∧
      extent.length = 3 ∧ after.memory.slice extent.start 3 = [0x61, 0xC3, 0xA9] := by
  obtain ⟨answers, -, again⟩ := decode_iff (.ofBytes "aé".toUTF8) 0 3
  have bytes : (Memory.ofBytes "aé".toUTF8).slice 0 3 = [0x61, 0xC3, 0xA9] := by decide +kernel
  have spells : Utf8.Spells "aé".toList ((Memory.ofBytes "aé".toUTF8).slice 0 3) :=
    Utf8.spells_iff.mpr (by decide +kernel)
  have decoded := (answers (.ok "aé")).mpr (.text rfl (by decide +kernel) spells)
  obtain ⟨succeeds, same⟩ :=
    again "aé" decoded Unit Supplier.moving true true () (.ofBytes .empty) (by decide +kernel)
  obtain ⟨extent, done⟩ := succeeds (by decide +kernel)
  obtain ⟨length, -, slice⟩ := same extent done
  exact ⟨decoded, extent, _, Prod.ext done rfl, length, slice.trans bytes⟩

/-- A buffer that has been detached is empty, and still the empty range is not decoded. -/
theorem decode_detached :
    0 + 0 ≤ ((Memory.ofBytes "abc".toUTF8).detachAt 0).2.size ∧
    Utf8.Spells "".toList (((Memory.ofBytes "abc".toUTF8).detachAt 0).2.slice 0 0) ∧
    ((decode 0 0).run ((Memory.ofBytes "abc".toUTF8).detachAt 0).2).1 = .error .detached := by
  refine ⟨Nat.zero_le _, .nil, ?_⟩
  rw [run_decode]
  exact (text_decodes _ 0 0).unique (.detached rfl)

end Transfer

end SandboxBridge

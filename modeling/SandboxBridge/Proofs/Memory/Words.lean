import SandboxBridge.Proofs.Allocator.Retention

/-!
The pair of words at a return slot: what is written there is read back, and nothing else changes.
-/

namespace SandboxBridge

open Work

theorem bytesWord_wordBytes (word : UInt32) : bytesWord (wordBytes word) = word := by
  change word.toUInt8.toUInt32 ||| ((word >>> 8).toUInt8.toUInt32 <<< 8) |||
    ((word >>> 16).toUInt8.toUInt32 <<< 16) ||| ((word >>> 24).toUInt8.toUInt32 <<< 24) = word
  apply UInt32.toBitVec_inj.mp
  simp only [UInt32.toBitVec_or, UInt32.toBitVec_shiftLeft, UInt8.toBitVec_toUInt32,
    UInt32.toBitVec_toUInt8, UInt32.toBitVec_shiftRight]
  ext i inside
  simp only [UInt32.toBitVec_ofNat, BitVec.ofNat_eq_ofNat, BitVec.reduceMod,
    BitVec.ushiftRight_eq', BitVec.toNat_ofNat, Nat.reducePow, Nat.reduceMod, BitVec.shiftLeft_eq',
    BitVec.getElem_or, BitVec.getElem_setWidth, BitVec.getLsbD_setWidth, BitVec.getElem_shiftLeft,
    BitVec.getLsbD_ushiftRight]
  grind

namespace Memory

variable {m m' : Memory} {slot index : Nat} {first second word : UInt32}

theorem size_wordBytes (word : UInt32) : (wordBytes word).size = 4 :=
  rfl

theorem setWordAt_eq_ok {buffer : Nat} (current : buffer = m.current)
    (ran : (setWordAt buffer index word).run m = (.ok (), m')) :
    m.buffer.detached = false ∧ index * 4 + 4 ≤ m.size ∧ index * 4 < UInt32.size ∧
      m' = m.overwritten (index * 4) (wordBytes word) := by
  subst current
  unfold setWordAt wordOffset at ran
  rw [run_bind, run_liftExcept] at ran
  by_cases narrow : index * 4 < UInt32.size
  · rw [if_pos narrow] at ran
    change (write (index * 4) (wordBytes word)).run m = _ at ran
    rw [run_write] at ran
    cases checked : m.buffer.check (index * 4) (wordBytes word).size with
    | error e =>
      rw [checked] at ran
      cases ran
    | ok _ =>
      rw [checked] at ran
      cases ran
      obtain ⟨attached, fits⟩ := check_eq_ok checked
      exact ⟨attached, fits, narrow, rfl⟩
  · rw [if_neg narrow] at ran
    cases ran

theorem getWordAt_of_holds {buffer : Nat} (current : buffer = m.current)
    (attached : m.buffer.detached = false) (narrow : index * 4 < UInt32.size)
    (fits : index * 4 + 4 ≤ m.size) (holds : m.Holds (index * 4) (wordBytes word)) :
    m.getWordAt buffer index = .ok word := by
  subst current
  have found : m.readAt m.current (index * 4) 4 = .ok (wordBytes word) :=
    read_of_holds attached fits holds
  unfold getWordAt wordOffset
  rw [if_pos narrow]
  change (m.readAt m.current (index * 4) 4 >>= fun bytes => pure (bytesWord bytes)) = _
  rw [found]
  exact congrArg Except.ok (bytesWord_wordBytes word)

structure HoldsPair (m : Memory) (slot : Nat) (first second : UInt32) : Prop where
  aligned : slot % 4 = 0
  narrow : slot + 4 < UInt32.size
  attached : m.buffer.detached = false
  fits : slot + 8 ≤ m.size
  front : m.Holds slot (wordBytes first)
  back : m.Holds (slot + 4) (wordBytes second)

theorem HoldsPair.of_same_buffer (pair : m.HoldsPair slot first second)
    (same : m'.buffer = m.buffer) : m'.HoldsPair slot first second := by
  obtain ⟨aligned, narrow, attached, fits, front, back⟩ := pair
  unfold Holds byte? at front back
  rw [← same] at attached front back
  refine ⟨aligned, narrow, attached, ?_, front, back⟩
  rwa [size, same]

theorem HoldsPair.readPair (pair : m.HoldsPair slot first second) :
    (readPair slot).run m = (.ok (first, second), (m.view .words).2) := by
  obtain ⟨index, rfl⟩ : ∃ index, slot = index * 4 := ⟨slot / 4, by have := pair.aligned; omega⟩
  have pair := pair.of_same_buffer (buffer_view m .words)
  have current := view_current m .words
  have next : (index + 1) * 4 = index * 4 + 4 := by omega
  have early := getWordAt_of_holds current pair.attached (by have := pair.narrow; omega)
    (by have := pair.fits; omega) pair.front
  have late : (m.view .words).2.getWordAt (m.view .words).1.buffer (index + 1) = .ok second :=
    getWordAt_of_holds current pair.attached (by rw [next]; exact pair.narrow)
      (by rw [next]; exact pair.fits) (by rw [next]; exact pair.back)
  unfold Memory.readPair slotIndex
  rw [if_pos (Nat.mul_mod_left index 4), Nat.mul_div_cancel _ (by decide : 0 < 4),
    run_bind_ok (run_liftExcept _ _), run_fetch_bind, run_bind_ok (run_get _), early,
    run_bind_ok (run_liftExcept _ _), late, run_bind_ok (run_liftExcept _ _), run_pure]

/-- The second memory has the pair at the slot, and is the first one everywhere else. -/
structure Paired (m : Memory) (slot : Nat) (first second : UInt32) (m' : Memory) : Prop where
  holds : m'.HoldsPair slot first second
  size : m.size ≤ m'.size
  bytes : ∀ address, ¬(slot ≤ address ∧ address < slot + 8) → m'.byte? address = m.byte? address

theorem paired_overwritten (aligned : slot % 4 = 0) (narrow : slot + 4 < UInt32.size)
    (attached : m.buffer.detached = false) (fits : slot + 8 ≤ m.size) :
    m.Paired slot first second
      ((m.overwritten slot (wordBytes first)).overwritten (slot + 4) (wordBytes second)) := by
  have early : slot + (wordBytes first).size ≤ m.size :=
    Nat.le_trans (by rw [size_wordBytes]; omega) fits
  have wrote := retains_overwritten attached early (Nat.le_refl slot)
  have attached' := wrote.attached attached
  have late : slot + 4 + (wordBytes second).size ≤ (m.overwritten slot (wordBytes first)).size :=
    Nat.le_trans fits wrote.size
  have rewrote := retains_overwritten attached' late (Nat.le_refl (slot + 4))
  have size := Nat.le_trans wrote.size rewrote.size
  refine ⟨⟨aligned, narrow, rewrote.attached attached', Nat.le_trans fits size, ?_, ?_⟩, size,
    fun address outside => ?_⟩
  · exact rewrote.holds (holds_overwritten attached early) (Nat.le_refl _)
  · exact holds_overwritten attached' late
  · rw [byte?_overwritten attached' late, byte?_overwritten attached early, size_wordBytes,
      size_wordBytes, if_neg (by omega), if_neg (by omega)]

theorem writePair_eq_ok (ran : (writePair slot first second).run m = (.ok (), m')) :
    m.Paired slot first second m' := by
  have same := buffer_view m .words
  have current := view_current m .words
  unfold writePair slotIndex at ran
  by_cases aligned : slot % 4 = 0
  · obtain ⟨index, rfl⟩ : ∃ index, slot = index * 4 := ⟨slot / 4, by omega⟩
    rw [if_pos aligned, Nat.mul_div_cancel _ (by decide : 0 < 4),
      run_bind_ok (run_liftExcept _ _), run_fetch_bind] at ran
    generalize (m.view .words).2 = m₀ at *
    obtain ⟨_, m₁, step, ran⟩ := bind_eq_ok ran
    obtain ⟨attached, early, -, rfl⟩ := setWordAt_eq_ok current step
    have current : (m.view .words).1.buffer =
        (m₀.overwritten (index * 4) (wordBytes first)).current := current
    obtain ⟨-, fits, narrow, rfl⟩ := setWordAt_eq_ok current ran
    have next : (index + 1) * 4 = index * 4 + 4 := by omega
    rw [next] at fits narrow ⊢
    rw [size_overwritten attached early] at fits
    obtain ⟨holds, size, bytes⟩ := paired_overwritten aligned narrow attached fits
    unfold byte? Memory.size at *
    rw [same] at size bytes
    exact ⟨holds, size, bytes⟩
  · rw [if_neg aligned] at ran
    cases ran

end Memory

end SandboxBridge

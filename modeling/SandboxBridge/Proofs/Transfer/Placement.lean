import SandboxBridge.Proofs.Allocator.Retention
import SandboxBridge.Proofs.Transfer.Paths

/-!
Where encoding over the module's own allocator puts a string: past the end of all blocks so far,
whatever lies below that end being left alone, even where encoding fails.
-/

namespace SandboxBridge.Transfer

open Allocator Work

variable {s : Allocator × Memory} {a a' : Allocator} {m m' : Memory} {floor : Nat} {text : String}
  {extent : Extent}

theorem retains_encodeExact (below : floor ≤ s.1.top) (text : String) :
    Retains floor s ((encodeExact native text).run s).2 := by
  refine .given below fun length _ => .bind (retains_malloc below length) ?_
  intro start t granted below'
  obtain ⟨aligned, -, -, -⟩ := malloc_eq_ok granted
  have above := Nat.le_trans below (alignUp_eq_ok aligned).1
  have wrote := Memory.retains_writeBytes (m := t.2) above text.toUTF8
  exact .bind (retains_onMemory below' wrote) fun _ _ _ below'' => .refl below''

theorem retains_encodeGrowing (below : floor ≤ s.1.top) (text : String) (ascii : Nat) :
    Retains floor s ((encodeGrowing native Allocator.realloc text ascii).run s).2 := by
  refine .given below fun written _ => .given below fun remaining _ => .given below
    fun capacity _ => .bind (retains_malloc below capacity) fun start s₁ granted below₁ => ?_
  obtain ⟨aligned, -, -, -⟩ := malloc_eq_ok granted
  have above : floor ≤ start := Nat.le_trans below (alignUp_eq_ok aligned).1
  have front := Memory.retains_writeBytes (m := s₁.2) above (text.toUTF8.extract 0 ascii)
  refine .bind (retains_onMemory below₁ front) fun _ s₂ _ below₂ => .given below₂ fun worst _ => ?_
  refine .bind (Retains.refl below₂) fun _ s₃ _ below₃ => ?_
  refine .bind (retains_realloc below₃ above capacity worst) fun moved s₄ grown below₄ => ?_
  have above : floor ≤ moved := le_of_realloc below₃ above grown
  split
  next => exact .refl below₄
  next =>
    have back (rest : ByteArray) := Memory.retains_writeBytes (m := s₄.2)
      (Nat.le_add_right_of_le above : floor ≤ moved + written) rest
    refine .bind (retains_onMemory below₄ (back _)) fun _ s₅ _ below₅ => .given below₅ fun _ _ => ?_
    dsimp only
    split
    next => exact .refl below₅
    next => exact .bind (retains_realloc below₅ above _ _) fun _ _ _ below₆ => .refl below₆

theorem retains_encode (below : floor ≤ s.1.top) (fast : Bool) (text : String) :
    Retains floor s ((encode native fast text).run s).2 := by
  change Retains floor s (((if fast then
    if asciiLength text = text.utf8ByteSize then encodeExact native text
    else encodeGrowing native Allocator.realloc text (asciiLength text)
    else encodeExact native text) : Allocator.Action Extent).run s).2
  split
  · split
    · exact retains_encodeExact below text
    · exact retains_encodeGrowing below text (asciiLength text)
  · exact retains_encodeExact below text

theorem lastBlock_of_encodeExact
    (done : (encodeExact native text).run (a, m) = (.ok extent, a', m')) :
    a.top ≤ extent.start ∧ extent.length = text.utf8ByteSize ∧
      LastBlock extent.start extent.length (a', m') ∧ m'.Holds extent.start text.toUTF8 := by
  unfold encodeExact at done
  obtain ⟨_, _, step, done⟩ := bind_eq_ok done
  obtain ⟨-, rfl, rfl⟩ := checked_eq_ok step
  obtain ⟨start, ⟨a₁, m₁⟩, step, done⟩ := bind_eq_ok done
  obtain ⟨aligned, narrow, -, rfl⟩ := malloc_eq_ok step
  obtain ⟨above, multiple, -⟩ := alignUp_eq_ok aligned
  obtain ⟨_, ⟨a₂, m₂⟩, step, done⟩ := bind_eq_ok done
  obtain ⟨attached, inside, rfl, rfl⟩ := write_eq_ok step
  cases done
  have wrote := Memory.retains_written attached inside (Nat.le_refl _)
  exact ⟨above, rfl,
    ⟨multiple, narrow, rfl, rfl, wrote.attached attached, Nat.le_trans inside wrote.size⟩,
    Memory.holds_written attached inside⟩

theorem lastBlock_of_encodeGrowing
    (done : (encodeGrowing native Allocator.realloc text (asciiLength text)).run (a, m) =
      (.ok extent, a', m')) :
    a.top ≤ extent.start ∧ extent.length = text.utf8ByteSize ∧
      LastBlock extent.start extent.length (a', m') ∧ m'.Holds extent.start text.toUTF8 := by
  obtain ⟨start, m₁, m₂, grows, ⟨attached₁, inside₁⟩, ⟨attached₂, inside₂⟩, rfl, top, last, rfl⟩ :=
    encodeGrowing_eq_ok done
  obtain ⟨-, within, longest⟩ := lengths_between text
  have front := size_front text
  have back := size_rest text
  have whole := prefix_append_rest text
  obtain ⟨aligned, narrow, -, second⟩ := grows
  obtain ⟨above, multiple, -⟩ := alignUp_eq_ok aligned
  generalize text.toUTF8.extract 0 (asciiLength text) = early at front whole second
  generalize text.toUTF8.extract (asciiLength text) text.utf8ByteSize = late at back whole ⊢
  have fits₁ : start + early.size ≤ m₁.size := by omega
  have fits₂ : start + asciiLength text + late.size ≤ m₂.size := by omega
  have held : m₂.Holds start early :=
    (Memory.retains_reaching second (start + early.size)).holds
      (Memory.holds_written attached₁ fits₁) (Nat.le_refl _)
  have wrote := Memory.retains_written attached₂ fits₂ (Nat.le_refl _)
  refine ⟨above, rfl, ⟨multiple, Nat.lt_of_le_of_lt (Nat.add_le_add_left longest _) narrow, last,
    top, wrote.attached attached₂, Nat.le_trans inside₂ wrote.size⟩, ?_⟩
  rw [← whole]
  refine (held.written attached₂ fits₂ (.inl (by omega))).append ?_
  rw [front]
  exact Memory.holds_written attached₂ fits₂

theorem lastBlock_of_encode {fast : Bool}
    (done : (encode native fast text).run (a, m) = (.ok extent, a', m')) :
    a.top ≤ extent.start ∧ extent.length = text.utf8ByteSize ∧
      LastBlock extent.start extent.length (a', m') ∧ m'.Holds extent.start text.toUTF8 := by
  change ((if fast then
    if asciiLength text = text.utf8ByteSize then encodeExact native text
    else encodeGrowing native Allocator.realloc text (asciiLength text)
    else encodeExact native text) : Allocator.Action Extent).run (a, m) = _ at done
  split at done
  next =>
    split at done
    next => exact lastBlock_of_encodeExact done
    next => exact lastBlock_of_encodeGrowing done
  next => exact lastBlock_of_encodeExact done

end SandboxBridge.Transfer

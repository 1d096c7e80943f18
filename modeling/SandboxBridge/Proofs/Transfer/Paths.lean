import SandboxBridge.Proofs.Allocator
import SandboxBridge.Proofs.Transfer.Delivery

/-!
The two ways of encoding over the module's own allocator. If the way that counts on ASCII succeeds,
so does the exact one, with the same block and the same bytes; it needs no more memory.
-/

namespace SandboxBridge.Transfer

open Memory Allocator Work

section Alike

variable {σ τ : Type} {related : σ → τ → Prop} {p : Provider σ} {q : Provider τ}

/-- From related states both serve a request alike, and come to related states. -/
structure Provider.Alike (related : σ → τ → Prop) (p : Provider σ) (q : Provider τ) : Prop where
  malloc : ∀ size, Agrees related (p.malloc size).run (q.malloc size).run
  realloc : Option.Rel (fun f g => ∀ start oldSize newSize,
    Agrees related (f start oldSize newSize).run (g start oldSize newSize).run) p.realloc q.realloc
  write : ∀ start data, Agrees related (p.write start data).run (q.write start data).run
  growing : ∀ written capacity worst,
    Agrees related (p.growing written capacity worst) (q.growing written capacity worst)

theorem encodeExact_agrees (alike : p.Alike related q) (s : String) :
    Agrees related (encodeExact p s).run (encodeExact q s).run := by
  have malloc := alike.malloc
  have write := alike.write
  unfold encodeExact
  infer_instance

theorem encodeGrowing_agrees (alike : p.Alike related q)
    {f : Nat → Nat → Nat → ExceptT Error (StateM σ) Nat}
    {g : Nat → Nat → Nat → ExceptT Error (StateM τ) Nat}
    (realloc : ∀ start oldSize newSize,
      Agrees related (f start oldSize newSize).run (g start oldSize newSize).run)
    (s : String) (ascii : Nat) :
    Agrees related (encodeGrowing p f s ascii).run (encodeGrowing q g s ascii).run := by
  have malloc := alike.malloc
  have write := alike.write
  have growing := alike.growing
  unfold encodeGrowing
  refine .bind inferInstance fun written => .bind inferInstance fun remaining =>
    .bind inferInstance fun capacity => .bind (malloc capacity) fun start =>
    .bind (write start _) fun _ => .bind inferInstance fun worst => .bind inferInstance fun _ =>
    .bind (realloc start capacity worst) fun moved => ?_
  dsimp only
  infer_instance

theorem encode_agrees (alike : p.Alike related q) (asciiFirst : Bool) (s : String) :
    Agrees related (encode p asciiFirst s).run (encode q asciiFirst s).run := by
  have single := encodeExact_agrees alike s
  have resizes := alike.realloc
  unfold encode
  revert resizes
  generalize p.realloc = offered, q.realloc = other
  rintro (realloc | _)
  · have growing := encodeGrowing_agrees alike realloc s
    dsimp only
    infer_instance
  · exact single

end Alike

theorem asciiLength_of_ascii {s : String} (ascii : ∀ c ∈ s.toList, isAscii c) :
    asciiLength s = s.utf8ByteSize := by
  rw [utf8ByteSize_eq, asciiLength]
  revert ascii
  generalize s.toList = text
  intro ascii
  induction text with
  | nil => rfl
  | cons c rest ih =>
    obtain ⟨first, others⟩ := List.forall_mem_cons.mp ascii
    rw [List.takeWhile_cons_of_pos first, List.length_cons, ih others, byteCount,
      utf8Size_of_isAscii first, Nat.add_comm]

theorem encode_eq_exact {σ : Type} (p : Provider σ) (asciiFirst : Bool) {s : String}
    (ascii : ∀ c ∈ s.toList, isAscii c) : encode p asciiFirst s = encodeExact p s := by
  simp only [encode, asciiLength_of_ascii ascii, ↓reduceIte, ite_self]
  split <;> rfl

variable {s : String} {extent : Extent} {a a' : Allocator} {m m' m₁ m₂ : Memory}
  {pages start : Nat}

def native : Provider (Allocator × Memory) where
  malloc := Allocator.malloc
  realloc := some Allocator.realloc
  write start data := Allocator.onMemory (Memory.writeBytes start data)
  growing _ _ _ := pure ()

theorem checkLength_eq_ok {n length : Nat} (checked : checkLength n = .ok length) :
    n < UInt32.size ∧ n = length := by
  unfold checkLength at checked
  split at checked
  next small => exact ⟨small, Except.ok.inj checked⟩
  next => cases checked

theorem checked_eq_ok {σ : Type} {n length : Nat} {before after : σ}
    (checked : (liftM (checkLength n) : ExceptT Error (StateM σ) Nat).run before =
      (.ok length, after)) : n < UInt32.size ∧ length = n ∧ after = before := by
  rw [run_liftExcept] at checked
  obtain ⟨passed, rfl⟩ := Prod.mk.inj checked
  obtain ⟨small, rfl⟩ := checkLength_eq_ok passed
  exact ⟨small, rfl, rfl⟩

/-- The sizes that the way that counts on ASCII asks for: a byte for each character, then the worst
case. -/
theorem sizes_asked (s : String) : asciiLength s + (s.length - asciiLength s) = s.length ∧
    (s.length - asciiLength s) * maxCharLength + asciiLength s = worstLength s ∧
    s.length ≤ worstLength s := by
  obtain ⟨short, -, -⟩ := lengths_between s
  unfold worstLength maxCharLength
  omega

/-- How the way that counts on ASCII comes to the place of a string. -/
structure Grows (s : String) (a : Allocator) (m : Memory) (start : Nat) (m₁ m₂ : Memory) :
    Prop where
  aligned : alignUp a.top = .ok start
  fits : start + worstLength s < UInt32.size
  first : m.reaching (start + s.length) = some m₁
  second : (m₁.written start (s.toUTF8.extract 0 (asciiLength s))).reaching
    (start + worstLength s) = some m₂

theorem encodeGrowing_eq_ok
    (done : (encodeGrowing native Allocator.realloc s (asciiLength s)).run (a, m) =
      (.ok extent, a', m')) :
    ∃ start m₁ m₂, Grows s a m start m₁ m₂ ∧
      (m₁.buffer.detached = false ∧ start + asciiLength s ≤ m₁.size) ∧
      (m₂.buffer.detached = false ∧ start + s.utf8ByteSize ≤ m₂.size) ∧
      extent = ⟨start, s.utf8ByteSize⟩ ∧
      a'.top = start + s.utf8ByteSize ∧ a'.last = some start ∧
      m' = m₂.written (start + asciiLength s)
        (s.toUTF8.extract (asciiLength s) s.utf8ByteSize) := by
  obtain ⟨-, within, longest⟩ := lengths_between s
  obtain ⟨capacity, worst, -⟩ := sizes_asked s
  have back := size_rest s
  unfold encodeGrowing at done
  generalize s.toUTF8.extract (asciiLength s) s.utf8ByteSize = rest at back done ⊢
  -- Three lengths are checked before anything is allocated.
  obtain ⟨_, _, step, done⟩ := bind_eq_ok done
  obtain ⟨-, rfl, rfl⟩ := checked_eq_ok step
  obtain ⟨_, _, step, done⟩ := bind_eq_ok done
  obtain ⟨-, rfl, rfl⟩ := checked_eq_ok step
  obtain ⟨_, _, step, done⟩ := bind_eq_ok done
  obtain ⟨-, rfl, rfl⟩ := checked_eq_ok step
  -- The first block, and the prefix in it.
  obtain ⟨start, ⟨a₁, m₁⟩, step, done⟩ := bind_eq_ok done
  obtain ⟨aligned, -, first, rfl⟩ := malloc_eq_ok step
  obtain ⟨_, ⟨a₂, m₂⟩, step, done⟩ := bind_eq_ok done
  obtain ⟨attached₁, inside₁, rfl, rfl⟩ := write_eq_ok step
  rw [size_front] at inside₁
  obtain ⟨_, _, step, done⟩ := bind_eq_ok done
  obtain ⟨-, rfl, rfl⟩ := checked_eq_ok step
  obtain ⟨_, _, step, done⟩ := bind_eq_ok done
  cases step
  -- It is the last block, so that it grows in place.
  obtain ⟨moved, ⟨a₃, m₃⟩, step, done⟩ := bind_eq_ok done
  obtain ⟨rfl, fits, second, rfl⟩ := realloc_last_eq_ok step rfl
  split at done
  next => cases done
  next =>
    obtain ⟨_, ⟨a₄, m₄⟩, step, done⟩ := bind_eq_ok done
    obtain ⟨attached, inside, rfl, rfl⟩ := write_eq_ok step
    obtain ⟨_, _, step, done⟩ := bind_eq_ok done
    obtain ⟨-, rfl, rfl⟩ := checked_eq_ok step
    have total : asciiLength s + rest.size = s.utf8ByteSize := by omega
    rw [capacity] at first
    rw [worst] at fits second done
    rw [total] at done
    refine ⟨_, m₁, m₃, ⟨aligned, fits, first, second⟩, ⟨attached₁, inside₁⟩,
      ⟨attached, by omega⟩, ?_⟩
    dsimp only at done
    split at done
    next same =>
      cases done
      exact ⟨rfl, by rw [same], rfl, rfl⟩
    next =>
      obtain ⟨_, ⟨a₅, m₅⟩, step, done⟩ := bind_eq_ok done
      obtain ⟨rfl, -, shrunk, rfl⟩ := realloc_last_eq_ok step rfl
      -- Shrinking asks for no more memory than there is.
      rw [reaching_of_within (by rw [size_written attached inside]; omega)] at shrunk
      cases shrunk
      cases done
      exact ⟨rfl, rfl, rfl, rfl⟩

theorem Grows.encodes (grows : Grows s a m start m₁ m₂) (exports : a.exportsRealloc = true)
    (other : asciiLength s ≠ s.utf8ByteSize)
    (early : m₁.buffer.detached = false ∧ start + asciiLength s ≤ m₁.size)
    (late : m₂.buffer.detached = false ∧ start + s.utf8ByteSize ≤ m₂.size) :
    ∃ w, (encode native true s).run (a, m) = (.ok ⟨start, s.utf8ByteSize⟩, w) := by
  change ∃ w, (if asciiLength s = s.utf8ByteSize then encodeExact native s
    else encodeGrowing native Allocator.realloc s (asciiLength s)).run (a, m) = (_, w)
  rw [if_neg other]
  obtain ⟨aligned, fits, first, second⟩ := grows
  obtain ⟨short, within, longest⟩ := lengths_between s
  obtain ⟨capacity, worst, shorter⟩ := sizes_asked s
  have front := size_front s
  have back := size_rest s
  have small {n : Nat} (below : n ≤ worstLength s) (w : Allocator × Memory) :
      (liftM (checkLength n) : Allocator.Action Nat).run w = (.ok n, w) := by
    rw [run_liftExcept, checkLength_ok (by omega)]
  unfold encodeGrowing
  generalize s.toUTF8.extract 0 (asciiLength s) = prefixed at front second ⊢
  generalize s.toUTF8.extract (asciiLength s) s.utf8ByteSize = rest at back ⊢
  have total : asciiLength s + rest.size = s.utf8ByteSize := by omega
  dsimp only [native]
  rw [run_bind_ok (small (by omega) _), run_bind_ok (small (by omega) _), capacity,
    run_bind_ok (small shorter _), run_bind_ok (malloc_ok aligned (by omega) first),
    run_bind_ok (write_ok early.1 (by omega)), worst, run_bind_ok (small (Nat.le_refl _) _)]
  have idle (w : Allocator × Memory) :
      (liftM (pure () : StateM (Allocator × Memory) Unit) : Allocator.Action Unit).run w =
        (.ok (), w) := rfl
  have grown := realloc_last_ok
    (a := { a with mallocs := a.mallocs + 1, top := start + s.length, last := some start })
    exports rfl fits second s.length
  rw [run_bind_ok (idle _), run_bind_ok grown,
    if_neg (by omega), run_bind_ok (write_ok late.1 (by omega)),
    run_bind_ok (small (by omega) _), total]
  split
  next same => exact ⟨_, by rw [same]; rfl⟩
  next =>
    have within : (m₂.written (start + asciiLength s) rest).reaching (start + s.utf8ByteSize) = _ :=
      reaching_of_within (by rw [size_written late.1 (by omega)]; exact late.2)
    have shrunk := realloc_last_ok
      (a := { a with
        mallocs := a.mallocs + 1, reallocs := a.reallocs + 1, top := start + worstLength s
        last := some start })
      exports rfl (by omega) within (worstLength s)
    rw [run_bind_ok shrunk]
    exact ⟨_, rfl⟩

theorem encodeExact_ok (small : s.utf8ByteSize < UInt32.size) (aligned : alignUp a.top = .ok start)
    (fits : start + s.utf8ByteSize < UInt32.size)
    (found : m.reaching (start + s.utf8ByteSize) = some m₁)
    (attached : m₁.buffer.detached = false) (within : start + s.utf8ByteSize ≤ m₁.size) :
    (encodeExact native s).run (a, m) = (.ok ⟨start, s.utf8ByteSize⟩,
      { a with mallocs := a.mallocs + 1, top := start + s.utf8ByteSize, last := some start },
      m₁.written start s.toUTF8) := by
  have within : start + s.toUTF8.size ≤ m₁.size := within
  unfold encodeExact
  rw [checkLength_ok small, run_bind_ok (run_liftExcept _ _)]
  dsimp only [native]
  rw [run_bind_ok (malloc_ok aligned fits found), run_bind_ok (write_ok attached within), run_pure]

theorem Grows.exact (grows : Grows s a m start m₁ m₂) (spans : m.Spans pages) :
    ∃ m', m.reaching (start + s.utf8ByteSize) = some m' ∧ ∃ fewer more,
      (m'.written start s.toUTF8).Spans fewer ∧
      (m₂.written (start + asciiLength s)
        (s.toUTF8.extract (asciiLength s) s.utf8ByteSize)).Spans more ∧ fewer ≤ more ∧
      (m'.written start s.toUTF8).Extends (m₂.written (start + asciiLength s)
        (s.toUTF8.extract (asciiLength s) s.utf8ByteSize)) := by
  obtain ⟨-, -, first, second⟩ := grows
  obtain ⟨short, within, longest⟩ := lengths_between s
  have front := size_front s
  have back := size_rest s
  have whole := prefix_append_rest s
  have size : s.toUTF8.size = s.utf8ByteSize := rfl
  generalize s.toUTF8.extract 0 (asciiLength s) = prefixed at front whole second
  generalize s.toUTF8.extract (asciiLength s) s.utf8ByteSize = rest at back whole ⊢
  have early := spans.reached first
  have earlyFits : start + prefixed.size ≤ m₁.size := by
    have reached := early.within
    omega
  have late := (early.spans.written earlyFits).reached second
  have fewest : pagesTo (start + s.utf8ByteSize) ≤ pagesTo (start + worstLength s) :=
    pagesTo_mono (by omega)
  have lateFits : start + asciiLength s + rest.size ≤ m₂.size := by
    have reached := late.within
    omega
  obtain ⟨m', found⟩ : ∃ m', m.reaching (start + s.utf8ByteSize) = some m' := by
    exact spans.reaching_of_admits fun beyond =>
      early.admits (pageLimit_written m₁ start prefixed) late beyond fewest
  have reached := spans.reached found
  have fits : start + s.toUTF8.size ≤ m'.size := reached.within
  refine ⟨m', found, _, _, reached.spans.written fits, late.spans.written lateFits, by omega, ?_⟩
  rw [extends_iff]
  constructor
  · rw [(reached.spans.written fits).sized, (late.spans.written lateFits).sized]
    exact Nat.mul_le_mul_right _ (by omega)
  · rw [byte_written late.spans.attached lateFits, byte_written reached.spans.attached fits,
      (extends_iff.mp late.padded).2, byte_written early.spans.attached earlyFits,
      (extends_iff.mp early.padded).2, (extends_iff.mp reached.padded).2, ← front, patch_append,
      whole]

theorem encodeExact_spans (spans : m.Spans pages)
    (done : (encodeExact native s).run (a, m) = (.ok extent, a', m')) : ∃ more, m'.Spans more := by
  unfold encodeExact at done
  obtain ⟨_, _, step, done⟩ := bind_eq_ok done
  obtain ⟨-, rfl, rfl⟩ := checked_eq_ok step
  obtain ⟨start, ⟨a₁, m₁⟩, step, done⟩ := bind_eq_ok done
  obtain ⟨-, -, found, -⟩ := malloc_eq_ok step
  obtain ⟨_, ⟨a₂, m₂⟩, step, done⟩ := bind_eq_ok done
  obtain ⟨-, inside, -, rfl⟩ := write_eq_ok step
  cases done
  exact ⟨_, (spans.reached found).spans.written inside⟩

/-- The allocators have the same last block, and the memories the same bytes. The second memory may
have more pages, of zeros. -/
structure NoLarger (plain fast : Allocator × Memory) : Prop where
  top : plain.1.top = fast.1.top
  last : plain.1.last = fast.1.last
  pages : ∃ fewer more, plain.2.pages = some fewer ∧ fast.2.pages = some more ∧ fewer ≤ more
  bytes : plain.2.Extends fast.2

/-- Where the way that counts on ASCII succeeds, so does the exact one. -/
theorem encode_native_exact (spans : m.Spans pages)
    (done : (encode native true s).run (a, m) = (.ok extent, a', m')) :
    ∃ w, (encode native false s).run (a, m) = (.ok extent, w) ∧ NoLarger w (a', m') := by
  change (if asciiLength s = s.utf8ByteSize then encodeExact native s
    else encodeGrowing native Allocator.realloc s (asciiLength s)).run (a, m) = _ at done
  change ∃ w, (encodeExact native s).run (a, m) = (.ok extent, w) ∧ NoLarger w (a', m')
  split at done
  next =>
    obtain ⟨more, after⟩ := encodeExact_spans spans done
    exact ⟨_, done, rfl, rfl, ⟨more, more, after.counted, after.counted, Nat.le_refl _⟩, .refl _⟩
  next =>
    obtain ⟨start, m₁, m₂, grows, -, -, rfl, top, last, rfl⟩ := encodeGrowing_eq_ok done
    obtain ⟨reached, found, fewer, more, after, longer, least, bytes⟩ := grows.exact spans
    obtain ⟨-, -, longest⟩ := lengths_between s
    have fits := grows.fits
    have attached : reached.buffer.detached = false := (spans.reached found).spans.attached
    exact ⟨_, encodeExact_ok (by omega) grows.aligned (by omega) found attached
      (spans.reached found).within, top.symm, last.symm,
      ⟨fewer, more, after.counted, longer.counted, least⟩, bytes⟩

end SandboxBridge.Transfer

import SandboxBridge.Transfer
import SandboxBridge.Proofs.Memory.Bytes

/-!
Encoding over an allocator of which only its promises are known. The allocator may move blocks, may
put another buffer in the place of the memory at any call, and may fail; what it has promised counts
only for the calls that it was properly asked.
-/

namespace SandboxBridge.Transfer

variable {σ α β : Type}

/-- Code of an allocator, with state of its own. It may do anything to the memory. -/
structure Supplier (σ : Type) where
  malloc : Nat → σ → Memory → Except Error Nat × σ × Memory
  /-- From the block, its size and its new size. -/
  realloc : Nat → Nat → Nat → σ → Memory → Except Error Nat × σ × Memory

structure Grant where
  /-- The block to be resized; none when a new one was asked for. -/
  resized : Option Extent
  size : Nat
  before : Memory
  result : Except Error Nat
  after : Memory

namespace Grant

def place (g : Grant) : Option Nat :=
  g.result.toOption

theorem result_of_place {g : Grant} {start : Nat} (found : start ∈ g.place) :
    g.result = .ok start := by
  unfold place at found
  cases result : g.result with
  | error e => simp [result, Except.toOption] at found
  | ok other => simpa [result, Except.toOption] using found

/-- Only the block granted last may be resized, from the size that it has. -/
def Proper (g : Grant) (earlier : List Grant) : Prop :=
  g.size < UInt32.size ∧ ∀ block ∈ g.resized, ∃ last ∈ earlier.head?,
    block.start ∈ last.place ∧ last.size = block.length

instance (g : Grant) (earlier : List Grant) : Decidable (g.Proper earlier) :=
  inferInstanceAs (Decidable (_ ∧ _))

/-- The call has answered with a block inside the memory, within the reach of 32-bit addresses,
where a resized block still has its bytes, as many as fit. -/
structure Kept (g : Grant) : Prop where
  granted : ∃ start ∈ g.place, start + g.size ≤ min g.after.size UInt32.size ∧
    ∀ block ∈ g.resized, ∀ offset < min block.length g.size,
      g.after.byte? (start + offset) = g.before.byte? (block.start + offset)
  attached : g.after.buffer.detached = false

instance (g : Grant) : Decidable g.Kept :=
  decidable_of_iff (_ ∧ _) ⟨fun both => ⟨both.1, both.2⟩, fun kept => ⟨kept.1, kept.2⟩⟩

end Grant

/-- Every call that was proper has been answered as promised. The latest call comes first. -/
def PromisesKept : List Grant → Prop
  | [] => True
  | g :: earlier => PromisesKept earlier ∧ (g.Proper earlier → g.Kept)

instance : DecidablePred PromisesKept := fun grants => go grants
where
  go : (grants : List Grant) → Decidable (PromisesKept grants)
    | [] => isTrue trivial
    | _ :: earlier =>
      have := go earlier
      inferInstanceAs (Decidable (_ ∧ _))

theorem PromisesKept.of_suffix {earlier grants : List Grant} (kept : PromisesKept grants)
    (suffix : earlier <:+ grants) : PromisesKept earlier := by
  induction grants with
  | nil => rwa [List.suffix_nil.mp suffix]
  | cons g rest ih =>
    rcases List.suffix_cons_iff.mp suffix with rfl | before
    · exact kept
    · exact ih kept.1 before

structure Surroundings (σ : Type) where
  own : σ
  memory : Memory
  /-- Finished calls of the allocator, the latest first. -/
  grants : List Grant := []
  /-- Views through which bytes were written, the latest first, with the memory at that moment. -/
  accesses : List (View × Memory) := []

namespace Supplier

def call (resized : Option Extent) (size : Nat)
    (work : σ → Memory → Except Error Nat × σ × Memory) :
    ExceptT Error (StateM (Surroundings σ)) Nat :=
  .mk fun w =>
    let (result, own, after) := work w.own w.memory
    (result, { w with
      own, memory := after, grants := ⟨resized, size, w.memory, result, after⟩ :: w.grants })

def write (start : Nat) (data : ByteArray) : ExceptT Error (StateM (Surroundings σ)) Unit :=
  .mk fun w =>
    let (view, memory) := w.memory.view .bytes
    let (result, memory) := (Memory.writeAt view.buffer start data).run memory
    (result, { w with memory, accesses := (view, w.memory) :: w.accesses })

theorem run_write (start : Nat) (data : ByteArray) (w : Surroundings σ) :
    (write start data).run w = (((Memory.writeBytes start data).run w.memory).1,
      { w with
        memory := ((Memory.writeBytes start data).run w.memory).2,
        accesses := ((w.memory.view .bytes).1, w.memory) :: w.accesses }) :=
  rfl

def provider (a : Supplier σ) (offersRealloc : Bool) : Provider (Surroundings σ) where
  malloc size := call none size (a.malloc size)
  realloc :=
    if offersRealloc then
      some fun start oldSize newSize =>
        call (some ⟨start, oldSize⟩) newSize (a.realloc start oldSize newSize)
    else none
  write := write
  growing _ _ _ := pure ()

end Supplier

/-- From surroundings with `before`, the work succeeds and leaves `after`, unless a promise is
broken meanwhile. It forgets no call. -/
structure Secures (before : Surroundings σ → Prop)
    (work : ExceptT Error (StateM (Surroundings σ)) α)
    (after : α → Surroundings σ → Prop) : Prop where
  remembers : ∀ w, w.grants <:+ (work.run w).2.grants
  succeeds : ∀ w, before w → PromisesKept (work.run w).2.grants →
    ∃ value, (work.run w).1 = .ok value ∧ after value (work.run w).2

namespace Secures

variable {before : Surroundings σ → Prop} {after : α → Surroundings σ → Prop}

theorem pure {value : α} (ready : ∀ w, before w → after value w) :
    Secures before (Pure.pure value) after where
  remembers _ := List.suffix_refl _
  succeeds w start _ := ⟨value, rfl, ready w start⟩

theorem bind {work : ExceptT Error (StateM (Surroundings σ)) α}
    {next : α → ExceptT Error (StateM (Surroundings σ)) β} {last : β → Surroundings σ → Prop}
    (first : Secures before work after) (rest : ∀ value, Secures (after value) (next value) last) :
    Secures before (work >>= next) last where
  remembers w := by
    have early := first.remembers w
    rw [Work.run_bind]
    revert early
    generalize work.run w = done
    rcases done with ⟨e | value, reached⟩
    · exact id
    · exact fun early => early.trans ((rest value).remembers reached)
  succeeds w start kept := by
    have early := first.succeeds w start
    rw [Work.run_bind] at kept ⊢
    revert early kept
    generalize work.run w = done
    rcases done with ⟨e | value, reached⟩
    · intro kept early
      obtain ⟨value, absurd, _⟩ := early kept
      cases absurd
    · intro kept early
      obtain ⟨_, same, ready⟩ := early (kept.of_suffix ((rest value).remembers reached))
      cases same
      exact (rest value).succeeds reached ready kept

theorem given {result : Except Error β} {value : β}
    {next : β → ExceptT Error (StateM (Surroundings σ)) α} (found : result = .ok value)
    (rest : Secures before (next value) after) : Secures before (liftM result >>= next) after := by
  subst found
  exact rest

theorem idle {next : Unit → ExceptT Error (StateM (Surroundings σ)) α}
    (rest : Secures before (next ()) after) :
    Secures before (liftM (Pure.pure () : StateM (Surroundings σ) Unit) >>= next) after :=
  rest

theorem unrefused {refused : Prop} [Decidable refused] {e : Error}
    {next : β → ExceptT Error (StateM (Surroundings σ)) α}
    {work : ExceptT Error (StateM (Surroundings σ)) α}
    (unfounded : ∀ w, before w → ¬refused) (rest : Secures before work after) :
    Secures before (if refused then throw e >>= next else work) after where
  remembers w := by
    split
    · exact List.suffix_refl _
    · exact rest.remembers w
  succeeds w start kept := by
    rw [if_neg (unfounded w start)] at kept ⊢
    exact rest.succeeds w start kept

end Secures

/-! What the calls that encoding makes secure. -/

/-- Every access so far went through a view of the buffer that was current, and not detached, at
that moment. -/
def Current (w : Surroundings σ) : Prop :=
  ∀ access ∈ w.accesses,
    access.1.buffer = access.2.current ∧ access.2.buffer.detached = false

/-- The block of the last call has `size` bytes at `start` and begins with `data`. -/
structure Block (start size : Nat) (data : ByteArray) (w : Surroundings σ) : Prop where
  granted : ∃ last ∈ w.grants.head?, start ∈ last.place ∧ last.size = size
  attached : w.memory.buffer.detached = false
  fits : start + size ≤ min w.memory.size UInt32.size
  current : Current w
  holds : w.memory.Holds start data

namespace Supplier

variable (a : Supplier σ)

theorem call_remembers (resized : Option Extent) (size : Nat)
    (work : σ → Memory → Except Error Nat × σ × Memory) (w : Surroundings σ) :
    w.grants <:+ ((call resized size work).run w).2.grants :=
  List.suffix_cons _ _

theorem secures_malloc {size : Nat} (small : size < UInt32.size) :
    Secures Current (call none size (a.malloc size)) fun start => Block start size .empty where
  remembers := call_remembers none size (a.malloc size)
  succeeds w current kept := by
    obtain ⟨⟨start, granted, fits, _⟩, attached⟩ := kept.2 ⟨small, by simp⟩
    exact ⟨start, Grant.result_of_place granted, ⟨_, rfl, granted, rfl⟩, attached, fits, current,
      fun offset inside => by simp at inside⟩

theorem secures_realloc {start oldSize newSize : Nat} {data : ByteArray}
    (small : newSize < UInt32.size) (shorter : data.size ≤ min oldSize newSize) :
    Secures (Block start oldSize data)
      (call (some ⟨start, oldSize⟩) newSize (a.realloc start oldSize newSize))
      fun moved => Block moved newSize data where
  remembers := call_remembers (some ⟨start, oldSize⟩) newSize (a.realloc start oldSize newSize)
  succeeds w block kept := by
    obtain ⟨⟨moved, granted, fits, same⟩, attached⟩ := kept.2 ⟨small, by simpa using block.granted⟩
    refine ⟨moved, Grant.result_of_place granted, ⟨_, rfl, granted, rfl⟩, attached, fits,
      block.current, ?_⟩
    intro offset inside
    exact (same ⟨start, oldSize⟩ rfl offset (by simp only; omega)).trans (block.holds offset inside)

theorem secures_write {start size : Nat} {front data : ByteArray}
    (room : front.size + data.size ≤ size) :
    Secures (Block (σ := σ) start size front) (write (start + front.size) data)
      fun _ => Block start size (front ++ data) where
  remembers _ := List.suffix_refl _
  succeeds w block _ := by
    have fits : start + front.size + data.size ≤ w.memory.size := by
      have := block.fits
      omega
    have wrote := Memory.writeBytes_ok block.attached fits
    refine ⟨(), ?_, block.granted, ?_, ?_, ?_, ?_⟩
    all_goals simp only [run_write, wrote]
    · exact Memory.detached_written block.attached _ _
    · rw [Memory.size_written block.attached fits]
      exact block.fits
    · intro access member
      rcases List.mem_cons.mp member with rfl | before
      · exact ⟨Memory.view_buffer _ _, block.attached⟩
      · exact block.current access before
    · exact (block.holds.written block.attached fits (Or.inl (Nat.le_refl _))).append
        (Memory.holds_written block.attached fits)

end Supplier

end SandboxBridge.Transfer

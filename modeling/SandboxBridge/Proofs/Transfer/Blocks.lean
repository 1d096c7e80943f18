import SandboxBridge.Proofs.Transfer.Choice
import SandboxBridge.Proofs.Transfer.Placement

/-!
The blocks that a module's own allocator hands out, to the module and to a bridge that encodes
strings. They come one after another, and what was put into one stays there.
-/

namespace SandboxBridge

open Work

def Guest.fresh (resizes : Bool) (functions : Nat) (hasStart : Bool) : Guest :=
  { allocator := { exportsRealloc := resizes }, offersRealloc := resizes, functions, hasStart }

namespace Machine

open Transfer (Extent)

variable {m : Machine} {s t : Allocator × Memory}

theorem alike_without :
    (provider false).Alike Stands { Transfer.native with realloc := none } where
  malloc := malloc_agrees
  realloc := .none
  write := alike_native.write
  growing := alike_native.growing

theorem encode_stands (text : String) (stands : Stands m s) : ∃ fast,
    ((encode text).run m).1 = ((Transfer.encode Transfer.native fast text).run s).1 ∧
      Stands ((encode text).run m).2 ((Transfer.encode Transfer.native fast text).run s).2 := by
  obtain ⟨journal, ran⟩ := run_encode text m
  rw [ran]
  cases m.guest.offersRealloc with
  | true =>
    obtain ⟨result, after⟩ :=
      (Transfer.encode_agrees alike_native m.settings.asciiFastPath text).agreed stands
    exact ⟨_, result, after.same, after.unscripted⟩
  | false =>
    obtain ⟨result, after⟩ :=
      (Transfer.encode_agrees alike_without m.settings.asciiFastPath text).agreed stands
    exact ⟨false, result, after.same, after.unscripted⟩

/-- A call that is answered with a block: one filled with data, an empty one, or one with a string
that is encoded the one way or the other. -/
inductive BlockCall where
  | place (data : ByteArray)
  | malloc (size : Nat)
  | encode (asciiFirst : Bool) (text : String)

namespace BlockCall

def perform : BlockCall → Local Extent
  | .place data => do
    let (start, length) ← Machine.place data
    return ⟨start, length⟩
  | .malloc size => do
    let start ← Machine.malloc size
    return ⟨start, size⟩
  | .encode asciiFirst text => do
    modify (·.withFastPath asciiFirst)
    Machine.encode text

def contents : BlockCall → Option ByteArray
  | .place data => some data
  | .malloc _ => none
  | .encode _ text => some text.toUTF8

def own (fast : Bool) : BlockCall → Allocator.Action Extent
  | .place data => do
    let (start, length) ← Allocator.place data
    return ⟨start, length⟩
  | .malloc size => do
    let start ← Allocator.malloc size
    return ⟨start, size⟩
  | .encode _ text => Transfer.encode Transfer.native fast text

theorem perform_stands (call : BlockCall) (stands : Stands m s) : ∃ fast,
    (call.perform.run m).1 = ((call.own fast).run s).1 ∧
      Stands (call.perform.run m).2 ((call.own fast).run s).2 := by
  cases call with
  | place data =>
    have placing : Agrees Stands (onAllocator (Allocator.place data) >>= pure).run
        (Allocator.place data).run := onAllocator_agrees _ fun _ m => ⟨m.journal, rfl⟩
    rw [bind_pure] at placing
    have : Agrees Stands (perform (.place data)).run (own false (.place data)).run :=
      .bind placing fun _ => inferInstance
    exact ⟨false, this.agreed stands⟩
  | malloc size =>
    have : Agrees Stands (perform (.malloc size)).run (own false (.malloc size)).run :=
      .bind (malloc_agrees size) fun _ => inferInstance
    exact ⟨false, this.agreed stands⟩
  | encode asciiFirst text =>
    have chosen : Stands (m.withFastPath asciiFirst) s := ⟨stands.same, stands.unscripted⟩
    exact encode_stands text chosen

/-- The state of an allocator over a memory of pages that is in use. -/
structure Ready (s : Allocator × Memory) : Prop where
  positive : 8 ≤ s.1.top
  paged : s.2.IsPaged
  attached : s.2.buffer.detached = false

theorem Ready.retained (ready : Ready s) (retains : Allocator.Retains s.1.top s t) : Ready t :=
  ⟨Nat.le_trans ready.positive retains.top, retains.memory.paged ready.paged,
    retains.memory.attached ready.attached⟩

variable {extent : Extent}

theorem own_retains (call : BlockCall) (fast : Bool) (s : Allocator × Memory) :
    Allocator.Retains s.1.top s ((call.own fast).run s).2 := by
  cases call with
  | place data =>
    exact .bind (Allocator.retains_place (Nat.le_refl _) data) fun _ _ _ below => .refl below
  | malloc size =>
    exact .bind (Allocator.retains_malloc (Nat.le_refl _) size) fun _ _ _ below => .refl below
  | encode _ text => exact Transfer.retains_encode (Nat.le_refl _) fast text

theorem own_grants {call : BlockCall} {fast : Bool} (ready : Ready s)
    (granted : (call.own fast).run s = (.ok extent, t)) :
    s.1.top ≤ extent.start ∧ Allocator.LastBlock extent.start extent.length t ∧
      ∀ data ∈ call.contents, extent.length = data.size ∧ t.2.Holds extent.start data := by
  have positive : 0 < s.1.top := Nat.lt_of_lt_of_le (by decide) ready.positive
  cases call with
  | place data =>
    obtain ⟨⟨start, length⟩, u, placed, done⟩ := bind_eq_ok granted
    cases done
    obtain ⟨above, exact, block, holds⟩ :=
      Allocator.lastBlock_of_place ready.paged positive placed
    refine ⟨above, block, ?_⟩
    rintro _ ⟨⟩
    exact ⟨exact, holds⟩
  | malloc size =>
    obtain ⟨start, u, served, done⟩ := bind_eq_ok granted
    cases done
    obtain ⟨above, block⟩ := Allocator.lastBlock_of_malloc ready.paged positive served
    exact ⟨above, block, nofun⟩
  | encode _ text =>
    obtain ⟨above, exact, block, holds⟩ := Transfer.lastBlock_of_encode granted
    refine ⟨above, block, ?_⟩
    rintro _ ⟨⟩
    exact ⟨exact, holds⟩

theorem own_refuses {call : BlockCall} {fast : Bool} {e : Error} (ready : Ready s)
    (plain : ∀ asciiFirst text, call ≠ .encode asciiFirst text)
    (refused : (call.own fast).run s = (.error e, t)) : Allocator.Unmoved s t := by
  have positive : 0 < s.1.top := Nat.lt_of_lt_of_le (by decide) ready.positive
  cases call with
  | place data =>
    obtain failed | ⟨_, _, _, done⟩ := bind_eq_error refused
    · exact Allocator.unmoved_of_place ready.paged positive failed
    · cases done
  | malloc size =>
    obtain failed | ⟨_, _, _, done⟩ := bind_eq_error refused
    · exact Allocator.unmoved_of_malloc failed
    · cases done
  | encode asciiFirst text => exact absurd rfl (plain asciiFirst text)

end BlockCall

/-! Series of calls. -/

def afterCalls (m : Machine) : List BlockCall → Machine
  | [] => m
  | call :: rest => (call.perform.run m).2.afterCalls rest

/-- The blocks handed out in a series of calls, the first one first. -/
def blocks (m : Machine) : List BlockCall → List (BlockCall × Extent)
  | [] => []
  | call :: rest =>
    ((call.perform.run m).1.toOption.map fun extent => (call, extent)).toList ++
      (call.perform.run m).2.blocks rest

/-- Blocks one after another below the end of the last one, each with what was put there. -/
structure Laid (blocks : List (BlockCall × Extent)) (s : Allocator × Memory) : Prop where
  aligned : ∀ block ∈ blocks, block.2.start % 8 = 0 ∧ 8 ≤ block.2.start
  inside : ∀ block ∈ blocks, block.2.start + block.2.length ≤ min s.1.top s.2.size
  apart : blocks.Pairwise fun early late => early.2.start + early.2.length ≤ late.2.start
  holds : ∀ block ∈ blocks, ∀ data ∈ block.1.contents,
    block.2.length = data.size ∧ s.2.Holds block.2.start data

variable {blocks : List (BlockCall × Extent)}

theorem Laid.retained (laid : Laid blocks s) (retains : Allocator.Retains s.1.top s t) :
    Laid blocks t where
  aligned := laid.aligned
  inside block member := by
    have inside := laid.inside block member
    have top := retains.top
    have size := retains.memory.size
    omega
  apart := laid.apart
  holds block member data contained := by
    obtain ⟨exact, holds⟩ := laid.holds block member data contained
    have inside := laid.inside block member
    exact ⟨exact, retains.memory.holds holds (by omega)⟩

theorem Laid.append {top : Nat} {call : BlockCall} {extent : Extent} (laid : Laid blocks t)
    (below : ∀ block ∈ blocks, block.2.start + block.2.length ≤ top) (positive : 8 ≤ top)
    (above : top ≤ extent.start) (last : Allocator.LastBlock extent.start extent.length t)
    (holds : ∀ data ∈ call.contents, extent.length = data.size ∧ t.2.Holds extent.start data) :
    Laid (blocks ++ [(call, extent)]) t where
  aligned := by
    simp only [List.forall_mem_append, List.forall_mem_singleton]
    exact ⟨laid.aligned, last.aligned, Nat.le_trans positive above⟩
  inside := by
    simp only [List.forall_mem_append, List.forall_mem_singleton]
    exact ⟨laid.inside, Nat.le_min.mpr ⟨Nat.le_of_eq last.top.symm, last.inside⟩⟩
  apart := by
    refine List.pairwise_append.mpr ⟨laid.apart, List.pairwise_singleton _ _, ?_⟩
    intro block member late only
    cases List.mem_singleton.mp only
    exact Nat.le_trans (below block member) above
  holds := by
    simp only [List.forall_mem_append, List.forall_mem_singleton]
    exact ⟨laid.holds, holds⟩

theorem Laid.perform (call : BlockCall) (laid : Laid blocks s) (ready : BlockCall.Ready s)
    (stands : Stands m s) : ∃ t, Stands (call.perform.run m).2 t ∧ BlockCall.Ready t ∧
      Laid (blocks ++ ((call.perform.run m).1.toOption.map fun extent => (call, extent)).toList)
        t := by
  obtain ⟨fast, answer, after⟩ := call.perform_stands stands
  have retains := call.own_retains fast s
  refine ⟨_, after, ready.retained retains, ?_⟩
  rw [answer]
  cases ran : (call.own fast).run s with
  | mk result t =>
    rw [ran] at retains
    have laid' := laid.retained retains
    cases result with
    | error e => simpa [Except.toOption] using laid'
    | ok extent =>
      obtain ⟨above, last, holds⟩ := BlockCall.own_grants ready ran
      exact laid'.append
        (fun block member => Nat.le_trans (laid.inside block member) (Nat.min_le_left _ _))
        ready.positive above last holds

theorem laid_afterCalls (calls : List BlockCall) (laid : Laid blocks s)
    (ready : BlockCall.Ready s) (stands : Stands m s) :
    ∃ t, Stands (m.afterCalls calls) t ∧ BlockCall.Ready t ∧ Laid (blocks ++ m.blocks calls) t := by
  induction calls generalizing m s blocks with
  | nil => exact ⟨s, stands, ready, by rwa [Machine.blocks, List.append_nil]⟩
  | cons call rest ih =>
    obtain ⟨t, stands', ready', laid'⟩ := laid.perform call ready stands
    rw [Machine.blocks, ← List.append_assoc]
    exact ih laid' ready' stands'

theorem stands_create (settings : Settings) (pages : Nat) (maxPages : Option Nat) (resizes : Bool)
    (functions : Nat) (hasStart : Bool) (store : Store) (global : ObjectId) :
    Stands (create settings (.ofPages pages maxPages) (.fresh resizes functions hasStart) store
      global) ({ exportsRealloc := resizes }, .ofPages pages maxPages) := by
  have frame := frame_create settings (.ofPages pages maxPages)
    (.fresh resizes functions hasStart) store global
  refine ⟨congrArg (fun part => (part.2.2.allocator, part.2.1)) frame, fun entry => ?_⟩
  exact congrArg (fun part => part.2.2.overrides entry) frame

/-- The module fills blocks and asks for empty ones, and the bridge encodes strings, in any order
and whether or not all of them succeed. The blocks are aligned, inside the memory and below the end of
the last one, and each starts past the one before. Whatever was put into them is read back, and
strings are decoded. A call of the module's own that fails changes nothing. -/
theorem blocks_laid (settings : Settings) (pages : Nat) (maxPages : Option Nat) (resizes : Bool)
    (functions : Nat) (hasStart : Bool) (store : Store) (global : ObjectId)
    (calls : List BlockCall) (next : BlockCall) :
    let fresh := create settings (.ofPages pages maxPages) (.fresh resizes functions hasStart) store
      global
    let m := fresh.afterCalls calls
    ((fresh.blocks calls).Pairwise fun early late =>
      early.2.start + early.2.length ≤ late.2.start) ∧
    (∀ call extent, (call, extent) ∈ fresh.blocks calls →
      extent.start % 8 = 0 ∧ 8 ≤ extent.start ∧
      extent.start + extent.length ≤ min m.guest.allocator.top m.memory.size ∧
      (∀ data ∈ call.contents, m.memory.read extent.start extent.length = .ok data) ∧
      (∀ asciiFirst text, call = .encode asciiFirst text →
        ((decode extent.start extent.length).run m).1 = .ok text)) ∧
    ((∀ asciiFirst text, next ≠ .encode asciiFirst text) →
      ∀ e m', next.perform.run m = (.error e, m') →
        m'.guest.allocator.top = m.guest.allocator.top ∧
        m'.guest.allocator.last = m.guest.allocator.last ∧ m'.memory = m.memory) := by
  intro fresh m
  have ready : BlockCall.Ready ({ exportsRealloc := resizes }, .ofPages pages maxPages) :=
    ⟨Nat.le_refl _, Memory.isPaged_ofPages pages maxPages,
      (Memory.spans_ofPages pages maxPages).attached⟩
  have none : Laid [] ({ exportsRealloc := resizes }, .ofPages pages maxPages) :=
    ⟨nofun, nofun, .nil, nofun⟩
  obtain ⟨s, stands, ready, laid⟩ := laid_afterCalls calls none ready
    (stands_create settings pages maxPages resizes functions hasStart store global)
  have provision : m.provision = s := stands.same
  subst provision
  refine ⟨laid.apart, fun call extent member => ?_, fun plain e m' refused => ?_⟩
  · obtain ⟨aligned, low⟩ := laid.aligned _ member
    have inside := laid.inside _ member
    have fits : extent.start + extent.length ≤ m.memory.size :=
      Nat.le_trans inside (Nat.min_le_right _ _)
    refine ⟨aligned, low, inside, fun data contained => ?_, ?_⟩
    · obtain ⟨exact, holds⟩ := laid.holds _ member data contained
      rw [exact] at fits ⊢
      exact Memory.read_of_holds ready.attached fits holds
    · rintro asciiFirst text rfl
      obtain ⟨exact, holds⟩ := laid.holds _ member text.toUTF8 rfl
      obtain ⟨journal, ran⟩ := run_onMemory (Transfer.decode extent.start extent.length) m
      rw [decode, ran, exact]
      rw [exact] at fits
      exact Transfer.decode_of_holds ready.attached fits holds
  · obtain ⟨fast, answer, after⟩ := next.perform_stands stands
    rw [refused] at answer after
    have failed : (next.own fast).run m.provision = (.error e, m'.provision) :=
      Prod.ext answer.symm after.same.symm
    have unmoved := BlockCall.own_refuses ready plain failed
    exact ⟨unmoved.top, unmoved.last, unmoved.memory⟩

end Machine

end SandboxBridge

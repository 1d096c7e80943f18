import Mathlib.Data.List.Perm.Basic
import SandboxBridge.Proofs.Allocator.Retention
import SandboxBridge.Transfer

/-!
Blocks in use. The allocator knows the block that it may resize where it is by its start alone, and
a block of no bytes has the start of the next one. Unless such a block is mistaken for that one,
blocks in use stay apart, and keep their bytes.
-/

namespace SandboxBridge.Allocator

open Transfer (Extent)
open Work

inductive Use where
  | place (data : ByteArray)
  | malloc (size : Nat)
  | realloc (block : Extent) (size : Nat)

namespace Use

def perform : Use → Action Extent
  | .place data => do
    let (start, length) ← Allocator.place data
    return ⟨start, length⟩
  | .malloc size => do
    let start ← Allocator.malloc size
    return ⟨start, size⟩
  | .realloc block size => do
    let start ← Allocator.realloc block.start block.length size
    return ⟨start, size⟩

def others (live : List Extent) : Use → List Extent
  | .realloc block _ => live.erase block
  | .place _ | .malloc _ => live

/-- Only a block in use is resized, from the size that it has. -/
def Proper (live : List Extent) (_ : Allocator) : Use → Prop
  | .realloc block _ => block ∈ live
  | .place _ | .malloc _ => True

/-- Besides, a block of no bytes is not resized while it has the start of the last block, which has
some. -/
def Distinct (live : List Extent) (a : Allocator) : Use → Prop
  | .realloc block _ => block ∈ live ∧ (block.length = 0 → a.last = some block.start →
    ∀ other ∈ live, other.start = block.start → other.length = 0)
  | .place _ | .malloc _ => True

end Use

def Use.leaves (live : List Extent) (use : Use) : Except Error Extent → List Extent
  | .ok block => block :: use.others live
  | .error _ => live

/-- The blocks in use, and the state, that calls lead to, if each is allowed when it is made. -/
inductive Reaches (allowed : List Extent → Allocator → Use → Prop) (origin : Allocator × Memory) :
    List Extent → Allocator × Memory → Prop
  | start : Reaches allowed origin [] origin
  | step {live : List Extent} {s : Allocator × Memory} {use : Use}
    (reached : Reaches allowed origin live s) (asked : allowed live s.1 use) :
    Reaches allowed origin (use.leaves live (use.perform.run s).1) (use.perform.run s).2

def Apart (one other : Extent) : Prop :=
  one.length = 0 ∨ other.length = 0 ∨ one.start + one.length ≤ other.start ∨
    other.start + other.length ≤ one.start

instance (one other : Extent) : Decidable (Apart one other) :=
  inferInstanceAs (Decidable (_ ∨ _))

theorem Apart.symm {one other : Extent} (apart : Apart one other) : Apart other one := by
  unfold Apart at *
  omega

/-- Blocks in use are apart, inside the memory, and end where the last block starts, if they do not
start there too. -/
structure Tidy (live : List Extent) (s : Allocator × Memory) : Prop where
  positive : 8 ≤ s.1.top
  paged : s.2.IsPaged
  attached : s.2.buffer.detached = false
  inside : ∀ block ∈ live, 8 ≤ block.start ∧
    block.start + block.length ≤ min s.1.top s.2.size
  ends : ∀ block ∈ live, ∃ last ∈ s.1.last, block.start = last ∨ block.start + block.length ≤ last
  apart : live.Pairwise Apart

variable {live : List Extent} {s t : Allocator × Memory} {use : Use} {block extent : Extent}

theorem realloc_cases {a : Allocator} {m : Memory} {start oldSize size : Nat}
    {result : Except Error Nat} (ran : (realloc start oldSize size).run (a, m) = (result, t)) :
    (∃ e, result = .error e ∧ Unmoved (a, m) t) ∨
    (a.last = some start ∧ result = .ok start ∧ t.1.last = some start ∧ t.1.top = start + size ∧
      m.reaching (start + size) = some t.2) ∨
    (∃ moved m' copied, (bump size).run ({ a with reallocs := a.reallocs + 1 }, m) =
        (.ok moved, t.1, m') ∧
      (Memory.copyWithin start moved (min oldSize size)).run m' = (copied, t.2) ∧
      result = copied.map fun _ => moved) := by
  by_cases lacks : a.exportsRealloc = false
  · rw [run_realloc_without lacks] at ran
    cases ran
    exact .inl ⟨_, rfl, rfl, rfl, rfl⟩
  · have exports : a.exportsRealloc = true := by simpa using lacks
    -- Only the address is compared: the block itself may be older than the last one.
    by_cases last : a.last = some start
    · rw [run_realloc_last exports last] at ran
      split at ran
      next =>
        split at ran
        next m' found =>
          cases ran
          exact .inr (.inl ⟨last, rfl, last, rfl, found⟩)
        next =>
          cases ran
          exact .inl ⟨_, rfl, rfl, rfl, rfl⟩
      next =>
        cases ran
        exact .inl ⟨_, rfl, rfl, rfl, rfl⟩
    · rw [run_realloc_moving exports last, move, run_bind] at ran
      cases bumped : (bump size).run ({ a with reallocs := a.reallocs + 1 }, m) with
      | mk answer u =>
        rw [bumped] at ran
        cases answer with
        | error e =>
          cases ran
          cases unmoved_of_bump bumped
          exact .inl ⟨e, rfl, rfl, rfl, rfl⟩
        | ok moved =>
          obtain ⟨a', m'⟩ := u
          dsimp only at ran
          rw [run_bind, run_onMemory] at ran
          cases copied : (Memory.copyWithin start moved (min oldSize size)).run m' with
          | mk done m'' =>
            rw [copied] at ran
            have same : t = (a', m'') ∧ result = done.map fun _ => moved := by
              cases done <;> cases ran <;> exact ⟨rfl, rfl⟩
            obtain ⟨rfl, rfl⟩ := same
            exact .inr (.inr ⟨moved, m', done, rfl, copied, rfl⟩)

theorem lastBlock_of_move {a a' : Allocator} {m m' : Memory} {size moved : Nat}
    (paged : m.IsPaged) (positive : 0 < a.top)
    (bumped : (bump size).run ({ a with reallocs := a.reallocs + 1 }, m) = (.ok moved, a', m')) :
    a.top ≤ moved ∧ LastBlock moved size (a', m') ∧ m.Retains a.top m' := by
  obtain ⟨above, last⟩ :=
    lastBlock_of_bump (a := { a with reallocs := a.reallocs + 1 }) paged positive bumped
  obtain ⟨-, -, found, -⟩ := bump_eq_ok bumped
  exact ⟨above, last, Memory.retains_reaching found a.top⟩

theorem retains_perform (use : Use) (s : Allocator × Memory) :
    s.2.Retains s.1.top (use.perform.run s).2.2 := by
  have below := Nat.le_refl s.1.top
  unfold Use.perform
  cases use with
  | place data =>
    rw [run_bind_pure]
    exact (retains_place below data).memory
  | malloc size =>
    rw [run_bind_pure]
    exact (retains_malloc below size).memory
  | realloc block size =>
    rw [run_bind_pure]
    cases ran : (realloc block.start block.length size).run s with
    | mk result t =>
      obtain ⟨e, -, unmoved⟩ | ⟨-, -, -, -, found⟩ | ⟨moved, m', copied, bumped, copy, -⟩ :=
        realloc_cases ran
      · rw [unmoved.memory]
        exact .refl _ _
      · exact Memory.retains_reaching found _
      · obtain ⟨aligned, -, found, -⟩ := bump_eq_ok bumped
        have copying := Memory.retains_copyWithin (m := m') (alignUp_eq_ok aligned).1 block.start
          (min block.length size)
        rw [copy] at copying
        exact (Memory.retains_reaching found s.1.top).trans copying

/-! Blocks in use. -/

theorem Tidy.retained (tidy : Tidy live s) (retains : s.2.Retains s.1.top t.2)
    (top : s.1.top ≤ t.1.top)
    (ends : t.1.last = s.1.last ∨ ∃ last ∈ t.1.last, s.1.top ≤ last) : Tidy live t where
  positive := Nat.le_trans tidy.positive top
  paged := retains.paged tidy.paged
  attached := retains.attached tidy.attached
  inside block member := by
    obtain ⟨low, inside⟩ := tidy.inside block member
    have size := retains.size
    omega
  ends block member := by
    rcases ends with same | ⟨last, found, above⟩
    · rw [same]
      exact tidy.ends block member
    · obtain ⟨-, inside⟩ := tidy.inside block member
      exact ⟨last, found, .inr (by omega)⟩
  apart := tidy.apart

theorem Tidy.unmoved (tidy : Tidy live s) (unmoved : Unmoved s t) : Tidy live t := by
  refine tidy.retained ?_ (Nat.le_of_eq unmoved.top.symm) (.inl unmoved.last)
  rw [unmoved.memory]
  exact .refl _ _

theorem Tidy.joined (tidy : Tidy live s) (retains : s.2.Retains s.1.top t.2)
    {rest : List Extent} (fewer : rest.Sublist live) (above : s.1.top ≤ block.start)
    (last : LastBlock block.start block.length t) : Tidy (block :: rest) t := by
  have top : s.1.top ≤ t.1.top := by
    rw [last.top]
    omega
  have stays : Tidy live t := tidy.retained retains top (.inr ⟨_, last.last, above⟩)
  refine ⟨stays.positive, stays.paged, stays.attached, ?_, ?_, ?_⟩
  · refine List.forall_mem_cons.mpr ⟨⟨Nat.le_trans tidy.positive above, ?_⟩, fun other member =>
      stays.inside other (fewer.subset member)⟩
    exact Nat.le_min.mpr ⟨Nat.le_of_eq last.top.symm, last.inside⟩
  · exact List.forall_mem_cons.mpr ⟨⟨_, last.last, .inl rfl⟩, fun other member =>
      stays.ends other (fewer.subset member)⟩
  · refine List.pairwise_cons.mpr ⟨fun other member => ?_, stays.apart.sublist fewer⟩
    obtain ⟨-, inside⟩ := tidy.inside other (fewer.subset member)
    unfold Apart
    omega

/-- The last block is resized where it is. What else starts there has no bytes. -/
theorem Tidy.resized (tidy : Tidy live s) (member : block ∈ live)
    (distinct : block.length = 0 → ∀ other ∈ live, other.start = block.start → other.length = 0)
    (last : s.1.last = some block.start) {size : Nat} (stays : t.1.last = some block.start)
    (top : t.1.top = block.start + size)
    (found : s.2.reaching (block.start + size) = some t.2) :
    Tidy (⟨block.start, size⟩ :: live.erase block) t := by
  obtain ⟨low, -⟩ := tidy.inside block member
  have retains := Memory.retains_reaching found s.1.top
  have reached := tidy.paged.reached found (by omega)
  obtain ⟨apart, others⟩ := List.pairwise_cons.mp
    (tidy.apart.perm (List.perm_cons_erase member) Apart.symm)
  -- A block with bytes shares its start with none that has some, as the two are apart.
  have before : ∀ other ∈ live.erase block,
      other.start + other.length ≤ block.start := by
    intro other left
    have among := List.mem_of_mem_erase left
    have away := apart other left
    obtain ⟨_, same, early⟩ := tidy.ends other among
    cases last.symm.trans same
    rcases early with start | early
    · have empty : other.length = 0 := by
        by_cases none : block.length = 0
        · exact distinct none other among start
        · unfold Apart at away
          omega
      omega
    · exact early
  refine ⟨by omega, retains.paged tidy.paged, retains.attached tidy.attached, ?_, ?_, ?_⟩
  · refine List.forall_mem_cons.mpr ⟨⟨low, ?_⟩, fun other left => ?_⟩
    · exact Nat.le_min.mpr ⟨Nat.le_of_eq top.symm, reached.2⟩
    · obtain ⟨low, inside⟩ := tidy.inside other (List.mem_of_mem_erase left)
      have early := before other left
      have size := retains.size
      omega
  · exact List.forall_mem_cons.mpr ⟨⟨_, stays, .inl rfl⟩, fun other left =>
      ⟨_, stays, .inr (before other left)⟩⟩
  · refine List.pairwise_cons.mpr ⟨fun other left => ?_, others⟩
    exact .inr (.inr (.inr (before other left)))

theorem Tidy.place (tidy : Tidy live s) (data : ByteArray) :
    Tidy ((Use.place data).leaves live ((Use.place data).perform.run s).1)
      ((Use.place data).perform.run s).2 := by
  have positive : 0 < s.1.top := Nat.lt_of_lt_of_le (by decide) tidy.positive
  have retains := (retains_place (Nat.le_refl s.1.top) data).memory
  unfold Use.perform
  rw [run_bind_pure]
  cases ran : (Allocator.place data).run s with
  | mk result t =>
    rw [ran] at retains
    cases result with
    | error e => exact tidy.unmoved (unmoved_of_place tidy.paged positive ran)
    | ok placed =>
      obtain ⟨above, -, last, -⟩ := lastBlock_of_place tidy.paged positive ran
      exact tidy.joined retains (List.Sublist.refl _) above last

theorem Tidy.malloc (tidy : Tidy live s) (size : Nat) :
    Tidy ((Use.malloc size).leaves live ((Use.malloc size).perform.run s).1)
      ((Use.malloc size).perform.run s).2 := by
  have positive : 0 < s.1.top := Nat.lt_of_lt_of_le (by decide) tidy.positive
  have retains := (retains_malloc (Nat.le_refl s.1.top) size).memory
  unfold Use.perform
  rw [run_bind_pure]
  cases ran : (Allocator.malloc size).run s with
  | mk result t =>
    rw [ran] at retains
    cases result with
    | error e => exact tidy.unmoved (unmoved_of_malloc ran)
    | ok start =>
      obtain ⟨above, last⟩ := lastBlock_of_malloc tidy.paged positive ran
      exact tidy.joined retains (List.Sublist.refl _) above last

theorem Tidy.realloc (tidy : Tidy live s) {size : Nat}
    (distinct : (Use.realloc block size).Distinct live s.1) :
    Tidy ((Use.realloc block size).leaves live ((Use.realloc block size).perform.run s).1)
      ((Use.realloc block size).perform.run s).2 := by
  have positive : 0 < s.1.top := Nat.lt_of_lt_of_le (by decide) tidy.positive
  have retains := retains_perform (.realloc block size) s
  obtain ⟨member, distinct⟩ := distinct
  unfold Use.perform at retains ⊢
  rw [run_bind_pure] at retains ⊢
  cases ran : (Allocator.realloc block.start block.length size).run s with
  | mk result t =>
    rw [ran] at retains
    obtain ⟨e, rfl, unmoved⟩ | ⟨last, rfl, stays, top, found⟩ |
        ⟨moved, m', copied, bumped, copy, rfl⟩ := realloc_cases ran
    · exact tidy.unmoved unmoved
    · exact tidy.resized member (fun none => distinct none last) last stays top found
    · obtain ⟨above, last, -⟩ := lastBlock_of_move tidy.paged positive bumped
      have copying := Memory.retains_copyWithin (m := m') above block.start (min block.length size)
      rw [copy] at copying
      have last : LastBlock moved size t := last.retained copying
      cases copied with
      | error e =>
        have top : s.1.top ≤ t.1.top := by
          rw [last.top]
          exact Nat.le_add_right_of_le above
        exact tidy.retained retains top (.inr ⟨moved, last.last, above⟩)
      | ok _ => exact tidy.joined retains List.erase_sublist above last

theorem Tidy.perform (tidy : Tidy live s) (distinct : use.Distinct live s.1) :
    Tidy (use.leaves live (use.perform.run s).1) (use.perform.run s).2 := by
  cases use with
  | place data => exact tidy.place data
  | malloc size => exact tidy.malloc size
  | realloc block size => exact tidy.realloc distinct

theorem tidy_of_reaches {pages : Nat} {maxPages : Option Nat} {resizes : Bool}
    (reached : Reaches Use.Distinct ({ exportsRealloc := resizes }, .ofPages pages maxPages) live
      s) : Tidy live s := by
  induction reached with
  | start =>
    exact ⟨Nat.le_refl _, Memory.isPaged_ofPages pages maxPages,
      (Memory.spans_ofPages pages maxPages).attached, nofun, nofun, .nil⟩
  | step reached asked tidy => exact tidy.perform asked

theorem Tidy.resized_bytes (tidy : Tidy live s) (member : block ∈ live) {size moved : Nat}
    (ran : (Allocator.realloc block.start block.length size).run s = (.ok moved, t)) :
    ∀ offset < min block.length size,
      t.2.byte? (moved + offset) = s.2.byte? (block.start + offset) := by
  intro offset short
  obtain ⟨low, inside⟩ := tidy.inside block member
  obtain ⟨e, refused, -⟩ | ⟨-, same, -, -, found⟩ | ⟨place, m', copied, bumped, copy, same⟩ :=
    realloc_cases ran
  · cases refused
  · cases same
    exact (Memory.retains_reaching found s.1.top).byte (by omega) (by omega)
  · have positive : 0 < s.1.top := Nat.lt_of_lt_of_le (by decide) tidy.positive
    obtain ⟨above, last, retains⟩ := lastBlock_of_move tidy.paged positive bumped
    have grown : s.2.size ≤ m'.size := retains.size
    have reaches : place + size ≤ m'.size := last.inside
    have source : block.start + min block.length size ≤ m'.size := by omega
    have target : place + min block.length size ≤ m'.size := by omega
    have attached : m'.buffer.detached = false := last.attached
    obtain ⟨m'', ran, bytes⟩ := Memory.copyWithin_ok attached source target
    rw [ran] at copy
    obtain ⟨rfl, rfl⟩ := Prod.mk.inj copy
    cases same
    rw [bytes offset short]
    exact retains.byte (by omega) (by omega)

/-- The module asks for blocks and for other sizes of those in use, as long as no block of no bytes
is mistaken for the last one. Blocks in use are apart and inside the memory; no call changes their
bytes, and a block that is resized begins with what it held. -/
theorem live_blocks_apart {pages : Nat} {maxPages : Option Nat} {resizes : Bool}
    {live : List Extent} {s : Allocator × Memory}
    (reached : Reaches Use.Distinct ({ exportsRealloc := resizes }, .ofPages pages maxPages) live
      s) :
    live.Pairwise Apart ∧
    (∀ block ∈ live, 8 ≤ block.start ∧ block.start + block.length ≤ s.2.size) ∧
    ∀ use : Use, use.Proper live s.1 → ∀ result t, use.perform.run s = (result, t) →
      (∀ block ∈ live, ∀ offset < block.length,
        t.2.byte? (block.start + offset) = s.2.byte? (block.start + offset)) ∧
      ∀ block size extent, use = .realloc block size → result = .ok extent →
        ∀ offset < min block.length size,
          t.2.byte? (extent.start + offset) = s.2.byte? (block.start + offset) := by
  have tidy := tidy_of_reaches reached
  refine ⟨tidy.apart, fun block member => ?_, fun use proper result t ran => ⟨?_, ?_⟩⟩
  · obtain ⟨low, inside⟩ := tidy.inside block member
    exact ⟨low, Nat.le_trans inside (Nat.min_le_right _ _)⟩
  · intro block member offset within
    obtain ⟨-, inside⟩ := tidy.inside block member
    have retains := retains_perform use s
    rw [ran] at retains
    exact retains.byte (by omega) (by omega)
  · rintro block size extent rfl rfl
    obtain ⟨moved, u, served, done⟩ := bind_eq_ok ran
    cases done
    exact tidy.resized_bytes proper served

/-! A block of no bytes, and the next one at the same start. -/

variable {allowed : List Extent → Allocator → Use → Prop} {origin : Allocator × Memory}

theorem Reaches.after {result : Except Error Extent} (reached : Reaches allowed origin live s)
    (asked : allowed live s.1 use) (ran : use.perform.run s = (result, t)) :
    Reaches allowed origin (use.leaves live result) t := by
  have next := reached.step asked
  rwa [ran] at next

theorem run_malloc_page {a : Allocator} {start size : Nat} (aligned : alignUp a.top = .ok start)
    (fits : start + size ≤ 65536) :
    (Use.malloc size).perform.run (a, .ofPages 1 none) = (.ok ⟨start, size⟩,
      { a with mallocs := a.mallocs + 1, top := start + size, last := some start },
      .ofPages 1 none) := by
  have found : (Memory.ofPages 1 none).reaching (start + size) = some (.ofPages 1 none) :=
    (Memory.spans_ofPages 1 none).reaching_of_le (by unfold Memory.pagesTo pageSize; omega)
  have small : start + size < UInt32.size := Nat.lt_of_le_of_lt fits (by decide)
  unfold Use.perform
  rw [run_bind_pure, malloc_ok aligned small found]
  rfl

theorem run_realloc_page {a : Allocator} {block : Extent} {size : Nat}
    (exports : a.exportsRealloc = true) (last : a.last = some block.start)
    (fits : block.start + size ≤ 65536) :
    (Use.realloc block size).perform.run (a, .ofPages 1 none) = (.ok ⟨block.start, size⟩,
      { a with reallocs := a.reallocs + 1, top := block.start + size }, .ofPages 1 none) := by
  have found : (Memory.ofPages 1 none).reaching (block.start + size) = some (.ofPages 1 none) :=
    (Memory.spans_ofPages 1 none).reaching_of_le (by unfold Memory.pagesTo pageSize; omega)
  have small : block.start + size < UInt32.size := Nat.lt_of_le_of_lt fits (by decide)
  unfold Use.perform
  rw [run_bind_pure, realloc_last_ok exports last small found]
  rfl

theorem reaches_shared (free : ∀ live a size, allowed live a (.malloc size)) :
    Reaches allowed ({}, .ofPages 1 none) [⟨8, 16⟩, ⟨8, 0⟩]
      ({ top := 24, last := some 8, mallocs := 2 }, .ofPages 1 none) :=
  (Reaches.start.after (free _ _ 0) (run_malloc_page rfl (by decide))).after (free _ _ 16)
    (run_malloc_page rfl (by decide))

theorem live_blocks_apart_shared :
    Reaches Use.Distinct ({}, .ofPages 1 none) [⟨8, 32⟩, ⟨8, 0⟩]
      ({ top := 40, last := some 8, mallocs := 2, reallocs := 1 }, .ofPages 1 none) ∧
    [(⟨8, 32⟩ : Extent), ⟨8, 0⟩].Pairwise Apart := by
  have shared : Reaches Use.Distinct ({}, .ofPages 1 none) _ _ :=
    reaches_shared fun _ _ _ => trivial
  have asked : Use.Distinct [⟨8, 16⟩, ⟨8, 0⟩] { top := 24, last := some 8, mallocs := 2 }
      (.realloc ⟨8, 16⟩ 32) := ⟨by decide, nofun⟩
  have reached := shared.after asked (run_realloc_page rfl rfl (by decide))
  exact ⟨reached, (live_blocks_apart reached).1⟩

/-- The block of no bytes is taken for the last one and grows over it. -/
theorem live_blocks_overlap : ∃ live s,
    Reaches Use.Proper ({}, .ofPages 1 none) live s ∧ ¬live.Pairwise Apart := by
  have shared : Reaches Use.Proper ({}, .ofPages 1 none) _ _ := reaches_shared fun _ _ _ => trivial
  have asked : Use.Proper [⟨8, 16⟩, ⟨8, 0⟩] { top := 24, last := some 8, mallocs := 2 }
      (.realloc ⟨8, 0⟩ 32) := List.mem_of_elem_eq_true rfl
  have reached := shared.after asked (run_realloc_page rfl rfl (by decide))
  refine ⟨_, _, reached, fun apart => ?_⟩
  have overlap : ¬Apart ⟨8, 32⟩ ⟨8, 16⟩ := by decide
  exact overlap (List.rel_of_pairwise_cons apart (List.mem_of_elem_eq_true rfl))

end SandboxBridge.Allocator

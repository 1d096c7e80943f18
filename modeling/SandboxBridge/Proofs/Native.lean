import SandboxBridge.Proofs.Allocator
import SandboxBridge.Proofs.Contract

/-!
Bridges over a module with an allocator of its own, which does its own work and no other. They stay
so, whatever the code around them does, and so do those that can resize blocks and have a memory
that grows by pages, as long as nobody puts other bytes in the place of the memory.
-/

namespace SandboxBridge

open Machine Work

namespace Machine

def Unscripted (m : Machine) : Prop :=
  ∀ entry, m.guest.overrides entry = []

theorem Unscripted.of_guest {m m' : Machine} (unscripted : m.Unscripted)
    (same : m'.guest = m.guest) : m'.Unscripted := fun entry => by
  rw [same]
  exact unscripted entry

def script (m : Machine) : AllocatorEntry → List Override :=
  m.guest.overrides

instance : IgnoresMemory script :=
  ⟨fun _ _ _ _ => rfl⟩

instance : IgnoresHandles script :=
  ⟨fun _ _ _ _ => rfl⟩

end Machine

/-- The code around the bridge is free, which does not reach into the module's allocator. -/
abbrev Contract.unscripted : Contract :=
  .preserving Unscripted fun _ => True

theorem unscripted_of_keeps {α : Type} {work : StateM Machine α} (keeps : Keeps script work) :
    Contract.unscripted.discipline.rule.Allows work :=
  Contract.allows_of_leads fun m _ unscripted entry =>
    (congrFun (keeps.same m) entry).trans (unscripted entry)

instance : AllowsAside Contract.unscripted.discipline.rule where
  aside keeps :=
    unscripted_of_keeps ⟨fun m => congrArg (fun part => part.2.2.overrides) (keeps.same m)⟩

instance : AllowsGuest Contract.unscripted.discipline.rule where
  note _ _ _ := unscripted_of_keeps inferInstance
  grow _ := unscripted_of_keeps inferInstance
  decode _ _ := unscripted_of_keeps inferInstance
  write _ _ := unscripted_of_keeps inferInstance
  writePair _ _ _ := unscripted_of_keeps inferInstance
  malloc _ := unscripted_of_keeps inferInstance
  realloc _ _ _ := unscripted_of_keeps inferInstance
  free := unscripted_of_keeps inferInstance
  place _ := unscripted_of_keeps inferInstance
  nextOverride entry := Contract.allows_of_leads fun m _ unscripted => by
    rw [run_nextOverride_normal (unscripted entry)]
    exact unscripted
  recordCall _ := unscripted_of_keeps ⟨fun _ => rfl⟩

instance : AllowsTaking Contract.unscripted.discipline.rule :=
  .of_keeping unscripted_of_keeps ⟨fun _ => rfl⟩

instance : Contract.AllowsClosures Contract.unscripted :=
  .of_taking fun keeps m _ unscripted entry =>
    (congrArg (fun part => part.2.2.1.overrides entry) (keeps.same m)).trans (unscripted entry)

theorem Execution.unscripted_reaches {m : Machine} (unscripted : m.Unscripted) {x : Execution}
    (reached : Reaches (start m) x) : x.machine.Unscripted := by
  have free (y z : Execution) (step : Step y z) : Contract.unscripted.Honours y z :=
    .of_step (fun _ _ => trivial) (fun _ _ _ => trivial) step
  have honoured : Contract.unscripted.Reaches (start m) x :=
    Relation.ReflTransGen.mono free _ _ reached
  exact Contract.sound_of_reaches (fun _ _ _ => unscripted_of_keeps inferInstance) unscripted
    honoured

namespace Machine

/-- The module's own allocator works as it stands, can resize blocks, and has a memory that grows by
pages. -/
structure Native (m : Machine) : Prop where
  resizing : Allocator.Resizing (m.guest.allocator, m.memory)
  offers : m.guest.offersRealloc = true
  unscripted : ∀ entry, m.guest.overrides entry = []

def side (m : Machine) : Memory × Guest :=
  (m.memory, m.guest)

instance : IgnoresHandles side :=
  ⟨fun _ _ _ _ => rfl⟩

instance (start length : Nat) :
    Preserves Memory.IsPaged (Transfer.decode start length).run := by
  unfold Transfer.decode
  apply Follows.bind inferInstance
  intro bytes
  split <;> infer_instance

namespace Native

variable {α : Type} {m m' : Machine}

theorem of_side (native : m.Native) (same : m'.side = m.side) : m'.Native := by
  simp only [side, Prod.mk.injEq] at same
  obtain ⟨resizing, offers, unscripted⟩ := native
  rw [← same.1] at resizing
  rw [← same.2] at resizing offers unscripted
  exact ⟨resizing, offers, unscripted⟩

theorem onMemory (native : m.Native) (work : Memory.Action α)
    [preserves : Preserves Memory.IsPaged work.run] :
    Native ((Machine.onMemory work).run m).2 := by
  obtain ⟨journal, ran⟩ := run_onMemory work m
  rw [ran]
  obtain ⟨exports, paged⟩ := native.resizing
  exact ⟨⟨exports, preserves.allowed m.memory paged⟩, native.offers, native.unscripted⟩

theorem onAllocator (native : m.Native) (work : Allocator.Action α)
    [preserves : Preserves Allocator.Resizing work.run] :
    Native ((Machine.onAllocator work).run m).2 := by
  obtain ⟨journal, ran⟩ := run_onAllocator work m
  rw [ran]
  exact ⟨preserves.allowed _ native.resizing, native.offers, native.unscripted⟩

theorem create (settings : Settings) (pages : Nat) (maxPages : Option Nat) {guest : Guest}
    (store : Store) (global : ObjectId) (exports : guest.allocator.exportsRealloc = true)
    (offers : guest.offersRealloc = true) (unscripted : ∀ entry, guest.overrides entry = []) :
    Native (create settings (.ofPages pages maxPages) guest store global) := by
  have same := congrArg Prod.snd
    (frame_create settings (.ofPages pages maxPages) guest store global)
  apply of_side _ same
  exact ⟨⟨exports, Memory.isPaged_ofPages pages maxPages⟩, offers, unscripted⟩

end Native

end Machine

/-- The code around the bridge does not replace the memory by hand. -/
abbrev Contract.native : Contract :=
  .preserving Native fun request => ∀ bytes, request ≠ .memory (.replaceBuffer bytes)

open Contract

theorem native_of_keeps {α : Type} {work : StateM Machine α} (keeps : Keeps side work) :
    native.discipline.rule.Allows work :=
  allows_of_leads fun m _ native => native.of_side (keeps.same m)

instance : AllowsAside native.discipline.rule where
  aside keeps := native_of_keeps ⟨fun m => congrArg Prod.snd (keeps.same m)⟩

instance : AllowsGuest native.discipline.rule where
  note _ _ _ := native_of_keeps inferInstance
  grow _ := allows_of_leads fun _ _ native => native.onMemory _
  decode _ _ := allows_of_leads fun _ _ native => native.onMemory _
  write _ _ := allows_of_leads fun _ _ native => native.onMemory _
  writePair _ _ _ := allows_of_leads fun _ _ native => native.onMemory _
  malloc _ := allows_of_leads fun _ _ native => native.onAllocator _
  realloc _ _ _ := allows_of_leads fun _ _ native => native.onAllocator _
  free := allows_of_leads fun _ _ native => native.onAllocator _
  place _ := allows_of_leads fun _ _ native => native.onAllocator _
  nextOverride entry := allows_of_leads fun m _ native => by
    rw [run_nextOverride_normal (native.unscripted entry)]
    exact native
  recordCall _ := allows_of_leads fun _ _ native =>
    ⟨native.resizing, native.offers, native.unscripted⟩

instance : AllowsTaking native.discipline.rule :=
  .of_keeping native_of_keeps ⟨fun _ => rfl⟩

instance : AllowsClosures native :=
  .of_taking fun keeps m _ native =>
    native.of_side (congrArg (fun part => (part.2.1, part.2.2.1)) (keeps.same m))

namespace Execution

theorem native_reaches {m : Machine} (native : m.Native) {x : Execution}
    (reached : Contract.native.Reaches (start m) x) : x.machine.Native := by
  refine sound_of_reaches (fun m access asks => ?_) native reached
  have preserves := access.preserves fun bytes same => asks bytes (congrArg Request.memory same)
  exact allows_of_leads fun m _ native => native.onMemory access.perform

end Execution

end SandboxBridge

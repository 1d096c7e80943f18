import SandboxBridge.Value

/-!
The handle table. Module code names host values by small integers; a released number is handed out
again, the one released last first. The free numbers form a list threaded through the vacant slots,
so that taking and releasing a handle touch one slot each.
-/

namespace SandboxBridge

structure Handle where
  index : Nat
  deriving DecidableEq, Repr, Inhabited

namespace Handle

/-- Handles below this are permanent: `undefined`, `null`, `true` and `false`. -/
def reserved : Nat :=
  4

def isReserved (h : Handle) : Bool :=
  h.index < reserved

def undefined : Handle := ⟨0⟩
def null : Handle := ⟨1⟩
def true : Handle := ⟨2⟩
def false : Handle := ⟨3⟩

def ofBool (flag : Bool) : Handle :=
  if flag then .true else .false

def ofWord (word : UInt32) : Handle :=
  ⟨word.toNat⟩

def display (h : Handle) : String :=
  s!"#{h.index}"

end Handle

inductive Slot where
  | occupied (value : Value)
  /-- A vacant slot, with the next free index after it. -/
  | free (next : Nat)

structure HandleTable where
  slots : Array Slot
  /-- Head of the free list; the number of slots when the list is empty. -/
  nextFree : Nat
  /-- Handles in use, permanent ones not counted. -/
  live : Nat
  /-- Bound on the number of slots. -/
  limit : Option Nat

namespace HandleTable

def sentinels : Array Slot :=
  #[.occupied .undefined, .occupied .null, .occupied (.bool true), .occupied (.bool false)]

def empty (limit : Option Nat) : HandleTable :=
  { slots := sentinels, nextFree := Handle.reserved, live := 0, limit }

def size (t : HandleTable) : Nat :=
  t.slots.size

def isFullAt (t : HandleTable) (index : Nat) : Bool :=
  match t.limit with
  | some limit => limit ≤ index
  | none => false

/-- The handle that the next value will get: the head of the free list, or a new one. -/
def next (t : HandleTable) : Except Error Handle :=
  if t.nextFree = t.slots.size then
    if t.isFullAt t.nextFree then .error .tableFull else .ok ⟨t.nextFree⟩
  else
    match t.slots[t.nextFree]? with
    | some (.free _) => .ok ⟨t.nextFree⟩
    | _ => .error .brokenFreeList

def occupy (t : HandleTable) (value : Value) : HandleTable :=
  match t.slots[t.nextFree]? with
  | some (.free next) =>
    { t with
      slots := t.slots.set! t.nextFree (.occupied value), nextFree := next, live := t.live + 1 }
  | some (.occupied _) => t
  | none =>
    { t with
      slots := t.slots.push (.occupied value), nextFree := t.nextFree + 1, live := t.live + 1 }

def allocate (t : HandleTable) (value : Value) : Except Error (Handle × HandleTable) := do
  return (← t.next, t.occupy value)

def get (t : HandleTable) (h : Handle) : Except Error Value :=
  match t.slots[h.index]? with
  | some (.occupied value) => .ok value
  | some (.free _) => .error .handleReleased
  | none => .error .handleOutOfRange

def isLive (t : HandleTable) (h : Handle) : Bool :=
  match t.get h with
  | .ok _ => true
  | .error _ => false

def claim (t : HandleTable) (h : Handle) : Except Error Value :=
  match t.slots[h.index]? with
  | some (.occupied value) => .ok value
  | some (.free _) => .error (if h.isReserved then .handleReleased else .releasedTwice)
  | none => .error .handleOutOfRange

/-- Puts a handle at the head of the free list. Permanent handles stay as they are. -/
def vacate (t : HandleTable) (h : Handle) : HandleTable :=
  if h.isReserved then t
  else
    { t with
      slots := t.slots.set! h.index (.free t.nextFree), nextFree := h.index, live := t.live - 1 }

/-- Reads a handle and releases it. Permanent handles are only read. -/
def take (t : HandleTable) (h : Handle) : Except Error (Value × HandleTable) := do
  return (← t.claim h, t.vacate h)

def release (t : HandleTable) (h : Handle) : Except Error HandleTable :=
  (t.take h).map (·.2)

def duplicate (t : HandleTable) (h : Handle) : Except Error (Handle × HandleTable) := do
  t.allocate (← t.get h)

def reset (t : HandleTable) : HandleTable :=
  empty t.limit

/-- The free list from `index` on, at most `steps` handles of it. -/
def freeFrom (slots : Array Slot) : Nat → Nat → List Handle
  | 0, _ => []
  | steps + 1, index =>
    match slots[index]? with
    | some (.free next) => ⟨index⟩ :: freeFrom slots steps next
    | _ => []

/-- Free handles in the order in which they will be handed out. The list visits no slot twice, so as
many steps as there are slots reach its end. -/
def freeHandles (t : HandleTable) : List Handle :=
  freeFrom t.slots t.slots.size t.nextFree

def describe (t : HandleTable) : String :=
  s!"HeapTable \x7b len: {t.size}, live: {t.live}, next_free: {t.nextFree} \x7d"

end HandleTable

end SandboxBridge

import SandboxBridge.Proofs.Frame
import SandboxBridge.Proofs.Properties.Index
import SandboxBridge.Proofs.Task

/-!
Properties of arrays, read after they were written. What is written under a key is there, and no
other property has changed, unless the two keys name one element. Only an element that has no place in
any array cannot be written.
-/

namespace SandboxBridge

open Machine Work

namespace Object

variable {o o' : Object} {key other : String} {value : Value} {index : Nat}

/-- What an array has under a key that is not `length`. -/
def read (o : Object) (key : String) : Value :=
  match Store.arrayIndex? key with
  | some index => o.elements.getD index .undefined
  | none => (o.get? key).getD .undefined

theorem size_setElement (o : Object) (index : Position) (value : Value) :
    (o.setElement index value).elements.size = max o.elements.size (index + 1) := by
  simp only [setElement, Array.set!_eq_setIfInBounds, Array.size_setIfInBounds, Array.size_append,
    Array.size_replicate]
  omega

theorem getElem?_setElement (o : Object) (index : Position) (value : Value) (i : Nat) :
    (o.setElement index value).elements[i]? =
      if i = index then some value
      else if i < o.elements.size then o.elements[i]?
      else if i < index then some .undefined
      else none := by
  have inside : index < (o.elements ++
      Array.replicate (index + 1 - o.elements.size) Value.undefined).size := by
    rw [Array.size_append, Array.size_replicate]
    omega
  simp only [setElement, Array.set!_eq_setIfInBounds]
  by_cases same : i = index
  · rw [same, if_pos rfl, Array.getElem?_setIfInBounds_self_of_lt inside]
  · rw [if_neg same, Array.getElem?_setIfInBounds_ne (Ne.symm same), Array.getElem?_append]
    split
    next => rfl
    next past =>
      rw [Array.getElem?_replicate]
      split <;> split <;> first | rfl | omega

theorem element_setElement (o : Object) (index : Position) (value : Value) (i : Nat) :
    (o.setElement index value).elements.getD i .undefined =
      if i = index then value else o.elements.getD i .undefined := by
  rw [Array.getD_eq_getD_getElem?, getElem?_setElement, Array.getD_eq_getD_getElem?]
  split
  next => rfl
  next =>
    split
    next => rfl
    next past =>
      rw [Array.getElem?_eq_none (Nat.le_of_not_lt past)]
      split <;> rfl

end Object

namespace Store

variable {o o' : Object} {key other : String} {value : Value} {index : Nat}

/-- The element that a key names has a place in an array, if the key names one. -/
def Fits (key : String) : Prop :=
  ∀ index, arrayIndex? key = some index → index < elementLimit

/-- What becomes of an array by writing: an element is set, or a property that is none. -/
inductive Writes (o : Object) (key : String) (value : Value) : Object → Prop
  | element {index : Position} (named : arrayIndex? key = some index.val) :
    Writes o key value (o.setElement index value)
  | property (unnamed : arrayIndex? key = none) : Writes o key value (o.put key value)

namespace Writes

theorem isArray (writes : Writes o key value o') : o'.isArray = o.isArray := by
  cases writes <;> rfl

theorem read_element (writes : Writes o key value o') (named : arrayIndex? key = some index)
    (same : arrayIndex? other = some index) : o'.read other = value := by
  cases writes with
  | element found =>
    cases named.symm.trans found
    rw [Object.read, same]
    dsimp only
    rw [Object.element_setElement, if_pos rfl]
  | property unnamed => cases named.symm.trans unnamed

theorem read (writes : Writes o key value o') : o'.read key = value := by
  cases writes with
  | element named => exact read_element (.element named) named named
  | property unnamed =>
    rw [Object.read, unnamed]
    dsimp only
    rw [Object.get?, Object.put, Dict.get?_insert, if_pos rfl, Option.getD_some]

end Writes

end Store

namespace Store

variable {s : Store} {id : ObjectId} {key : String} {value : Value}

theorem object_modifyObject (inside : id.index < s.objects.size) (f : Object → Object) :
    (s.modifyObject id f).object id = f (s.object id) := by
  simp only [object, modifyObject, Array.getD_eq_getD_getElem?, Array.getElem?_modify, if_pos,
    Array.getElem?_eq_getElem inside, Option.map_some, Option.getD_some]

theorem object_modifyObject_other {other : ObjectId} (different : other ≠ id) (s : Store)
    (f : Object → Object) : (s.modifyObject id f).object other = s.object other := by
  have apart : id.index ≠ other.index := fun same =>
    different (by cases id; cases other; exact congrArg ObjectId.mk same.symm)
  simp only [object, modifyObject, Array.getD_eq_getD_getElem?, Array.getElem?_modify, if_neg apart]

theorem modifyObject_self (s : Store) (id : ObjectId) (f : Object → Object) :
    s.modifyObject id f = s.modifyObject id fun _ => f (s.object id) := by
  have objects : s.objects.modify id.index f =
      s.objects.modify id.index fun _ => f (s.object id) := by
    refine Array.ext (by rw [Array.size_modify, Array.size_modify]) fun i inside _ => ?_
    have inside : i < s.objects.size := by rwa [Array.size_modify] at inside
    rw [Array.getElem_modify, Array.getElem_modify]
    split
    next same =>
      subst same
      rw [object, Array.getD_eq_getD_getElem?, Array.getElem?_eq_getElem inside, Option.getD_some]
    next => rfl
  rw [modifyObject, modifyObject, objects]

theorem inside_of_isArray (array : (s.object id).isArray) : id.index < s.objects.size := by
  apply Nat.lt_of_not_le
  intro outside
  rw [object, Array.getD_eq_getD_getElem?, Array.getElem?_eq_none outside] at array
  cases array

theorem run_getProperty (array : (s.object id).isArray) (named : key ≠ "length") :
    (getProperty (.object id) key).run s = (.ok ((s.object id).read key), s) := by
  unfold getProperty Object.read
  rw [run_bind, run_get]
  simp only [array, if_true, named, if_false]
  cases arrayIndex? key <;> rfl

variable {m : Machine}

theorem run_setProperty (id : ObjectId) (key : String) (value : Value) (m : Machine) :
    (setProperty (.object id) key value).run m =
      match written? (m.store.object id) key value with
      | some o => .done (.ok ()) { m with store := m.store.modifyObject id fun _ => o }
      | none => .abort := by
  change (((write id key value m).bind fun result => .done (Except.ok result)).bind fun result =>
    .done (trapped result)) = _
  have wrote : write id key value m = match written? (m.store.object id) key value with
      | some o => .done () { m with store := m.store.modifyObject id fun _ => o }
      | none => .abort := by
    change (Run.ofOption (written? (m.store.object id) key value) m).bind _ = _
    cases written? (m.store.object id) key value <;> rfl
  rw [wrote]
  cases written? (m.store.object id) key value <;> rfl

end Store

end SandboxBridge

import SandboxBridge.Proofs.Task

/-!
Storages of the host. An object gives items as long as its method for that is the one it was made
with, and then it has the item under a key or none, and never throws.
-/

namespace SandboxBridge

open Work

namespace Store

variable {s : Store} {id : ObjectId} {items : Nat} {name : String} {behaviour : Behaviour}

def Offers (s : Store) (id : ObjectId) (name : String) (behaviour : Behaviour) : Prop :=
  ∃ index < s.natives.size, (s.object id).get? name = some (.function (.native index)) ∧
    (s.native index).behaviour = behaviour

/-- The object answers to "getItem" with the items of a storage, as one that is made for it does. -/
def GivesItems (s : Store) (id : ObjectId) (items : Nat) : Prop :=
  ∃ index, (s.object id).get? "getItem" = some (.function (.native index)) ∧
    (s.native index).behaviour = .getItem items

theorem get?_defineMethod (inside : id.index < s.objects.size) (key : String) :
    (((defineMethod id name behaviour).run s).2.object id).get? key =
      if key = name then some (.function (.native s.natives.size)) else (s.object id).get? key := by
  change ((s.objects.modify id.index fun o =>
    o.put name (.function (.native s.natives.size))).getD id.index {}).get? key = _
  rw [Array.getD_eq_getD_getElem?, Array.getElem?_modify, if_pos rfl,
    Array.getElem?_eq_getElem inside]
  change ((s.objects[id.index].properties.insert name _).get? key) = _
  rw [Dict.get?_insert]
  unfold object
  rw [Array.getD_eq_getD_getElem?, Array.getElem?_eq_getElem inside]
  rfl

theorem native_defineMethod (index : Nat) :
    ((defineMethod id name behaviour).run s).2.native index =
      if index = s.natives.size then ⟨name, behaviour⟩ else s.native index := by
  change (s.natives.push ⟨name, behaviour⟩).getD index default = _
  unfold native
  rw [Array.getD_eq_getD_getElem?, Array.getD_eq_getD_getElem?, Array.getElem?_push]
  split <;> rfl

theorem size_defineMethod : ((defineMethod id name behaviour).run s).2.natives.size =
    s.natives.size + 1 :=
  Array.size_push _

theorem inside_defineMethod {other : ObjectId} (inside : other.index < s.objects.size) :
    other.index < ((defineMethod id name behaviour).run s).2.objects.size :=
  Nat.lt_of_lt_of_eq inside Array.size_modify.symm

theorem offers_defineMethod (inside : id.index < s.objects.size) :
    ((defineMethod id name behaviour).run s).2.Offers id name behaviour :=
  ⟨s.natives.size, by rw [size_defineMethod]; exact Nat.lt_succ_self _,
    by rw [get?_defineMethod inside, if_pos rfl], by rw [native_defineMethod, if_pos rfl]⟩

theorem Offers.inside (offers : s.Offers id name behaviour) : id.index < s.objects.size := by
  obtain ⟨index, -, found, -⟩ := offers
  apply Nat.lt_of_not_le
  intro outside
  unfold object at found
  rw [Array.getD_eq_getD_getElem?, Array.getElem?_eq_none outside] at found
  cases found

theorem Offers.defineMethod (offers : s.Offers id name behaviour) {other : String}
    (different : name ≠ other) (added : Behaviour) :
    ((defineMethod id other added).run s).2.Offers id name behaviour := by
  have inside := offers.inside
  obtain ⟨index, old, found, behaves⟩ := offers
  refine ⟨index, ?_, ?_, ?_⟩
  · rw [size_defineMethod]
    exact Nat.lt_succ_of_lt old
  · rw [get?_defineMethod inside, if_neg different]
    exact found
  · rw [native_defineMethod, if_neg (Nat.ne_of_lt old)]
    exact behaves

/-- The object has the methods of a storage, as one that is made for it does. -/
structure ServesItems (s : Store) (id : ObjectId) (items : Nat) : Prop where
  getItem : s.Offers id "getItem" (.getItem items)
  setItem : s.Offers id "setItem" (.setItem items)
  removeItem : s.Offers id "removeItem" (.removeItem items)
  clear : s.Offers id "clear" (.clear items)

theorem servesItems_newStorage (quota : Nat) (s : Store) :
    ((newStorage quota).run s).2.ServesItems ((newStorage quota).run s).1 s.storages.size := by
  have inside : s.objects.size < (s.objects.push { classes := ["Storage"] }).size := by
    rw [Array.size_push]
    exact Nat.lt_succ_self _
  constructor
  case getItem =>
    apply Offers.defineMethod ?_ (by decide)
    apply Offers.defineMethod ?_ (by decide)
    apply Offers.defineMethod ?_ (by decide)
    exact offers_defineMethod inside
  case setItem =>
    apply Offers.defineMethod ?_ (by decide)
    apply Offers.defineMethod ?_ (by decide)
    exact offers_defineMethod (inside_defineMethod inside)
  case removeItem =>
    apply Offers.defineMethod ?_ (by decide)
    exact offers_defineMethod (inside_defineMethod (inside_defineMethod inside))
  case clear =>
    exact offers_defineMethod
      (inside_defineMethod (inside_defineMethod (inside_defineMethod inside)))

theorem GivesItems.getProperty (gives : s.GivesItems id items) : ∃ index,
    (Store.getProperty (.object id) "getItem").run s = (.ok (.function (.native index)), s) ∧
      (s.native index).behaviour = .getItem items := by
  obtain ⟨index, found, behaves⟩ := gives
  refine ⟨index, ?_, behaves⟩
  have named : ((s.object id).get? "getItem").getD .undefined = .function (.native index) := by
    rw [found, Option.getD_some]
  unfold Store.getProperty
  rw [run_bind, run_get]
  dsimp only
  rw [named]
  cases (s.object id).isArray <;> rfl

theorem getItem_cases (s : Store) (items : Nat) (key : String) :
    (s.storage items).items.get? key = none ∧ s.getItem items key = .null ∨
      ∃ text, (s.storage items).items.get? key = some text ∧ s.getItem items key = .string text := by
  unfold getItem
  cases (s.storage items).items.get? key with
  | none => exact .inl ⟨rfl, rfl⟩
  | some text => exact .inr ⟨text, rfl, rfl⟩

end Store

theorem Host.run_argumentText_bind {β : Type} {args : List Value} {index : Nat} {m : Machine}
    {text : String} (shown : m.store.display? (args[index]?.getD .undefined) = some text)
    (next : String → Host β) :
    (liftM (argumentText args index) >>= next : Host β).run m = (next text).run m := by
  refine (Host.run_displayed_bind (args[index]?.getD .undefined) next m).trans ?_
  rw [shown]

theorem run_invokeMethod_getItem {m : Machine} {id : ObjectId} {items : Nat} (key : String)
    (gives : m.store.GivesItems id items) : ∃ journal,
    (invokeMethod (.object id) "getItem" [.string key]).run m =
      .done (.ok (m.store.getItem items key)) { m with journal } := by
  obtain ⟨index, found, behaves⟩ := gives.getProperty
  have answers : ∀ n : Machine, n.store = m.store →
      (callFunction (.native index) (.object id) [.string key]).run n =
        .done (.ok (m.store.getItem items key)) n := by
    intro n same
    unfold callFunction
    rw [Host.run_get_bind, same, behaves]
    unfold runBehaviour
    rw [Host.run_argumentText_bind rfl, Host.run_get_bind, same]
    rfl
  unfold invokeMethod
  rw [Host.run_attempt_bind, found]
  exact ⟨_, answers _ rfl⟩

end SandboxBridge

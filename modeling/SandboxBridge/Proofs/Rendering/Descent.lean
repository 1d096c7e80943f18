import Mathlib.Data.Finset.Card
import Mathlib.Logic.Relation
import SandboxBridge.Store.Render

/-!
Recursion over the objects of a store. It goes on from an object to values inside it and turns back
at objects that are under way, so it is never deeper than there are objects.
-/

namespace SandboxBridge

section Results

variable {ε α β : Type} {l : List α}

theorem mapM_congr {m : Type → Type} [Monad m] [LawfulMonad m] {f g : α → m β}
    (each : ∀ item ∈ l, g item = f item) : l.mapM g = l.mapM f := by
  induction l with
  | nil => rfl
  | cons first rest ih =>
    rw [List.mapM_cons, List.mapM_cons, each first List.mem_cons_self,
      ih fun item member => each item (List.mem_cons_of_mem _ member)]

theorem mapM_eq_pure {m : Type → Type} [Monad m] [LawfulMonad m] {f : α → m β} {g : α → β}
    (each : ∀ item ∈ l, f item = pure (g item)) : l.mapM f = pure (l.map g) :=
  (mapM_congr each).trans List.mapM_pure

theorem mapM_eq_none_iff {f : α → Option β} : l.mapM f = none ↔ ∃ item ∈ l, f item = none := by
  induction l with
  | nil => simp
  | cons first rest ih =>
    rw [List.mapM_cons]
    cases found : f first with
    | none => simp [found]
    | some result =>
      cases rested : rest.mapM f <;> simp_all

theorem exists_of_mapM_eq_some [Inhabited β] {f : α → Option β} {results : List β}
    (passed : l.mapM f = some results) :
    ∃ g : α → β, (∀ item ∈ l, f item = some (g item)) ∧ results = l.map g := by
  refine ⟨fun item => (f item).getD default, ?_⟩
  have each : ∀ item ∈ l, f item = some ((f item).getD default) := by
    intro item member
    cases found : f item with
    | some result => rfl
    | none => cases (mapM_eq_none_iff.mpr ⟨item, member, found⟩).symm.trans passed
  exact ⟨each, Option.some.inj (passed.symm.trans (mapM_eq_pure each))⟩

theorem mapM_eq_error {f : α → Except ε β} {e : ε} (failed : l.mapM f = .error e) :
    ∃ item ∈ l, f item = .error e := by
  induction l with
  | nil => cases failed
  | cons first rest ih =>
    rw [List.mapM_cons] at failed
    cases found : f first with
    | error e' =>
      rw [found] at failed
      cases failed
      exact ⟨first, List.mem_cons_self, found⟩
    | ok result =>
      rw [found] at failed
      cases rested : rest.mapM f with
      | ok results =>
        rw [rested] at failed
        cases failed
      | error e' =>
        rw [rested] at failed
        cases failed
        obtain ⟨item, member, found⟩ := ih rested
        exact ⟨item, List.mem_cons_of_mem _ member, found⟩

theorem mapM_eq_error_of {f : α → Except ε β} {e : ε} {item : α}
    (only : ∀ item ∈ l, ∀ e', f item = .error e' → e' = e) (member : item ∈ l)
    (failed : f item = .error e) : l.mapM f = .error e := by
  induction l with
  | nil => cases member
  | cons first rest ih =>
    rw [List.mapM_cons]
    cases found : f first with
    | error e' =>
      cases only first List.mem_cons_self e' found
      rfl
    | ok result =>
      have later : item ∈ rest := by
        rcases List.mem_cons.mp member with rfl | later
        · cases found.symm.trans failed
        · exact later
      rw [ih (fun item member => only item (List.mem_cons_of_mem _ member)) later]
      rfl

theorem mapM_eq_ok [Inhabited β] {f : α → Except ε β} {results : List β}
    (passed : l.mapM f = .ok results) :
    ∃ g : α → β, (∀ item ∈ l, f item = .ok (g item)) ∧ results = l.map g := by
  refine ⟨fun item => (f item).toOption.getD default, ?_⟩
  induction l generalizing results with
  | nil =>
    cases passed
    exact ⟨nofun, rfl⟩
  | cons first rest ih =>
    rw [List.mapM_cons] at passed
    cases found : f first with
    | error e =>
      rw [found] at passed
      cases passed
    | ok result =>
      rw [found] at passed
      cases rested : rest.mapM f with
      | error e =>
        rw [rested] at passed
        cases passed
      | ok results =>
        rw [rested] at passed
        cases passed
        obtain ⟨each, rfl⟩ := ih rested
        have own : (f first).toOption.getD default = result := by
          rw [found]
          rfl
        refine ⟨List.forall_mem_cons.mpr ⟨found.trans (congrArg Except.ok own.symm), each⟩, ?_⟩
        rw [List.map_cons, own]

theorem mapM_congr_of_ne {f g : α → Except ε β} {e : ε}
    (each : ∀ item ∈ l, f item ≠ .error e → g item = f item) (passed : l.mapM f ≠ .error e) :
    l.mapM g = l.mapM f := by
  induction l with
  | nil => rfl
  | cons first rest ih =>
    rw [List.mapM_cons] at passed
    rw [List.mapM_cons, List.mapM_cons]
    have same : g first = f first := each first List.mem_cons_self fun failed => passed (by
      rw [failed]
      rfl)
    rw [same]
    cases found : f first with
    | error e' => rfl
    | ok result =>
      rw [found] at passed
      rw [ih (fun item member => each item (List.mem_cons_of_mem _ member)) fun failed =>
        passed (by
          rw [failed]
          rfl)]

end Results

/-- A recursion that comes to the same one level deeper, unless it has run out of depth, comes to
the same at any two depths that it does not run out of. -/
theorem settled_of_succ {α : Type} (f : Nat → α) {out : α} {depth depth' : Nat}
    (succ : ∀ depth, f depth ≠ out → f (depth + 1) = f depth) (enough : f depth ≠ out)
    (enough' : f depth' ≠ out) : f depth' = f depth := by
  have deeper : ∀ {low high : Nat}, low ≤ high → f low ≠ out → f high = f low := by
    intro low high le enough
    induction high, le using Nat.le_induction with
    | base => rfl
    | succ high _ ih =>
      calc
        f (high + 1) = f high := succ high (ih ▸ enough)
        _ = f low := ih
  rcases Nat.le_total depth depth' with le | le
  · exact deeper le enough
  · exact (deeper le enough').symm

/-! Calls. -/

/-- The calls of a recursion that begins with `root`. Each is made for a value while the objects of
a chain are under way, innermost first. A call for an object that is not under way goes on to the
values `inside` it. -/
inductive Descent (inside : ObjectId → List Value) (root : Value) : List ObjectId → Value → Prop
  | root : Descent inside root [] root
  | inner {chain : List ObjectId} {id : ObjectId} {value : Value}
      (outer : Descent inside root chain (.object id)) (fresh : id ∉ chain)
      (member : value ∈ inside id) : Descent inside root (id :: chain) value

namespace Descent

variable {inside : ObjectId → List Value} {root value : Value} {chain : List ObjectId}
  {id : ObjectId} {graph : Finset ObjectId}

theorem mono {inside' : ObjectId → List Value} (call : Descent inside root chain value)
    (within : ∀ id, ∀ part ∈ inside id, part ∈ inside' id) : Descent inside' root chain value := by
  induction call with
  | root => exact .root
  | inner _ fresh member ih => exact .inner ih fresh (within _ _ member)

theorem nodup (call : Descent inside root chain value) : chain.Nodup := by
  induction call with
  | root => exact List.nodup_nil
  | inner _ fresh _ ih => exact List.nodup_cons.mpr ⟨fresh, ih⟩

theorem occupied (call : Descent inside root chain value) : ∀ id ∈ chain, inside id ≠ [] := by
  induction call with
  | root => exact nofun
  | inner _ _ member ih =>
    intro id under
    rcases List.mem_cons.mp under with rfl | under
    · exact List.ne_nil_of_mem member
    · exact ih id under

theorem contained (call : Descent inside root chain value)
    (start : ∀ id, root = .object id → id ∈ graph)
    (closed : ∀ id ∈ graph, ∀ other, .object other ∈ inside id → other ∈ graph) :
    (∀ id ∈ chain, id ∈ graph) ∧ ∀ id, value = .object id → id ∈ graph := by
  induction call with
  | root => exact ⟨nofun, start⟩
  | inner _ _ member ih =>
    have own := ih.2 _ rfl
    refine ⟨List.forall_mem_cons.mpr ⟨own, ih.1⟩, ?_⟩
    rintro id rfl
    exact closed _ own id member

theorem length_le (call : Descent inside root chain value) (among : ∀ id ∈ chain, id ∈ graph) :
    chain.length ≤ graph.card := by
  rw [← List.toFinset_card_of_nodup call.nodup]
  exact Finset.card_le_card fun id member => among id (List.mem_toFinset.mp member)

theorem length_le_size {s : Store} (call : Descent inside root chain value)
    (stored : ∀ id, inside id ≠ [] → id.index < s.objects.size) :
    chain.length ≤ s.objects.size := by
  have among : ∀ id ∈ chain, id ∈ (Finset.range s.objects.size).image ObjectId.mk := by
    intro id under
    have index : id.index ∈ Finset.range s.objects.size :=
      Finset.mem_range.mpr (stored id (call.occupied id under))
    exact Finset.mem_image.mpr ⟨id.index, index, rfl⟩
  calc
    chain.length ≤ ((Finset.range s.objects.size).image ObjectId.mk).card := call.length_le among
    _ ≤ (Finset.range s.objects.size).card := Finset.card_image_le
    _ = s.objects.size := Finset.card_range _

theorem path (call : Descent inside root chain (.object id)) :
    (∀ outer ∈ chain, Relation.TransGen (fun a b => .object b ∈ inside a) outer id) ∧
      ∃ first, root = .object first ∧
        Relation.ReflTransGen (fun a b => .object b ∈ inside a) first id := by
  generalize same : Value.object id = value at call
  induction call generalizing id with
  | root => exact ⟨nofun, id, same.symm, .refl⟩
  | @inner chain middle value call _ member ih =>
    subst same
    obtain ⟨outer, first, start, before⟩ := ih rfl
    refine ⟨List.forall_mem_cons.mpr ⟨.single member, fun other under => ?_⟩, first, start, ?_⟩
    · exact (outer other under).tail member
    · exact before.tail member

theorem exists_outer (call : Descent inside root chain (.object id)) {depth : Nat}
    (deep : depth ≤ chain.length) :
    ∃ outer other, Descent inside root outer (.object other) ∧ outer.length = depth := by
  generalize same : Value.object id = value at call
  induction call generalizing id with
  | root => exact ⟨[], id, same ▸ .root, (Nat.le_zero.mp deep).symm⟩
  | @inner chain middle value call fresh member ih =>
    subst same
    rcases Nat.lt_or_eq_of_le deep with shallow | rfl
    · exact ih (Nat.le_of_lt_succ shallow) rfl
    · exact ⟨_, id, .inner call fresh member, rfl⟩

end Descent

end SandboxBridge

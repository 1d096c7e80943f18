import SandboxBridge.Proofs.Rendering.Projection
import SandboxBridge.Proofs.Rendering.Texts

/-!
Rendering of values ends. Arrays are followed until one is met that is already being rendered, and
JSON forms until an object is met inside itself, so neither recursion is deeper than the graph of
objects has members.
-/

namespace SandboxBridge

def Object.shown (o : Object) : List Value :=
  if o.isArray then o.elements.toList else []

namespace Store

variable {s : Store} {id : ObjectId} {depth : Nat} {seen chain : List ObjectId}
  {root value : Value} {graph : Finset ObjectId}

theorem renderWithin_array (array : (s.object id).isArray = true) (depth : Nat)
    (seen : List ObjectId) :
    s.renderWithin (depth + 1) seen (.object id) =
      if id ∈ seen then .ok "[...]"
      else (fun texts => "[" ++ ", ".intercalate texts ++ "]") <$>
        (s.object id).elements.toList.mapM (s.renderWithin depth (id :: seen)) := by
  rw [renderWithin]
  simp only [array, ↓reduceIte]
  split
  next => rfl
  next => cases (s.object id).elements.toList.mapM (s.renderWithin depth (id :: seen)) <;> rfl

theorem renderWithin_error (noArray : (s.object id).isArray = false)
    (error : (s.object id).isInstanceOf "Error" = true) :
    s.renderWithin (depth + 1) seen (.object id) = do
      let name ← ((s.object id).get? "name").elim (.ok (s.object id).className) s.inner
      let message ← ((s.object id).get? "message").elim (.ok "") s.inner
      let stack ← ((s.object id).get? "stack").elim (.ok "") s.inner
      return name ++ ": " ++ message ++ "\n" ++ stack := by
  rw [renderWithin]
  simp only [noArray, error, Bool.false_eq_true, ↓reduceIte]

theorem renderWithin_zero :
    s.renderWithin 0 seen value = .error .depth ↔ ∃ id, value = .object id := by
  cases value <;> simp [renderWithin]

theorem shown_or_missing (o : Object) (key absent : String) :
    (∃ text, (o.get? key).elim (.ok absent) s.inner = .ok text) ∨
      ((o.get? key).elim (.ok absent) s.inner = .error .cycle ∧
        ∃ value, o.get? key = some value ∧ s.display? value = none) := by
  cases found : o.get? key with
  | none => exact .inl ⟨absent, rfl⟩
  | some value =>
    cases shown : s.display? value with
    | some text => exact .inl ⟨text, by simp only [Option.elim, inner, shown]⟩
    | none => exact .inr ⟨by simp only [Option.elim, inner, shown], value, rfl, shown⟩

theorem array_or_flat (s : Store) (value : Value) :
    (∃ id, value = .object id ∧ (s.object id).isArray = true) ∨
      (∃ text, ∀ depth seen, s.renderWithin (depth + 1) seen value = .ok text) ∨
      ∃ id, value = .object id ∧ (s.object id).isInstanceOf "Error" = true ∧
        (∃ key ∈ ["name", "message", "stack"], ∃ part,
          (s.object id).get? key = some part ∧ s.display? part = none) ∧
        ∀ depth seen, s.renderWithin (depth + 1) seen value = .error .cycle := by
  cases value with
  | object id =>
    cases array : (s.object id).isArray with
    | true => exact .inl ⟨id, rfl, array⟩
    | false =>
      refine .inr ?_
      cases error : (s.object id).isInstanceOf "Error" with
      | true =>
        -- Name, message and stack are rendered in this order, and the first without text decides.
        simp only [renderWithin_error array error]
        obtain ⟨name, named⟩ | ⟨failed, part, found, missing⟩ :=
          s.shown_or_missing (s.object id) "name" (s.object id).className
        · obtain ⟨message, said⟩ | ⟨failed, part, found, missing⟩ :=
            s.shown_or_missing (s.object id) "message" ""
          · obtain ⟨stack, traced⟩ | ⟨failed, part, found, missing⟩ :=
              s.shown_or_missing (s.object id) "stack" ""
            · refine .inl ⟨name ++ ": " ++ message ++ "\n" ++ stack, fun _ _ => ?_⟩
              rw [named, said, traced]
              rfl
            · refine .inr ⟨id, rfl, error, ⟨"stack", by simp, part, found, missing⟩, fun _ _ => ?_⟩
              rw [named, said, failed]
              rfl
          · refine .inr ⟨id, rfl, error, ⟨"message", by simp, part, found, missing⟩, fun _ _ => ?_⟩
            rw [named, failed]
            rfl
        · refine .inr ⟨id, rfl, error, ⟨"name", by simp, part, found, missing⟩, fun _ _ => ?_⟩
          rw [failed]
          rfl
      | false =>
        refine .inl ?_
        unfold renderWithin
        simp only [array, error, Bool.false_eq_true, ↓reduceIte]
        split
        next =>
          cases s.json (s.objects.size + 1) [] (.object id) with
          | error e => exact ⟨_, fun _ _ => rfl⟩
          | ok item => cases item <;> exact ⟨_, fun _ _ => rfl⟩
        next => exact ⟨_, fun _ _ => rfl⟩
  | _ => exact .inr (.inl ⟨_, fun _ _ => rfl⟩)

abbrev RenderCall (s : Store) (root : Value) : List ObjectId → Value → Prop :=
  Descent (fun id => (s.object id).shown) root

theorem shown_array (array : (s.object id).isArray = true) :
    (s.object id).shown = (s.object id).elements.toList :=
  if_pos array

theorem RenderCall.toJsonCall (call : s.RenderCall root chain value) :
    s.JsonCall root chain value := by
  refine call.mono fun id part member => ?_
  unfold Object.shown at member
  split at member
  next array =>
    unfold Object.parts
    rwa [if_pos array]
  next => cases member

theorem exists_of_renderWithin_depth (call : s.RenderCall root chain value)
    (failed : s.renderWithin depth chain value = .error .depth) :
    ∃ deep id, s.RenderCall root deep (.object id) ∧ depth + chain.length ≤ deep.length := by
  induction depth generalizing chain value with
  | zero =>
    obtain ⟨id, rfl⟩ := renderWithin_zero.mp failed
    exact ⟨chain, id, call, (Nat.zero_add _).le⟩
  | succ depth ih =>
    rcases s.array_or_flat value with ⟨id, rfl, array⟩ | ⟨text, flat⟩ | ⟨_, _, _, _, flat⟩
    · rw [renderWithin_array array] at failed
      split at failed
      next => cases failed
      next fresh =>
        cases texts : (s.object id).elements.toList.mapM (s.renderWithin depth (id :: chain)) with
        | ok texts' =>
          rw [texts] at failed
          cases failed
        | error e =>
          rw [texts] at failed
          cases failed
          obtain ⟨element, member, failed⟩ := mapM_eq_error texts
          rw [← shown_array array] at member
          obtain ⟨deep, other, call', deeper⟩ := ih (.inner call fresh member) failed
          refine ⟨deep, other, call', ?_⟩
          rw [List.length_cons] at deeper
          omega
    · cases (flat depth chain).symm.trans failed
    · cases (flat depth chain).symm.trans failed

/-- Errors that the rendering of a value meets have texts for all that they show. -/
def Described (s : Store) (root : Value) : Prop :=
  ∀ chain id, s.RenderCall root chain (.object id) → (s.object id).isInstanceOf "Error" = true →
    ∀ key ∈ ["name", "message", "stack"], ∀ part, (s.object id).get? key = some part →
    ∃ text, s.display? part = some text

theorem renderWithin_ne_cycle (described : s.Described root)
    (call : s.RenderCall root chain value) : s.renderWithin depth chain value ≠ .error .cycle := by
  induction depth generalizing chain value with
  | zero => cases value <;> simp [renderWithin]
  | succ depth ih =>
    rcases s.array_or_flat value with
      ⟨id, rfl, array⟩ | ⟨text, flat⟩ | ⟨id, rfl, error, ⟨key, among, part, found, missing⟩, -⟩
    · rw [renderWithin_array array]
      split
      next => nofun
      next fresh =>
        cases texts : (s.object id).elements.toList.mapM (s.renderWithin depth (id :: chain)) with
        | ok texts' => nofun
        | error e =>
          rintro ⟨⟩
          obtain ⟨element, member, failed⟩ := mapM_eq_error texts
          rw [← shown_array array] at member
          exact ih (.inner call fresh member) failed
    · rw [flat]
      nofun
    · obtain ⟨text, shown⟩ := described chain id call error key among part found
      cases missing.symm.trans shown

theorem renderWithin_depth_of_call (described : s.Described root)
    (call : s.RenderCall root chain value)
    (failed : s.renderWithin depth chain value = .error .depth) :
    s.renderWithin (depth + chain.length) [] root = .error .depth := by
  induction call generalizing depth with
  | root => exact failed
  | @inner chain id value call fresh member ih =>
    have array : (s.object id).isArray = true := by
      by_contra record
      rw [Object.shown, if_neg record] at member
      cases member
    have same : (s.object id).elements.toList.mapM (s.renderWithin depth (id :: chain)) =
        .error .depth := by
      rw [← shown_array array]
      refine mapM_eq_error_of (fun element member e failed => ?_) member failed
      cases e with
      | depth => rfl
      | cycle => exact absurd failed (renderWithin_ne_cycle described (.inner call fresh member))
    have outer : s.renderWithin (depth + 1) chain (.object id) = .error .depth := by
      rw [renderWithin_array array, if_neg fresh, same]
      rfl
    have around := ih outer
    rwa [Nat.add_right_comm] at around

/-- Depth is used up by nested arrays and by nothing else. -/
theorem renderWithin_depth_iff (described : s.Described root) :
    s.renderWithin depth [] root = .error .depth ↔
      ∃ chain id, s.RenderCall root chain (.object id) ∧ depth ≤ chain.length := by
  constructor
  · exact exists_of_renderWithin_depth .root
  · rintro ⟨chain, id, call, deep⟩
    obtain ⟨outer, other, call, rfl⟩ := call.exists_outer deep
    have failed : s.renderWithin 0 outer (.object other) = .error .depth :=
      renderWithin_zero.mpr ⟨_, rfl⟩
    have around := renderWithin_depth_of_call described call failed
    rwa [Nat.zero_add] at around

theorem renderWithin_succ (enough : s.renderWithin depth seen value ≠ .error .depth) :
    s.renderWithin (depth + 1) seen value = s.renderWithin depth seen value := by
  induction depth generalizing seen value with
  | zero => cases value <;> simp_all [renderWithin]
  | succ depth ih =>
    rcases s.array_or_flat value with ⟨id, rfl, array⟩ | ⟨text, flat⟩ | ⟨_, _, _, _, flat⟩
    · rw [renderWithin_array array] at enough
      rw [renderWithin_array array, renderWithin_array array]
      split
      next => rfl
      next fresh =>
        rw [if_neg fresh] at enough
        rw [mapM_congr_of_ne (fun element _ => ih) fun failed => enough (by
          rw [failed]
          rfl)]
    · rw [flat, flat]
    · rw [flat, flat]

theorem json_succ (enough : s.json depth seen value ≠ .error .depth) :
    s.json (depth + 1) seen value = s.json depth seen value := by
  induction depth generalizing seen value with
  | zero => cases value <;> simp_all [json]
  | succ depth ih =>
    rcases s.object_or_flat value with ⟨id, rfl⟩ | ⟨item, flat, -⟩
    · rw [json_object] at enough
      rw [json_object, json_object]
      split
      next => rfl
      next fresh =>
        rw [if_neg fresh] at enough
        rw [mapM_congr_of_ne (fun part _ => ih) fun failed => enough (by
          rw [failed]
          rfl)]
    · rw [flat, flat]

/-! Texts. -/

/-- Text of a value inside the arrays of a chain. Outside all arrays it is what the value is rendered
as. -/
def textAt (s : Store) (chain : List ObjectId) (value : Value) : String :=
  (s.renderWithin (s.objects.size + 1) chain value).toOption.getD ""

theorem renderWithin_ne_depth {limit : Nat}
    (shallow : ∀ deep part, s.RenderCall root deep part → deep.length ≤ limit)
    (call : s.RenderCall root chain value) (room : limit < depth + chain.length) :
    s.renderWithin depth chain value ≠ .error .depth := by
  intro failed
  obtain ⟨deep, id, call, deeper⟩ := exists_of_renderWithin_depth call failed
  have bound := shallow deep _ call
  omega

theorem renderWithin_eq_textAt (described : s.Described root)
    (call : s.RenderCall root chain value)
    (enough : s.renderWithin depth chain value ≠ .error .depth) :
    s.renderWithin depth chain value = .ok (s.textAt chain value) := by
  have whole : s.renderWithin (s.objects.size + 1) chain value ≠ .error .depth := by
    apply renderWithin_ne_depth (fun _ _ call => call.toJsonCall.length_le_size) call
    omega
  have same := settled_of_succ (s.renderWithin · chain value) (fun _ => renderWithin_succ) whole enough
  unfold textAt
  cases made : s.renderWithin (s.objects.size + 1) chain value with
  | ok text => exact same.trans made
  | error e =>
    cases e with
    | depth => exact absurd made whole
    | cycle => exact absurd made (renderWithin_ne_cycle described call)

theorem textAt_array (described : s.Described root) (call : s.RenderCall root chain (.object id))
    (array : (s.object id).isArray = true) :
    s.textAt chain (.object id) =
      if id ∈ chain then "[...]"
      else "[" ++ ", ".intercalate
        ((s.object id).elements.toList.map (s.textAt (id :: chain))) ++ "]" := by
  rw [textAt, renderWithin_array array]
  split
  next => rfl
  next fresh =>
    have each : ∀ element ∈ (s.object id).elements.toList,
        s.renderWithin s.objects.size (id :: chain) element =
          .ok (s.textAt (id :: chain) element) := by
      intro element member
      rw [← shown_array array] at member
      have inner : s.RenderCall root (id :: chain) element := .inner call fresh member
      apply renderWithin_eq_textAt described inner
      apply renderWithin_ne_depth (fun _ _ call => call.toJsonCall.length_le_size) inner
      rw [List.length_cons]
      omega
    rw [mapM_eq_pure each]
    rfl

/-- A value that is neither an array nor an error. -/
def Simple (s : Store) (value : Value) : Prop :=
  ∀ id, value = .object id →
    (s.object id).isArray = false ∧ (s.object id).isInstanceOf "Error" = false

theorem displayWithin_simple (simple : s.Simple value) :
    ∃ text, s.display? value = some text ∧ ∀ depth, s.displayWithin (depth + 1) value = some text := by
  obtain ⟨id, rfl⟩ | ⟨text, flat, -⟩ := s.shows_or_object value
  · obtain ⟨noArray, noError⟩ := simple id rfl
    exact ⟨_, displayWithin_other noArray noError, fun _ => displayWithin_other noArray noError⟩
  · exact ⟨text, flat _, fun _ => flat _⟩

def Closed (s : Store) (graph : Finset ObjectId) : Prop :=
  ∀ id ∈ graph, ∀ other, s.Refers id other → other ∈ graph

theorem JsonCall.contained (call : s.JsonCall root chain value) (closed : s.Closed graph)
    (start : ∀ id, root = .object id → id ∈ graph) :
    chain.length ≤ graph.card ∧ ∀ id, value = .object id → id ∈ graph := by
  have within := Descent.contained call start fun id member other part =>
    closed id member other (refers_iff.mpr part)
  exact ⟨call.length_le within.1, within.2⟩

/-- How far rendering of a value goes whose objects are those of a graph. A call is as deep as its
chain is long, and one level more. -/
structure Ends (s : Store) (graph : Finset ObjectId) (root : Value) : Prop where
  level_le : ∀ chain value, s.RenderCall root chain value →
    chain.length + 1 ≤ graph.card + 1 ∧ ∀ id, value = .object id → id ∈ graph
  /-- Fewer levels than calls take are too few. -/
  too_few : ∀ depth, s.renderWithin depth [] root = .error .depth ↔
    ∃ chain id, s.RenderCall root chain (.object id) ∧ depth < chain.length + 1
  whole : ∃ text, s.render? root = some text ∧
    ∀ depth, graph.card + 1 ≤ depth → s.renderWithin depth [] root = .ok text
  enough : ∀ chain value, s.RenderCall root chain value → ∀ depth,
    graph.card + 1 ≤ depth + chain.length →
    s.renderWithin depth chain value = .ok (s.textAt chain value)
  /-- An array of one object of class `...` is not cut short, though its text is the same. -/
  array : ∀ chain id, s.RenderCall root chain (.object id) → (s.object id).isArray = true →
    s.textAt chain (.object id) =
      if id ∈ chain then "[...]"
      else "[" ++ ", ".intercalate
        ((s.object id).elements.toList.map (s.textAt (id :: chain))) ++ "]"
  json_level_le : ∀ id ∈ graph, ∀ chain value, s.JsonCall (.object id) chain value →
    chain.length + 1 ≤ graph.card + 1
  json_enough : ∀ id ∈ graph, ∀ depth, graph.card + 1 ≤ depth →
    s.json depth [] (.object id) ≠ .error .depth ∧
      s.json depth [] (.object id) = s.json (s.objects.size + 1) [] (.object id)
  /-- What an error shows of itself needs one level. -/
  display_enough : ∀ id ∈ graph, (s.object id).isInstanceOf "Error" = true →
    ∀ key ∈ ["name", "message", "stack"], ∀ value, (s.object id).get? key = some value →
    ∃ text, s.display? value = some text ∧ ∀ depth, s.displayWithin (depth + 1) value = some text

/-- Rendering ends on every value, if errors are described by simple values. -/
theorem rendering_ends (closed : s.Closed graph) (start : ∀ id, root = .object id → id ∈ graph)
    (simple : ∀ id ∈ graph, (s.object id).isInstanceOf "Error" = true →
      ∀ key ∈ ["name", "message", "stack"], ∀ value, (s.object id).get? key = some value →
      s.Simple value) :
    s.Ends graph root := by
  have shallow : ∀ chain value, s.RenderCall root chain value → chain.length ≤ graph.card :=
    fun _ _ call => (call.toJsonCall.contained closed start).1
  have described : s.Described root := fun chain id call error key among part found => by
    have member := (call.toJsonCall.contained closed start).2 id rfl
    obtain ⟨text, shown, -⟩ := displayWithin_simple (simple id member error key among part found)
    exact ⟨text, shown⟩
  have enough : ∀ chain value, s.RenderCall root chain value → ∀ depth,
      graph.card + 1 ≤ depth + chain.length →
      s.renderWithin depth chain value = .ok (s.textAt chain value) :=
    fun _ _ call _ room =>
      renderWithin_eq_textAt described call (renderWithin_ne_depth shallow call room)
  have json_shallow : ∀ id ∈ graph, ∀ chain value, s.JsonCall (.object id) chain value →
      chain.length ≤ graph.card := by
    intro id member chain value call
    have start : ∀ other, Value.object id = .object other → other ∈ graph := by
      rintro _ ⟨⟩
      exact member
    exact (call.contained closed start).1
  exact {
    level_le := fun chain value call =>
      ⟨Nat.succ_le_succ (shallow chain value call), (call.toJsonCall.contained closed start).2⟩
    too_few := fun depth => by
      simp only [Nat.lt_succ_iff]
      exact renderWithin_depth_iff described
    whole := ⟨s.textAt [] root, congrArg Except.toOption (renderWithin_eq_textAt described .root
      (renderWithin_ne_depth (fun _ _ call => call.toJsonCall.length_le_size) .root (by simp))),
      fun depth room => enough [] root .root depth room⟩
    enough
    array := fun _ _ => textAt_array described
    json_level_le := fun id member chain value call =>
      Nat.succ_le_succ (json_shallow id member chain value call)
    json_enough := fun id member depth room => by
      have short : s.json depth [] (.object id) ≠ .error .depth :=
        json_ne_depth (json_shallow id member) .root room
      have long : s.json (s.objects.size + 1) [] (.object id) ≠ .error .depth :=
        json_ne_depth (fun _ _ => JsonCall.length_le_size) .root (by simp)
      exact ⟨short, settled_of_succ (s.json · [] (.object id)) (fun _ => json_succ) long short⟩
    display_enough := fun id member error key among value found =>
      displayWithin_simple (simple id member error key among value found) }

/-- An array of itself and an error. -/
theorem rendering_ends_inside_itself :
    let s : Store := { objects := #[
      { classes := ["Array"], elements := #[.object ⟨0⟩, .object ⟨1⟩] },
      { classes := ["Error"], properties := .ofList [("message", .string "x")] }] }
    s.Ends {⟨0⟩, ⟨1⟩} (.object ⟨0⟩) ∧ s.render? (.object ⟨0⟩) = some "[[...], Error: x\n]" := by
  intro s
  have members : ∀ id ∈ ({⟨0⟩, ⟨1⟩} : Finset ObjectId), id = ⟨0⟩ ∨ id = ⟨1⟩ := by simp
  have closed : s.Closed {⟨0⟩, ⟨1⟩} := by
    intro id member other refers
    have part := refers_iff.mp refers
    rcases members id member with rfl | rfl
    · have parts : (s.object ⟨0⟩).parts = [.object ⟨0⟩, .object ⟨1⟩] := rfl
      simpa [parts] using part
    · have parts : (s.object ⟨1⟩).parts = [.string "x"] := rfl
      simp [parts] at part
  have ends : s.Ends {⟨0⟩, ⟨1⟩} (.object ⟨0⟩) := by
    apply rendering_ends closed
    · rintro _ ⟨⟩
      decide
    · intro id member error key among value found
      rcases members id member with rfl | rfl
      · cases error
      · simp only [List.mem_cons, List.not_mem_nil, or_false] at among
        rcases among with rfl | rfl | rfl <;> cases found
        exact nofun
  exact ⟨ends, rfl⟩

end Store

end SandboxBridge

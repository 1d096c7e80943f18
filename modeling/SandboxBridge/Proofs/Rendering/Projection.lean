import Mathlib.Logic.Relation
import SandboxBridge.Proofs.Dict
import SandboxBridge.Proofs.Rendering.Descent
import SandboxBridge.Proofs.Rendering.Written

/-!
JSON forms of objects. A plain object is rendered as its projection, with whatever is shared written
out at every occurrence, unless a cycle can be reached from it.
-/

namespace SandboxBridge

/-- The values that the JSON form of an object is made of: the elements of an array, and the
properties of anything else. -/
def Object.parts (o : Object) : List Value :=
  if o.isArray then o.elements.toList else o.properties.entries.map (·.2)

def Object.compose (o : Object) (items : List (Option Json.Value)) : Json.Value :=
  if o.isArray then .array (items.map (·.getD .null))
  else .object ((o.properties.keys.zip items).filterMap fun (key, item) => item.map (key, ·))

namespace Store

variable {s : Store} {id other : ObjectId} {depth : Nat} {seen chain : List ObjectId}
  {root value : Value} {item : Option Json.Value}

theorem mapM_entries {ε : Type} (f : Value → Except ε (Option Json.Value))
    (entries : List (String × Value)) :
    (entries.mapM fun entry => (fun item => item.map (entry.1, ·)) <$> f entry.2) =
      (fun items => ((entries.map (·.1)).zip items).map fun field => field.2.map (field.1, ·)) <$>
        (entries.map (·.2)).mapM f := by
  induction entries with
  | nil => rfl
  | cons first rest ih =>
    rw [List.mapM_cons, ih, List.map_cons, List.map_cons, List.mapM_cons]
    cases f first.2 with
    | error e => rfl
    | ok item => cases (rest.map (·.2)).mapM f <;> rfl

theorem json_object (s : Store) (depth : Nat) (seen : List ObjectId) (id : ObjectId) :
    s.json (depth + 1) seen (.object id) =
      if id ∈ seen then .error .cycle
      else (fun items => some ((s.object id).compose items)) <$>
        (s.object id).parts.mapM (s.json depth (id :: seen)) := by
  rw [json]
  split
  next => rfl
  next =>
    unfold Object.compose Object.parts
    dsimp only
    split
    next array =>
      cases (s.object id).elements.toList.mapM (s.json depth (id :: seen)) <;> rfl
    next =>
      have fields := mapM_entries (s.json depth (id :: seen)) (s.object id).properties.entries
      change ((s.object id).properties.entries.mapM
        (fun entry => (fun item => item.map (entry.1, ·)) <$> s.json depth (id :: seen) entry.2) >>=
          _) = _
      rw [fields]
      cases ((s.object id).properties.entries.map (·.2)).mapM (s.json depth (id :: seen)) with
      | error e => rfl
      | ok items =>
        change Except.ok _ = Except.ok _
        rw [List.filterMap_map]
        rfl

/-- An object refers to another one through an element of an array, or through a property of anything
else. -/
inductive Refers (s : Store) (id other : ObjectId) : Prop
  | element (array : (s.object id).isArray = true)
      (member : .object other ∈ (s.object id).elements)
  | property (record : (s.object id).isArray = false) (key : String)
      (found : (s.object id).get? key = some (.object other))

/-- Some object that can be reached from one refers back to itself, directly or through others. -/
def ReachesCycle (s : Store) (id : ObjectId) : Prop :=
  ∃ member, Relation.ReflTransGen s.Refers id member ∧ Relation.TransGen s.Refers member member

theorem refers_iff : s.Refers id other ↔ .object other ∈ (s.object id).parts := by
  unfold Object.parts
  split
  next array =>
    rw [Array.mem_toList_iff]
    refine ⟨fun refers => ?_, .element array⟩
    cases refers with
    | element _ member => exact member
    | property record => simp [array] at record
  next record =>
    have record := Bool.eq_false_of_not_eq_true record
    rw [List.mem_map]
    constructor
    · intro refers
      cases refers with
      | element array => simp [array] at record
      | property _ key found => exact ⟨(key, _), (Dict.mem_entries ..).mpr found, rfl⟩
    · rintro ⟨⟨key, _⟩, member, rfl⟩
      exact .property record key ((Dict.mem_entries ..).mp member)

theorem ReachesCycle.next (reaches : s.ReachesCycle id) :
    ∃ other, s.Refers id other ∧ s.ReachesCycle other := by
  obtain ⟨member, path, cycle⟩ := reaches
  rcases path.cases_head with rfl | ⟨other, refers, path⟩
  · obtain ⟨other, refers, path⟩ := Relation.TransGen.head'_iff.mp cycle
    exact ⟨other, refers, id, path, cycle⟩
  · exact ⟨other, refers, member, path, cycle⟩

/-- What JSON has of a value: nothing of `undefined` and functions, nothing but null of numbers that
are not finite, and of an object what it has of its parts. Whole numbers below `2 ^ 53` are integers.
Parts of which it has nothing are null among the elements of an array and left out among properties,
which stand in ascending order. -/
inductive Projects (s : Store) : Value → Option Json.Value → Prop
  | undefined : s.Projects .undefined none
  | function (id : FunctionId) : s.Projects (.function id) none
  | null : s.Projects .null (some .null)
  | bool (b : Bool) : s.Projects (.bool b) (some (.bool b))
  | string (text : String) : s.Projects (.string text) (some (.string text))
  | infinite (x : Float) (infinite : Decimal.value? x = none) :
      s.Projects (.number x) (some .null)
  | integer (x : Float) (n : Int) (whole : Decimal.value? x = some (n : ℚ))
      (small : n.natAbs < 2 ^ 53) : s.Projects (.number x) (some (.integer n))
  | float (x : Float) (q : ℚ) (finite : Decimal.value? x = some q)
      (other : ∀ n : Int, n.natAbs < 2 ^ 53 → q ≠ n) : s.Projects (.number x) (some (.float x))
  | array (id : ObjectId) (project : Value → Option Json.Value)
      (array : (s.object id).isArray = true)
      (each : ∀ element ∈ (s.object id).elements, s.Projects element (project element)) :
      s.Projects (.object id) (some (.array
        ((s.object id).elements.toList.map fun element => (project element).getD .null)))
  | record (id : ObjectId) (project : Value → Option Json.Value)
      (record : (s.object id).isArray = false)
      (each : ∀ entry ∈ (s.object id).properties.entries,
        s.Projects entry.2 (project entry.2)) :
      s.Projects (.object id) (some (.object
        ((s.object id).properties.entries.filterMap fun entry =>
          (project entry.2).map (entry.1, ·))))

theorem Projects.unique {item' : Option Json.Value} (projects : s.Projects value item)
    (projects' : s.Projects value item') : item' = item := by
  induction projects generalizing item' with
  | infinite x infinite =>
    cases projects' with
    | infinite => rfl
    | integer _ _ whole => cases infinite.symm.trans whole
    | float _ _ finite => cases infinite.symm.trans finite
  | integer x n whole small =>
    cases projects' with
    | infinite _ infinite => cases infinite.symm.trans whole
    | integer _ n' whole' =>
      have same : (n' : ℚ) = n := Option.some.inj (whole'.symm.trans whole)
      rw [Int.cast_inj.mp same]
    | float _ _ finite other =>
      exact absurd (Option.some.inj (finite.symm.trans whole)) (other n small)
  | float x q finite other =>
    cases projects' with
    | infinite _ infinite => cases infinite.symm.trans finite
    | integer _ n whole small =>
      exact absurd (Option.some.inj (finite.symm.trans whole)) (other n small)
    | float => rfl
  | array id project array each ih =>
    cases projects' with
    | array _ project' _ each' =>
      have same : ∀ element ∈ (s.object id).elements.toList,
          (project' element).getD .null = (project element).getD .null := fun element member => by
        have member := Array.mem_toList_iff.mp member
        rw [ih element member (each' element member)]
      rw [List.map_congr_left same]
    | record _ _ record => simp [array] at record
  | record id project record each ih =>
    cases projects' with
    | array _ _ array => simp [array] at record
    | record _ project' _ each' =>
      have same : ∀ entry ∈ (s.object id).properties.entries,
          (project' entry.2).map (entry.1, ·) = (project entry.2).map (entry.1, ·) :=
        fun entry member => by rw [ih entry member (each' entry member)]
      rw [List.filterMap_congr same]
  | _ =>
    cases projects'
    rfl

theorem Projects.acyclic (projects : s.Projects (.object id) item) : ¬s.ReachesCycle id := by
  generalize same : Value.object id = value at projects
  induction projects generalizing id with
  | array _ project array each ih =>
    cases same
    intro reaches
    obtain ⟨other, refers, reaches⟩ := reaches.next
    cases refers with
    | element _ member => exact ih _ member rfl reaches
    | property record => simp [array] at record
  | record _ project record each ih =>
    cases same
    intro reaches
    obtain ⟨other, refers, reaches⟩ := reaches.next
    cases refers with
    | element array => simp [array] at record
    | property _ key found => exact ih _ ((Dict.mem_entries ..).mpr found) rfl reaches
  | _ => cases same

theorem projects_number (s : Store) (x : Float) : s.Projects (.number x) (some (.ofFloat x)) := by
  unfold Json.Value.ofFloat
  split
  next infinite => exact .infinite x (Decimal.value?_eq_none_iff.mpr infinite)
  next finite =>
    obtain ⟨q, finite⟩ := Option.ne_none_iff_exists'.mp (Decimal.value?_eq_none_iff.not.mpr finite)
    have signed := Decimal.value?_eq finite
    have other : ∀ n : Int, q = n → (Decimal.Binary.ofFloat x).whole? = some n.natAbs := by
      rintro n rfl
      rw [Decimal.whole?_eq_some_iff, Decimal.value_eq_abs finite, Nat.cast_natAbs, Int.cast_abs]
    split
    next n whole =>
      have value := Decimal.whole?_eq_some_iff.mp whole
      split
      next small =>
        have small : n < 2 ^ 53 := small
        refine .integer x _ (finite.trans ?_) (by split <;> omega)
        rw [signed, value]
        split <;> push_cast <;> rfl
      next large =>
        refine .float x q finite fun k small same => large ?_
        cases whole.symm.trans (other k same)
        exact small
    next fraction =>
      refine .float x q finite fun k _ same => ?_
      cases fraction.symm.trans (other k same)

theorem projects_object {project : Value → Option Json.Value}
    (each : ∀ part ∈ (s.object id).parts, s.Projects part (project part)) :
    s.Projects (.object id)
      (some ((s.object id).compose ((s.object id).parts.map project))) := by
  unfold Object.parts at each ⊢
  unfold Object.compose
  cases array : (s.object id).isArray with
  | true =>
    simp only [array, ↓reduceIte, List.map_map] at each ⊢
    exact .array id project array fun element member => each element (Array.mem_toList_iff.mpr member)
  | false =>
    simp only [array, Bool.false_eq_true, ↓reduceIte, List.map_map, Dict.keys,
      List.zip_map', List.filterMap_map] at each ⊢
    exact .record id project array fun entry member => each entry.2 (List.mem_map_of_mem member)

theorem object_or_flat (s : Store) (value : Value) :
    (∃ id, value = .object id) ∨
      ∃ item, (∀ depth seen, s.json depth seen value = .ok item) ∧ s.Projects value item := by
  cases value with
  | object id => exact .inl ⟨id, rfl⟩
  | undefined => exact .inr ⟨none, fun _ _ => by simp only [json], .undefined⟩
  | function id => exact .inr ⟨none, fun _ _ => by simp only [json], .function id⟩
  | null => exact .inr ⟨_, fun _ _ => by simp only [json], .null⟩
  | bool b => exact .inr ⟨_, fun _ _ => by simp only [json], .bool b⟩
  | string text => exact .inr ⟨_, fun _ _ => by simp only [json], .string text⟩
  | number x => exact .inr ⟨_, fun _ _ => by simp only [json], s.projects_number x⟩

theorem json_object_ok (made : s.json (depth + 1) seen (.object id) = .ok item) :
    ∃ project : Value → Option Json.Value,
      (∀ part ∈ (s.object id).parts, s.json depth (id :: seen) part = .ok (project part)) ∧
        item = some ((s.object id).compose ((s.object id).parts.map project)) := by
  rw [json_object] at made
  split at made
  next => cases made
  next =>
    cases parts : (s.object id).parts.mapM (s.json depth (id :: seen)) with
    | error e =>
      rw [parts] at made
      cases made
    | ok items =>
      rw [parts] at made
      cases made
      obtain ⟨project, each, rfl⟩ := mapM_eq_ok parts
      exact ⟨project, each, rfl⟩

theorem json_object_error {e : Obstacle}
    (failed : s.json (depth + 1) seen (.object id) = .error e) :
    (id ∈ seen ∧ e = .cycle) ∨
      (id ∉ seen ∧ ∃ other, s.Refers id other ∧
        s.json depth (id :: seen) (.object other) = .error e) := by
  rw [json_object] at failed
  split at failed
  next under =>
    cases failed
    exact .inl ⟨under, rfl⟩
  next fresh =>
    refine .inr ⟨fresh, ?_⟩
    cases parts : (s.object id).parts.mapM (s.json depth (id :: seen)) with
    | ok items =>
      rw [parts] at failed
      cases failed
    | error e =>
      rw [parts] at failed
      cases failed
      obtain ⟨part, member, failed⟩ := mapM_eq_error parts
      rcases s.object_or_flat part with ⟨other, rfl⟩ | ⟨item, flat, -⟩
      · exact ⟨other, refers_iff.mpr member, failed⟩
      · cases (flat depth (id :: seen)).symm.trans failed

/-- What JSON makes of a value is its projection. -/
theorem projects_of_json (made : s.json depth seen value = .ok item) : s.Projects value item := by
  induction depth generalizing seen value item with
  | zero =>
    rcases s.object_or_flat value with ⟨id, rfl⟩ | ⟨item', flat, projects⟩
    · cases made
    · cases (flat 0 seen).symm.trans made
      exact projects
  | succ depth ih =>
    rcases s.object_or_flat value with ⟨id, rfl⟩ | ⟨item', flat, projects⟩
    · obtain ⟨project, each, rfl⟩ := json_object_ok made
      apply projects_object
      exact fun part inside => ih (each part inside)
    · cases (flat (depth + 1) seen).symm.trans made
      exact projects

theorem exists_of_json_cycle (failed : s.json depth seen (.object id) = .error .cycle) :
    ∃ member, Relation.ReflTransGen s.Refers id member ∧
      (member ∈ seen ∨ Relation.TransGen s.Refers member member) := by
  induction depth generalizing seen id with
  | zero => cases failed
  | succ depth ih =>
    rcases json_object_error failed with ⟨under, -⟩ | ⟨-, other, refers, failed⟩
    · exact ⟨id, .refl, .inl under⟩
    · obtain ⟨member, path, under | cycle⟩ := ih failed
      · rcases List.mem_cons.mp under with rfl | under
        · exact ⟨member, .refl, .inr (.head' refers path)⟩
        · exact ⟨member, .head refers path, .inl under⟩
      · exact ⟨member, .head refers path, .inr cycle⟩

/-! Depth. -/

abbrev JsonCall (s : Store) (root : Value) : List ObjectId → Value → Prop :=
  Descent (fun id => (s.object id).parts) root

theorem inside_of_parts (some_part : (s.object id).parts ≠ []) : id.index < s.objects.size := by
  by_contra outside
  have absent : s.object id = {} := by
    rw [object, Array.getD, dif_neg outside]
  exact some_part (by rw [absent]; rfl)

theorem JsonCall.length_le_size (call : s.JsonCall root chain value) :
    chain.length ≤ s.objects.size :=
  Descent.length_le_size call fun _ => inside_of_parts

theorem exists_of_json_depth (call : s.JsonCall root chain value)
    (failed : s.json depth chain value = .error .depth) :
    ∃ deep id, s.JsonCall root deep (.object id) ∧ depth + chain.length ≤ deep.length := by
  induction depth generalizing chain value with
  | zero =>
    rcases s.object_or_flat value with ⟨id, rfl⟩ | ⟨item, flat, -⟩
    · exact ⟨chain, id, call, (Nat.zero_add _).le⟩
    · cases (flat _ _).symm.trans failed
  | succ depth ih =>
    rcases s.object_or_flat value with ⟨id, rfl⟩ | ⟨item, flat, -⟩
    · rcases json_object_error failed with ⟨-, ⟨⟩⟩ | ⟨fresh, other, refers, failed⟩
      obtain ⟨deep, innermost, call', deeper⟩ :=
        ih (.inner call fresh (refers_iff.mp refers)) failed
      refine ⟨deep, innermost, call', ?_⟩
      rw [List.length_cons] at deeper
      omega
    · cases (flat _ _).symm.trans failed

theorem json_ne_depth {limit : Nat}
    (shallow : ∀ deep part, s.JsonCall root deep part → deep.length ≤ limit)
    (call : s.JsonCall root chain value) (room : limit < depth + chain.length) :
    s.json depth chain value ≠ .error .depth := by
  intro failed
  obtain ⟨deep, id, call, deeper⟩ := exists_of_json_depth call failed
  have bound := shallow deep _ call
  omega

theorem Projects.written {json : Json.Value} (projects : s.Projects value (some json)) :
    Json.Written json json.text := by
  generalize some_json : some json = item at projects
  induction projects generalizing json with
  | undefined | function => cases some_json
  | null | infinite =>
    cases some_json
    exact .null
  | bool b =>
    cases some_json
    cases b with
    | false => exact .no
    | true => exact .yes
  | string text =>
    cases some_json
    exact .string text _ (Json.quoted_stringText text)
  | integer _ n =>
    cases some_json
    exact .integer n
  | float x q finite other =>
    cases some_json
    have nonzero : q ≠ 0 := fun zero => other 0 (by decide) (by rw [zero, Int.cast_zero])
    exact .float x _ (Json.writesFloat_text finite nonzero)
  | array id project array each ih =>
    cases some_json
    refine Json.written_array fun item member => ?_
    obtain ⟨element, inside, rfl⟩ := List.mem_map.mp member
    cases found : project element with
    | none => exact .null
    | some json => exact ih element (Array.mem_toList_iff.mp inside) found.symm
  | record id project record each ih =>
    cases some_json
    refine Json.written_object fun field member => ?_
    obtain ⟨entry, inside, projected⟩ := List.mem_filterMap.mp member
    obtain ⟨json, found, rfl⟩ := Option.map_eq_some_iff.mp projected
    exact ih entry inside found.symm

theorem render?_plain (record : (s.object id).isArray = false)
    (noError : (s.object id).isInstanceOf "Error" = false)
    (plain : (s.object id).className = "Object") :
    s.render? (.object id) = match s.json (s.objects.size + 1) [] (.object id) with
      | .ok (some json) => some ("Object(" ++ json.text ++ ")")
      | _ => some "Object" := by
  unfold render? renderWithin
  simp only [record, noError, plain, Bool.false_eq_true, ↓reduceIte]
  cases s.json (s.objects.size + 1) [] (.object id) with
  | error e => rfl
  | ok item => cases item <;> rfl

/-- A plain object is rendered by its class alone if it leads to a cycle, and otherwise as the JSON
text of its projection. -/
theorem plain_rendered (record : (s.object id).isArray = false)
    (noError : (s.object id).isInstanceOf "Error" = false)
    (plain : (s.object id).className = "Object") :
    (s.render? (.object id) = some "Object" ↔ s.ReachesCycle id) ∧
      (¬s.ReachesCycle id → ∃ json text,
        s.Projects (.object id) (some json) ∧
        (∀ item, s.Projects (.object id) item → item = some json) ∧
        Json.Written json text ∧ (∀ text', Json.Written json text' → text' = text) ∧
        s.render? (.object id) = some ("Object(" ++ text ++ ")")) := by
  rw [render?_plain record noError plain]
  cases made : s.json (s.objects.size + 1) [] (.object id) with
  | ok item =>
    have projects := projects_of_json made
    obtain ⟨json, rfl⟩ : ∃ json, item = some json := by
      cases projects <;> exact ⟨_, rfl⟩
    have longer : "Object(" ++ json.text ++ ")" ≠ "Object" := by
      intro same
      have lengths := congrArg String.length same
      simp only [String.length_append] at lengths
      have object : "Object(".length = "Object".length + 1 := rfl
      omega
    refine ⟨⟨fun same => absurd (Option.some.inj same) longer,
      fun reaches => absurd reaches projects.acyclic⟩, fun _ => ?_⟩
    have written := projects.written
    exact ⟨json, json.text, projects, fun _ => projects.unique, written,
      fun _ => written.unique, rfl⟩
  | error e =>
    have reaches : s.ReachesCycle id := by
      cases e with
      | depth =>
        have room : s.objects.size < s.objects.size + 1 + ([] : List ObjectId).length := by simp
        exact absurd made (json_ne_depth (fun _ _ => JsonCall.length_le_size) .root room)
      | cycle =>
        obtain ⟨member, path, under | cycle⟩ := exists_of_json_cycle made
        · cases under
        · exact ⟨member, path, cycle⟩
    exact ⟨⟨fun _ => reaches, fun _ => rfl⟩, fun acyclic => absurd reaches acyclic⟩

/-- An object that refers to itself, and one that refers twice to a third with an array of numbers. -/
theorem plain_rendered_shared :
    let s : Store := { objects := #[
      { classes := ["Object"], properties := .ofList [("me", .object ⟨0⟩)] },
      { classes := [], properties := .ofList [("a", .object ⟨2⟩), ("b", .object ⟨2⟩)] },
      { classes := ["Object"], properties := .ofList [("list", .object ⟨3⟩), ("skip", .undefined)] },
      { classes := ["Array"], elements := #[.number 2.5, .number (-7), .number (1 / 0), .undefined] }] }
    s.render? (.object ⟨0⟩) = some "Object" ∧
      s.render? (.object ⟨1⟩) = some ("Object(\x7b\"a\":\x7b\"list\":[2.5,-7,null,null]\x7d," ++
        "\"b\":\x7b\"list\":[2.5,-7,null,null]\x7d\x7d)") := by
  intro s
  let leaf : Json.Value :=
    .object [("list", .array [.float 2.5, .integer (-7), .null, .null])]
  have itself : s.Refers ⟨0⟩ ⟨0⟩ := .property rfl "me" rfl
  have made : s.json 3 [] (.object ⟨1⟩) = .ok (some (.object [("a", leaf), ("b", leaf)])) := rfl
  have whole := projects_of_json made
  have text : (Json.Value.object [("a", leaf), ("b", leaf)]).text =
      "\x7b\"a\":\x7b\"list\":[2.5,-7,null,null]\x7d,\"b\":\x7b\"list\":[2.5,-7,null,null]\x7d\x7d" := by
    have a : Json.stringText "a" = "\"a\"" := String.toList_injective (Json.toList_stringText _)
    have b : Json.stringText "b" = "\"b\"" := String.toList_injective (Json.toList_stringText _)
    have list : Json.stringText "list" = "\"list\"" :=
      String.toList_injective (Json.toList_stringText _)
    have half : Decimal.Layout.json.text 2.5 = "2.5" := by decide +kernel
    simp only [leaf, Json.Value.text, Json.Value.fieldTexts, Json.Value.itemTexts, a, b, list, half]
    rfl
  refine ⟨(plain_rendered rfl rfl rfl).1.mpr ⟨⟨0⟩, .refl, .single itself⟩, ?_⟩
  have record : (s.object ⟨1⟩).isArray = false := rfl
  obtain ⟨json, text', -, unique, -, single, rendered⟩ :=
    (plain_rendered record rfl rfl).2 whole.acyclic
  cases unique _ whole
  rw [rendered, ← single _ whole.written, text]
  rfl

end Store

end SandboxBridge

import SandboxBridge.Proofs.Rendering.Descent
import SandboxBridge.Proofs.Dict

/-!
Texts of values. An array has the texts of its elements in its own, an error those of its name and
message, so a value has a text unless such an object that it leads to is inside itself.
-/

namespace SandboxBridge

def Object.worded (o : Object) : List Value :=
  if o.isArray then o.elements.toList.filter (!·.isNullish)
  else if o.isInstanceOf "Error" then (o.get? "name").toList ++ (o.get? "message").toList
  else []

namespace Store

variable {s : Store} {value : Value} {text : String} {depth : Nat} {id other : ObjectId}

/-- What a value is as text. Nullish elements of an array are empty, and so is a name or message that
an error has not. -/
inductive Shows (s : Store) : Value → String → Prop
  | undefined : s.Shows .undefined "undefined"
  | null : s.Shows .null "null"
  | bool (b : Bool) : s.Shows (.bool b) (toString b)
  | number (x : Float) : s.Shows (.number x) (numberText x)
  | string (text : String) : s.Shows (.string text) text
  | function (id : FunctionId) : s.Shows (.function id) (s.functionText id)
  | array (id : ObjectId) (text : Value → String) (array : (s.object id).isArray = true)
      (empty : ∀ element, element.isNullish = true → text element = "")
      (each : ∀ element ∈ (s.object id).elements, element.isNullish = false →
        s.Shows element (text element)) :
      s.Shows (.object id) (",".intercalate ((s.object id).elements.toList.map text))
  | error (id : ObjectId) (name message : String) (noArray : (s.object id).isArray = false)
      (error : (s.object id).isInstanceOf "Error" = true)
      (absentName : (s.object id).get? "name" = none → name = "")
      (named : ∀ value, (s.object id).get? "name" = some value → s.Shows value name)
      (absentMessage : (s.object id).get? "message" = none → message = "")
      (said : ∀ value, (s.object id).get? "message" = some value → s.Shows value message) :
      s.Shows (.object id) (name ++ ": " ++ message)
  | other (id : ObjectId) (noArray : (s.object id).isArray = false)
      (noError : (s.object id).isInstanceOf "Error" = false) :
      s.Shows (.object id) "[object Object]"

/-- The text of an object is made of that of another: an element of an array, or the name or message
of an error. -/
inductive Involves (s : Store) (id other : ObjectId) : Prop
  | element (array : (s.object id).isArray = true)
      (member : .object other ∈ (s.object id).elements)
  | error (noArray : (s.object id).isArray = false)
      (error : (s.object id).isInstanceOf "Error" = true) (key : String)
      (named : key = "name" ∨ key = "message")
      (found : (s.object id).get? key = some (.object other))

/-- To make the text of the value, that of some object is needed for its own. -/
def Endless (s : Store) (value : Value) : Prop :=
  ∃ id member, value = .object id ∧ Relation.ReflTransGen s.Involves id member ∧
    Relation.TransGen s.Involves member member

theorem involves_iff : s.Involves id other ↔ .object other ∈ (s.object id).worded := by
  unfold Object.worded
  split
  next array =>
    rw [List.mem_filter, Array.mem_toList_iff]
    refine ⟨fun involves => ?_, fun ⟨member, _⟩ => .element array member⟩
    cases involves with
    | element _ member => exact ⟨member, rfl⟩
    | error noArray => simp [array] at noArray
  next noArray =>
    have noArray := Bool.eq_false_of_not_eq_true noArray
    split
    next error =>
      simp only [List.mem_append, Option.mem_toList]
      constructor
      · intro involves
        cases involves with
        | element array => simp [array] at noArray
        | error _ _ key named found =>
          rcases named with rfl | rfl
          · exact .inl found
          · exact .inr found
      · rintro (found | found)
        · exact .error noArray error "name" (.inl rfl) found
        · exact .error noArray error "message" (.inr rfl) found
    next noError =>
      constructor
      · intro involves
        cases involves with
        | element array => simp [array] at noArray
        | error _ error => exact absurd error noError
      · exact nofun

theorem displayWithin_array (array : (s.object id).isArray = true) :
    s.displayWithin (depth + 1) (.object id) = (",".intercalate ·) <$>
      (s.object id).elements.toList.mapM fun element =>
        if element.isNullish then some "" else s.displayWithin depth element := by
  rw [displayWithin]
  dsimp only
  rw [if_pos array]
  exact (map_eq_pure_bind ..).symm

theorem displayWithin_error (noArray : (s.object id).isArray = false)
    (error : (s.object id).isInstanceOf "Error" = true) :
    s.displayWithin (depth + 1) (.object id) = do
      let name ← ((s.object id).get? "name").elim (some "") (s.displayWithin depth)
      let message ← ((s.object id).get? "message").elim (some "") (s.displayWithin depth)
      return name ++ ": " ++ message := by
  rw [displayWithin]
  dsimp only
  rw [if_neg (Bool.eq_false_iff.mp noArray), if_pos error]

theorem displayWithin_other (noArray : (s.object id).isArray = false)
    (noError : (s.object id).isInstanceOf "Error" = false) :
    s.displayWithin (depth + 1) (.object id) = some "[object Object]" := by
  rw [displayWithin]
  dsimp only
  rw [if_neg (Bool.eq_false_iff.mp noArray), if_neg (Bool.eq_false_iff.mp noError)]

theorem exists_of_displayWithin_eq_none (shown : s.displayWithin (depth + 1) (.object id) = none) :
    ∃ part ∈ (s.object id).worded, s.displayWithin depth part = none := by
  unfold Object.worded
  cases array : (s.object id).isArray with
  | true =>
    rw [displayWithin_array array, Option.map_eq_map, Option.map_eq_none_iff, mapM_eq_none_iff]
      at shown
    obtain ⟨element, member, shown⟩ := shown
    split at shown
    next => cases shown
    next filled => exact ⟨element, List.mem_filter.mpr ⟨member, by simpa using filled⟩, shown⟩
  | false =>
    rw [if_neg Bool.false_ne_true]
    cases error : (s.object id).isInstanceOf "Error" with
    | false => cases (displayWithin_other array error).symm.trans shown
    | true =>
      rw [displayWithin_error array error] at shown
      rw [if_pos rfl]
      by_contra each
      simp only [List.mem_append, Option.mem_toList, not_exists, not_and] at each
      have texted (key : String) (named : key = "name" ∨ key = "message") : ∃ text,
          ((s.object id).get? key).elim (some "") (s.displayWithin depth) = some text := by
        cases found : (s.object id).get? key with
        | none => exact ⟨"", rfl⟩
        | some value =>
          refine Option.ne_none_iff_exists'.mp (each value ?_)
          rcases named with rfl | rfl
          · exact .inl found
          · exact .inr found
      obtain ⟨name, named⟩ := texted "name" (.inl rfl)
      obtain ⟨message, said⟩ := texted "message" (.inr rfl)
      rw [named, said] at shown
      cases shown

theorem shows_or_object (s : Store) (value : Value) :
    (∃ id, value = .object id) ∨
      ∃ text, (∀ depth, s.displayWithin depth value = some text) ∧ s.Shows value text := by
  cases value with
  | object id => exact .inl ⟨id, rfl⟩
  | undefined => exact .inr ⟨_, fun _ => by simp only [displayWithin], .undefined⟩
  | null => exact .inr ⟨_, fun _ => by simp only [displayWithin], .null⟩
  | bool b => exact .inr ⟨_, fun _ => by simp only [displayWithin], .bool b⟩
  | number x => exact .inr ⟨_, fun _ => by simp only [displayWithin], .number x⟩
  | string text => exact .inr ⟨_, fun _ => by simp only [displayWithin], .string text⟩
  | function id => exact .inr ⟨_, fun _ => by simp only [displayWithin], .function id⟩

theorem shows_of_displayWithin (shown : s.displayWithin depth value = some text) :
    s.Shows value text := by
  induction depth generalizing value text with
  | zero =>
    obtain ⟨id, rfl⟩ | ⟨other, flat, shows⟩ := s.shows_or_object value
    · cases shown
    · cases (flat 0).symm.trans shown
      exact shows
  | succ depth ih =>
    obtain ⟨id, rfl⟩ | ⟨other, flat, shows⟩ := s.shows_or_object value
    · cases array : (s.object id).isArray with
      | true =>
        rw [displayWithin_array array, Option.map_eq_map, Option.map_eq_some_iff] at shown
        obtain ⟨texts, passed, rfl⟩ := shown
        obtain ⟨text, each, rfl⟩ := exists_of_mapM_eq_some passed
        -- The relation asks for no text of a nullish element, so that its place takes the empty text
        -- that it shows as.
        have same : (s.object id).elements.toList.map text =
            (s.object id).elements.toList.map fun element =>
              if element.isNullish then "" else text element := by
          refine List.map_congr_left fun element member => ?_
          have own := each element member
          cases nullish : element.isNullish with
          | true =>
            rw [nullish, if_pos rfl] at own
            exact (Option.some.inj own).symm
          | false => rfl
        rw [same]
        refine .array id _ array (fun element nullish => if_pos nullish) fun element member filled => ?_
        have own := each element (Array.mem_toList_iff.mpr member)
        rw [filled, if_neg Bool.false_ne_true] at own ⊢
        exact ih own
      | false =>
        cases error : (s.object id).isInstanceOf "Error" with
        | false =>
          cases (displayWithin_other array error).symm.trans shown
          exact .other id array error
        | true =>
          rw [displayWithin_error array error] at shown
          simp only [Option.bind_eq_bind, Option.bind_eq_some_iff, Option.pure_def,
            Option.some.injEq] at shown
          obtain ⟨name, named, message, said, rfl⟩ := shown
          refine .error id name message array error (fun absent => ?_) (fun value found => ?_)
            (fun absent => ?_) fun value found => ?_
          · rw [absent] at named
            exact (Option.some.inj named).symm
          · rw [found] at named
            exact ih named
          · rw [absent] at said
            exact (Option.some.inj said).symm
          · rw [found] at said
            exact ih said
    · cases (flat _).symm.trans shown
      exact shows

theorem Shows.unique {text' : String} (shows : s.Shows value text) (shows' : s.Shows value text') :
    text' = text := by
  induction shows generalizing text' with
  | array id text array empty each ih =>
    cases shows' with
    | array _ text' _ empty' each' =>
      have same : ∀ element ∈ (s.object id).elements.toList, text' element = text element := by
        intro element member
        have member := Array.mem_toList_iff.mp member
        cases filled : element.isNullish with
        | true => rw [empty' element filled, empty element filled]
        | false => exact ih element member filled (each' element member filled)
      rw [List.map_congr_left same]
    | error _ _ _ noArray => cases array.symm.trans noArray
    | other _ noArray => cases array.symm.trans noArray
  | error id name message noArray error absentName named absentMessage said ihName ihMessage =>
    cases shows' with
    | array _ _ array => cases array.symm.trans noArray
    | other _ _ noError => cases error.symm.trans noError
    | error _ name' message' _ _ absentName' named' absentMessage' said' =>
      have names : name' = name := by
        cases found : (s.object id).get? "name" with
        | none => rw [absentName found, absentName' found]
        | some value => exact ihName value found (named' value found)
      have messages : message' = message := by
        cases found : (s.object id).get? "message" with
        | none => rw [absentMessage found, absentMessage' found]
        | some value => exact ihMessage value found (said' value found)
      rw [names, messages]
  | other id noArray noError =>
    cases shows' with
    | array _ _ array => cases array.symm.trans noArray
    | error _ _ _ _ error => cases error.symm.trans noError
    | other => rfl
  | _ =>
    cases shows'
    rfl

theorem Endless.next (endless : s.Endless (.object id)) :
    ∃ other, s.Involves id other ∧ s.Endless (.object other) := by
  obtain ⟨_, member, ⟨⟩, path, cycle⟩ := endless
  rcases path.cases_head with rfl | ⟨other, involves, path⟩
  · obtain ⟨other, involves, path⟩ := Relation.TransGen.head'_iff.mp cycle
    exact ⟨other, involves, other, id, rfl, path, cycle⟩
  · exact ⟨other, involves, other, member, rfl, path, cycle⟩

theorem Shows.not_endless (shows : s.Shows value text) : ¬s.Endless value := by
  induction shows with
  | array id text array empty each ih =>
    intro endless
    obtain ⟨other, involves, endless⟩ := endless.next
    cases involves with
    | element _ member => exact ih _ member rfl endless
    | error noArray => cases array.symm.trans noArray
  | error id name message noArray error absentName named absentMessage said ihName ihMessage =>
    intro endless
    obtain ⟨other, involves, endless⟩ := endless.next
    cases involves with
    | element array => cases array.symm.trans noArray
    | error _ _ key chosen found =>
      rcases chosen with rfl | rfl
      · exact ihName _ found endless
      · exact ihMessage _ found endless
  | other id noArray noError =>
    intro endless
    obtain ⟨other, involves, -⟩ := endless.next
    cases involves with
    | element array => cases array.symm.trans noArray
    | error _ error => cases error.symm.trans noError
  | _ =>
    rintro ⟨id, member, ⟨⟩, -⟩

/-! Depth. -/

theorem inside_of_worded (some_part : (s.object id).worded ≠ []) :
    id.index < s.objects.size := by
  by_contra outside
  have absent : s.object id = {} := by
    rw [object, Array.getD, dif_neg outside]
  exact some_part (by rw [absent]; rfl)

theorem exists_of_displayWithin_deep {root : Value} {chain : List ObjectId}
    (call : Descent (fun id => (s.object id).worded) root chain value)
    (shown : s.displayWithin depth value = none) :
    s.Endless root ∨ ∃ deep innermost,
      Descent (fun id => (s.object id).worded) root deep innermost ∧
        depth + chain.length ≤ deep.length := by
  induction depth generalizing chain value with
  | zero => exact .inr ⟨chain, value, call, (Nat.zero_add _).le⟩
  | succ depth ih =>
    obtain ⟨id, rfl⟩ | ⟨text, flat, -⟩ := s.shows_or_object value
    · obtain ⟨under, first, start, path⟩ := call.path
      have involves : (fun a b => .object b ∈ (s.object a).worded) = s.Involves :=
        funext fun a => funext fun b => propext involves_iff.symm
      rw [involves] at under path
      by_cases fresh : id ∈ chain
      · exact .inl ⟨first, id, start, path, under id fresh⟩
      · obtain ⟨part, member, shown⟩ := exists_of_displayWithin_eq_none shown
        obtain endless | ⟨deep, innermost, call', deeper⟩ := ih (.inner call fresh member) shown
        · exact .inl endless
        · refine .inr ⟨deep, innermost, call', ?_⟩
          rw [List.length_cons] at deeper
          omega
    · cases (flat _).symm.trans shown

/-- A value has no text if that would be endless. -/
theorem display?_eq_none_iff : s.display? value = none ↔ s.Endless value := by
  constructor
  · intro shown
    obtain endless | ⟨deep, innermost, call, deeper⟩ := exists_of_displayWithin_deep .root shown
    · exact endless
    · have bound := call.length_le_size (s := s) fun _ => inside_of_worded
      rw [List.length_nil] at deeper
      omega
  · intro endless
    by_contra shown
    obtain ⟨text, shown⟩ := Option.ne_none_iff_exists'.mp shown
    exact (shows_of_displayWithin shown).not_endless endless

theorem display?_eq_some_iff : s.display? value = some text ↔ s.Shows value text := by
  refine ⟨shows_of_displayWithin, fun shows => ?_⟩
  cases shown : s.display? value with
  | none => exact absurd (display?_eq_none_iff.mp shown) shows.not_endless
  | some text' => rw [shows.unique (shows_of_displayWithin shown)]

/-- An error that the host makes has its name and its message. -/
theorem object_newError (name message : String) (s : Store) :
    ∃ id, ((newError name message).run s).1 = .object id ∧
      (((newError name message).run s).2.object id).classes =
        (if name = "Error" then ["Error"] else [name, "Error"]) ∧
      (((newError name message).run s).2.object id).get? "name" = some (.string name) ∧
      (((newError name message).run s).2.object id).get? "message" = some (.string message) := by
  let error : Object := {
    classes := if name = "Error" then ["Error"] else [name, "Error"]
    properties := .ofList [
      ("name", .string name), ("message", .string message),
      ("stack", .string (stackText name message))] }
  have made : ((newError name message).run s).2.object ⟨s.objects.size⟩ = error := by
    change (s.objects.push error).getD s.objects.size {} = error
    rw [Array.getD_eq_getD_getElem?, Array.getElem?_push_size, Option.getD_some]
  refine ⟨⟨s.objects.size⟩, rfl, ?_, ?_, ?_⟩ <;> rw [made]
  · simp [error, Object.get?, Dict.ofList, Dict.get?_insert]
  · simp [error, Object.get?, Dict.ofList, Dict.get?_insert]

theorem display?_newError (name : String) (noArray : name ≠ "Array") (message : String)
    (s : Store) : ((newError name message).run s).2.display? ((newError name message).run s).1 =
      some (name ++ ": " ++ message) := by
  obtain ⟨id, made, classes, named, said⟩ := object_newError name message s
  rw [made, display?_eq_some_iff]
  refine .error id name message ?_ ?_ ?_ ?_ ?_ ?_
  · rw [Object.isArray, Object.isInstanceOf, classes]
    by_cases plain : name = "Error" <;> simp [plain, Ne.symm noArray]
  · rw [Object.isInstanceOf, classes]
    by_cases plain : name = "Error" <;> simp [plain]
  · rw [named]
    exact nofun
  · rw [named]
    rintro _ ⟨⟩
    exact .string name
  · rw [said]
    exact nofun
  · rw [said]
    rintro _ ⟨⟩
    exact .string message

end Store

end SandboxBridge

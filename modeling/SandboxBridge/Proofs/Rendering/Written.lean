import SandboxBridge.Json.Value
import SandboxBridge.Proofs.Decimal.Shortest
import SandboxBridge.Proofs.Json

/-!
What compact JSON text is: literals, strings with their escapes, decimals that are read back as the
same float, and lists between brackets without blanks.
-/

namespace SandboxBridge.Json

open Decimal Float.Model

inductive Escapes : Char → List Char → Prop
  | quote : Escapes '"' ['\\', '"']
  | backslash : Escapes '\\' ['\\', '\\']
  | backspace : Escapes '\x08' ['\\', 'b']
  | tab : Escapes '\t' ['\\', 't']
  | newline : Escapes '\n' ['\\', 'n']
  | feed : Escapes '\x0c' ['\\', 'f']
  | carriage : Escapes '\r' ['\\', 'r']
  | control (c : Char) (control : c.toNat < 0x20)
      (unnamed : c ∉ ['\x08', '\t', '\n', '\x0c', '\r']) :
      Escapes c ['\\', 'u', '0', '0', (c.toNat / 16).digitChar, (c.toNat % 16).digitChar]
  | plain (c : Char) (visible : 0x20 ≤ c.toNat) (quote : c ≠ '"') (backslash : c ≠ '\\') :
      Escapes c [c]

def Quoted (s text : String) : Prop :=
  ∃ pieces, List.Forall₂ Escapes s.toList pieces ∧
    text = "\"" ++ String.ofList pieces.flatten ++ "\""

theorem escapes_escaped (c : Char) : Escapes c (escaped c).toList := by
  unfold escaped
  split_ifs with quote backslash backspace tab newline feed carriage control
  · exact quote ▸ .quote
  · exact backslash ▸ .backslash
  · exact backspace ▸ .backspace
  · exact tab ▸ .tab
  · exact newline ▸ .newline
  · exact feed ▸ .feed
  · exact carriage ▸ .carriage
  · rw [String.toList_append, (unitText_control c.toNat control).1]
    exact .control c control (by simp_all)
  · rw [Char.toString_eq_singleton, String.toList_singleton]
    exact .plain c (by omega) quote backslash

theorem Escapes.unique {c : Char} {text text' : List Char} (escapes : Escapes c text)
    (escapes' : Escapes c text') : text = text' := by
  cases escapes <;> cases escapes' <;> simp_all <;> omega

theorem quoted_stringText (s : String) : Quoted s (stringText s) := by
  refine ⟨s.toList.map fun c => (escaped c).toList, ?_, ?_⟩
  · rw [List.forall₂_map_right_iff, List.forall₂_same]
    exact fun c _ => escapes_escaped c
  · apply String.toList_injective
    rw [toList_stringText, String.toList_append, String.toList_append, String.toList_ofList,
      String.toList_ofList, List.flatMap_def]
    rfl

theorem Quoted.unique {s text text' : String} (quoted : Quoted s text) (quoted' : Quoted s text') :
    text' = text := by
  obtain ⟨pieces, each, rfl⟩ := quoted
  obtain ⟨pieces', each', rfl⟩ := quoted'
  have unique : Relator.RightUnique Escapes := fun _ _ _ => Escapes.unique
  rw [List.right_unique_forall₂' unique each each']

/-- Digits with their decimal point. The point is written out where it stands before one of the
first sixteen digits, behind them, or with at most four zeros between, and given by an exponent
elsewhere. -/
inductive Laid (digits : List Char) (point : Int) : String → Prop
  | below (count : Nat) (position : point = -count) (few : count < 5) :
      Laid digits point
        ("0." ++ String.ofList (List.replicate count '0') ++ String.ofList digits)
  | inside (whole fraction : List Char) (position : point = whole.length)
      (both : digits = whole ++ fraction) (some_whole : whole ≠ []) (some_fraction : fraction ≠ [])
      (few : whole.length ≤ 16) :
      Laid digits point (String.ofList whole ++ "." ++ String.ofList fraction)
  | above (count : Nat) (position : point = digits.length + count) (few : point ≤ 16) :
      Laid digits point
        (String.ofList digits ++ String.ofList (List.replicate count '0') ++ ".0")
  | far (first : Char) (rest : List Char) (fraction sign : String)
      (outside : point < -4 ∨ 16 < point) (both : digits = first :: rest)
      (single : rest = [] → fraction = "") (more : rest ≠ [] → fraction = "." ++ String.ofList rest)
      (small : point < 1 → sign = "-") (large : 1 ≤ point → sign = "+") :
      Laid digits point
        (String.ofList [first] ++ fraction ++ "e" ++ sign ++ toString (point - 1).natAbs)

theorem laid_text {digits : List Char} (filled : digits ≠ []) (point : Int) :
    Laid digits point (if -4 ≤ point ∧ point ≤ 16 then positionalText digits point true
      else scientificText digits point) := by
  split
  next near =>
    unfold positionalText
    split
    next low => exact .below _ (by omega) (by omega)
    next high =>
      split
      next long => exact .above _ (by omega) near.2
      next short =>
        have length : (digits.take point.toNat).length = point.toNat := by
          rw [List.length_take]
          omega
        refine .inside _ _ (by omega) (List.take_append_drop _ _).symm ?_ ?_ (by omega)
        · exact List.ne_nil_of_length_pos (by omega)
        · exact List.ne_nil_of_length_pos (by rw [List.length_drop]; omega)
  next outside =>
    obtain ⟨first, rest, rfl⟩ := List.exists_cons_of_ne_nil filled
    unfold scientificText
    refine .far first rest _ _ (by omega) rfl ?_ ?_ ?_ ?_
    · rintro rfl
      rfl
    · intro some_rest
      rw [List.drop_one, List.tail_cons]
      split
      next => contradiction
      next => rfl
    · intro small
      exact if_pos (by omega)
    · intro large
      exact if_neg (by omega)

theorem Laid.unique {digits : List Char} {point : Int} {text text' : String}
    (filled : digits ≠ []) (laid : Laid digits point text) (laid' : Laid digits point text') :
    text' = text := by
  have length := List.length_pos_iff.mpr filled
  -- The position of the point decides the layout, so that two layouts of one position are alike.
  cases laid with
  | below count position few =>
    cases laid' with
    | below count' position' =>
      have same : count' = count := by omega
      rw [same]
    | inside whole' _ position' _ some_whole =>
      have length := List.length_pos_iff.mpr some_whole
      omega
    | above | far => omega
  | inside whole fraction position both some_whole some_fraction few =>
    have length := List.length_pos_iff.mpr some_whole
    have length' := List.length_pos_iff.mpr some_fraction
    have total := congrArg List.length both
    rw [List.length_append] at total
    cases laid' with
    | inside whole' fraction' position' both' =>
      obtain ⟨rfl, rfl⟩ := List.append_inj (both'.symm.trans both) (by omega)
      rfl
    | below | above | far => omega
  | above count position few =>
    cases laid' with
    | above count' position' =>
      have same : count' = count := by omega
      rw [same]
    | inside whole' fraction' position' both' _ some_fraction =>
      have length' := List.length_pos_iff.mpr some_fraction
      have total := congrArg List.length both'
      rw [List.length_append] at total
      omega
    | below | far => omega
  | far first rest fraction sign outside both single more small large =>
    cases laid' with
    | far first' rest' fraction' sign' _ both' single' more' small' large' =>
      obtain ⟨rfl, rfl⟩ := List.cons.inj (both'.symm.trans both)
      have fractions : fraction' = fraction := by
        by_cases none : rest' = []
        · rw [single none, single' none]
        · rw [more none, more' none]
      have signs : sign' = sign := by
        rcases Int.lt_or_le point 1 with low | high
        · rw [small low, small' low]
        · rw [large high, large' high]
      rw [fractions, signs]
    | inside whole' _ position' _ some_whole =>
      have length := List.length_pos_iff.mpr some_whole
      omega
    | below | above => omega

def signText : UnpackedFloat.Sign → String
  | .positive => ""
  | .negative => "-"

/-- A float as the shortest decimal that is read back as it, with its sign. -/
inductive WritesFloat (x : Float) : String → Prop
  | mk (s : UnpackedFloat.Sign) (m : ℕ) (e : ℤ) (pos : 0 < m) (c : ℕ) (g : ℤ) (digits : String)
      (unpacked : x.toModel.unpack = .finite s m e pos) (shortest : Shortest m e c g)
      (laid : Laid (Nat.toDigits 10 c) ((Nat.toDigits 10 c).length + g) digits) :
      WritesFloat x (signText s ++ digits)

/-- Every float that is finite and not zero has a decimal. -/
theorem writesFloat_text {x : Float} {q : ℚ} (finite : value? x = some q) (nonzero : q ≠ 0) :
    WritesFloat x (Layout.json.text x) := by
  unfold value? at finite
  cases unpacked : x.toModel.unpack with
  | infinity | notANumber =>
    rw [unpacked] at finite
    cases finite
  | zero =>
    rw [unpacked] at finite
    cases finite
    exact absurd rfl nonzero
  | finite s m e pos =>
    obtain ⟨fields, double⟩ := ofFloat_of_finite unpacked
    have shortest := shortest_spec double
    rw [show (Binary.ofFloat x).significand = m by rw [fields],
      show (Binary.ofFloat x).exponent = e by rw [fields]] at shortest
    have signed : Layout.json.text x =
        signText s ++ Layout.json.positiveText (Binary.ofFloat x) := by
      unfold Layout.text
      cases s with
      | negative => exact if_pos ((lt_zero_iff unpacked).mpr rfl)
      | positive =>
        rw [if_neg ((lt_zero_iff unpacked).not.mpr nofun)]
        exact String.empty_append.symm
    rw [signed]
    exact .mk s m e pos _ _ _ unpacked shortest (laid_text Nat.toDigits_ne_nil _)

theorem WritesFloat.unique {x : Float} {text text' : String} (writes : WritesFloat x text)
    (writes' : WritesFloat x text') : text' = text := by
  obtain ⟨s, m, e, pos, c, g, digits, unpacked, shortest, laid⟩ := writes
  obtain ⟨s', m', e', pos', c', g', digits', unpacked', shortest', laid'⟩ := writes'
  cases unpacked.symm.trans unpacked'
  obtain ⟨rfl, rfl⟩ := shortest.unique shortest'
  rw [laid.unique Nat.toDigits_ne_nil laid']

/-! Documents. -/

/-- Compact JSON text of a value. -/
inductive Written : Value → String → Prop
  | null : Written .null "null"
  | yes : Written (.bool true) "true"
  | no : Written (.bool false) "false"
  | integer (n : Int) : Written (.integer n) (toString n)
  | float (x : Float) (text : String) (writes : WritesFloat x text) : Written (.float x) text
  | string (s text : String) (quoted : Quoted s text) : Written (.string s) text
  | array (items : List Value) (text : Value → String)
      (each : ∀ item ∈ items, Written item (text item)) :
      Written (.array items) ("[" ++ ",".intercalate (items.map text) ++ "]")
  | object (fields : List (String × Value)) (name : String → String) (text : Value → String)
      (names : ∀ field ∈ fields, Quoted field.1 (name field.1))
      (each : ∀ field ∈ fields, Written field.2 (text field.2)) :
      Written (.object fields) ("\x7b" ++
        ",".intercalate (fields.map fun field => name field.1 ++ ":" ++ text field.2) ++ "\x7d")

theorem Written.unique {json : Value} {text text' : String} (written : Written json text)
    (written' : Written json text') : text' = text := by
  induction written generalizing text' with
  | float x text writes =>
    cases written' with
    | float _ _ writes' => exact writes.unique writes'
  | string s text quoted =>
    cases written' with
    | string _ _ quoted' => exact quoted.unique quoted'
  | array items text each ih =>
    cases written' with
    | array _ text' each' =>
      rw [List.map_congr_left fun item member => ih item member (each' item member)]
  | object fields name text names each ih =>
    cases written' with
    | object _ name' text' names' each' =>
      have same : ∀ field ∈ fields, name' field.1 ++ ":" ++ text' field.2 =
          name field.1 ++ ":" ++ text field.2 := fun field member => by
        rw [(names field member).unique (names' field member), ih field member (each' field member)]
      rw [List.map_congr_left same]
  | _ =>
    cases written'
    rfl

theorem itemTexts_eq_map (items : List Value) : Value.itemTexts items = items.map Value.text := by
  induction items with
  | nil => rfl
  | cons item rest ih => rw [Value.itemTexts, ih, List.map_cons]

theorem fieldTexts_eq_map (fields : List (String × Value)) : Value.fieldTexts fields =
    fields.map fun field => stringText field.1 ++ ":" ++ field.2.text := by
  induction fields with
  | nil => rfl
  | cons field rest ih => rw [Value.fieldTexts, ih, List.map_cons]

theorem written_array {items : List Value} (each : ∀ item ∈ items, Written item item.text) :
    Written (.array items) (Value.text (.array items)) := by
  rw [Value.text, itemTexts_eq_map]
  exact .array items Value.text each

theorem written_object {fields : List (String × Value)}
    (each : ∀ field ∈ fields, Written field.2 field.2.text) :
    Written (.object fields) (Value.text (.object fields)) := by
  rw [Value.text, fieldTexts_eq_map]
  exact .object fields stringText Value.text (fun field _ => quoted_stringText field.1) each

end SandboxBridge.Json

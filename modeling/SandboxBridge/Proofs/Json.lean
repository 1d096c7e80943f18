import SandboxBridge.Json.Reader
import SandboxBridge.Json.Text
import Mathlib.Algebra.Group.Nat.Defs
import Mathlib.Data.List.Forall2
import Mathlib.Data.List.TakeDrop

/-!
JSON text that was written here is read back as what it was written from: strings of any
characters, literals, plain integers, and objects with one field a line.
-/

namespace SandboxBridge.Json

variable {rest : List Char}

/-- The piece stands for a character, whatever pieces come after it. -/
def Piece.Spells (piece : Piece) (c : Char) : Prop :=
  ∀ pieces, spell? (piece :: pieces) = (spell? pieces).map (c :: ·)

theorem spells_char (c : Char) : (Piece.char c).Spells c :=
  fun _ => rfl

theorem spells_unit {n : Nat} (plain : n < 0xD800) : (Piece.unit n).Spells (Char.ofNat n) := by
  have high : isHighSurrogate n = false := by
    simp only [isHighSurrogate, Bool.and_eq_false_iff, decide_eq_false_iff_not]
    omega
  have low : isLowSurrogate n = false := by
    simp only [isLowSurrogate, Bool.and_eq_false_iff, decide_eq_false_iff_not]
    omega
  intro pieces
  rcases pieces with _ | ⟨c | other, pieces⟩ <;> simp [spell?, high, low]

/-- The text is read as one piece, whatever comes after it. -/
def ReadsPiece (text : List Char) (piece : Piece) : Prop :=
  ∀ rest, readPieces (text ++ rest) =
    (readPieces rest).map fun (pieces, after) => (piece :: pieces, after)

theorem readsPiece_named {name c : Char} (named : namedEscape? name = some c) :
    ReadsPiece ['\\', name] (.char c) := by
  intro rest
  have other : name ≠ 'u' := by
    rintro rfl
    cases named
  rw [List.cons_append, List.cons_append, List.nil_append, readPieces, named]
  · cases readPieces rest <;> rfl
  · intro a b c d after isUnit
    exact absurd isUnit other

theorem readsPiece_unit {a b c d : Char} {n : Nat} (unit : hexUnit? a b c d = some n) :
    ReadsPiece ['\\', 'u', a, b, c, d] (.unit n) := by
  intro rest
  simp only [List.cons_append, List.nil_append]
  rw [readPieces, unit]
  cases readPieces rest <;> rfl

theorem readsPiece_raw {c : Char} (quote : c ≠ '"') (backslash : c ≠ '\\') (high : 0x20 ≤ c.toNat) :
    ReadsPiece [c] (.char c) := by
  intro rest
  rw [List.cons_append, List.nil_append, readPieces]
  · rw [if_neg (by simp only [backslash, or_false]; omega)]
    cases readPieces rest <;> rfl
  all_goals grind

theorem unitText_control : ∀ n < 0x20, (unitText n).toList =
    ['0', '0', (n / 16).digitChar, (n % 16).digitChar] ∧
    hexUnit? '0' '0' (n / 16).digitChar (n % 16).digitChar = some n := by
  simp only [unitText, String.toList_ofList]
  decide

theorem exists_piece (c : Char) : ∃ piece : Piece, piece.Spells c ∧
    ReadsPiece (escaped c).toList piece := by
  unfold escaped
  split_ifs with quote backslash backspace tab newline feed carriage control
  · exact ⟨_, spells_char c, quote ▸ readsPiece_named rfl⟩
  · exact ⟨_, spells_char c, backslash ▸ readsPiece_named rfl⟩
  · exact ⟨_, spells_char c, backspace ▸ readsPiece_named rfl⟩
  · exact ⟨_, spells_char c, tab ▸ readsPiece_named rfl⟩
  · exact ⟨_, spells_char c, newline ▸ readsPiece_named rfl⟩
  · exact ⟨_, spells_char c, feed ▸ readsPiece_named rfl⟩
  · exact ⟨_, spells_char c, carriage ▸ readsPiece_named rfl⟩
  · obtain ⟨digits, value⟩ := unitText_control c.toNat control
    have spells := spells_unit (Nat.lt_trans control (by decide : 0x20 < 0xD800))
    rw [Char.ofNat_toNat] at spells
    refine ⟨_, spells, ?_⟩
    rw [String.toList_append, digits]
    exact readsPiece_unit value
  · refine ⟨_, spells_char c, ?_⟩
    rw [Char.toString_eq_singleton, String.toList_singleton]
    exact readsPiece_raw quote backslash (Nat.le_of_not_lt control)

theorem readString_escaped (text rest : List Char) :
    readString (text.flatMap (fun c => (escaped c).toList) ++ '"' :: rest) =
      some (some (String.ofList text), rest) := by
  have pieces : ∃ pieces, spell? pieces = some text ∧
      readPieces (text.flatMap (fun c => (escaped c).toList) ++ '"' :: rest) =
        some (pieces, rest) := by
    induction text with
    | nil => exact ⟨[], rfl, rfl⟩
    | cons c text ih =>
      obtain ⟨pieces, spelt, read⟩ := ih
      obtain ⟨piece, spells, reads⟩ := exists_piece c
      refine ⟨piece :: pieces, ?_, ?_⟩
      · rw [spells, spelt, Option.map_some]
      · rw [List.flatMap_cons, List.append_assoc, reads, read, Option.map_some]
  obtain ⟨pieces, spelt, read⟩ := pieces
  rw [readString, read, Option.map_some]
  dsimp only
  rw [spelt, Option.map_some]

theorem toList_stringText (s : String) : (stringText s).toList =
    '"' :: (s.toList.flatMap (fun c => (escaped c).toList) ++ ['"']) := by
  have folded (text : List Char) (start : String) :
      (text.foldl (fun written c => written ++ escaped c) start).toList =
        start.toList ++ text.flatMap fun c => (escaped c).toList := by
    induction text generalizing start with
    | nil => rw [List.foldl_nil, List.flatMap_nil, List.append_nil]
    | cons c text ih =>
      rw [List.foldl_cons, ih, String.toList_append, List.append_assoc, List.flatMap_cons]
  rw [stringText, String.foldl_eq_foldl_toList, String.toList_append, folded]
  rfl

theorem skipBlanks_cons {c : Char} (visible : isBlank c = false) (rest : List Char) :
    skipBlanks (c :: rest) = c :: rest := by
  rw [skipBlanks, List.dropWhile_cons, if_neg (by simp [visible])]

theorem skipBlanks_blank {c : Char} (blank : isBlank c = true) (rest : List Char) :
    skipBlanks (c :: rest) = skipBlanks rest := by
  rw [skipBlanks, List.dropWhile_cons, if_pos blank, skipBlanks]

theorem readValue_blank (depth : Nat) {c : Char} (blank : isBlank c = true) (rest : List Char) :
    readValue depth (c :: rest) = readValue depth rest := by
  rw [readValue.eq_def, readValue.eq_def depth rest, skipBlanks_blank blank]

inductive Ends : List Char → Prop where
  | comma (rest : List Char) : Ends (',' :: rest)
  | line (rest : List Char) : Ends ('\n' :: rest)

def Reads (value : String) (document : Document) : Prop :=
  ∀ depth rest, Ends rest → readValue depth (value.toList ++ rest) = some (document, rest)

theorem reads_string (s : String) : Reads (stringText s) (.string (some s)) := by
  intro depth rest _
  rw [toList_stringText, List.cons_append, List.append_assoc, readValue.eq_def,
    skipBlanks_cons (by decide)]
  simp only [List.cons_append, List.nil_append, readString_escaped, String.ofList_toList,
    Option.map_some]

theorem reads_null : Reads "null" .null := by
  intro depth rest _
  change readValue depth ('n' :: 'u' :: 'l' :: 'l' :: rest) = _
  rw [readValue.eq_def, skipBlanks_cons (by decide)]
  cases depth <;> rfl

theorem reads_bool (b : Bool) : Reads (boolText b) (.bool b) := by
  intro depth rest _
  cases b with
  | true =>
    change readValue depth ('t' :: 'r' :: 'u' :: 'e' :: rest) = _
    rw [readValue.eq_def, skipBlanks_cons (by decide)]
    cases depth <;> rfl
  | false =>
    change readValue depth ('f' :: 'a' :: 'l' :: 's' :: 'e' :: rest) = _
    rw [readValue.eq_def, skipBlanks_cons (by decide)]
    cases depth <;> rfl

/-! Numbers. -/

theorem digitsValue_toDigits (n : Nat) : digitsValue (Nat.toDigits 10 n) = n := by
  rw [digitsValue]
  simp only [Nat.mul_comm _ 10]
  exact Nat.ofDigitChars_ten_toDigits

theorem isDigit_of_mem {n : Nat} {c : Char} (member : c ∈ Nat.toDigits 10 n) : c.isDigit = true :=
  Nat.isDigit_of_mem_toDigits (by decide) (by decide) member

theorem head?_toDigits_ne_zero {n : Nat} (positive : 0 < n) :
    (Nat.toDigits 10 n).head? ≠ some '0' := by
  induction n using Nat.strongRecOn with
  | _ n ih =>
    rw [Nat.toDigits_eq_if (by decide)]
    split
    next small =>
      rw [List.head?_cons, ne_eq, Option.some.injEq, Nat.digitChar_eq_zero]
      omega
    next large =>
      have shorter := ih (n / 10) (by omega) (by omega)
      rwa [List.head?_append_of_ne_nil _ Nat.toDigits_ne_nil]

theorem readDigits_append {digits : List Char} (some_digit : digits ≠ [])
    (all : ∀ c ∈ digits, c.isDigit = true) (ends : Ends rest) :
    readDigits (digits ++ rest) = some (digits, rest) := by
  have stops : rest.takeWhile Char.isDigit = [] ∧ rest.dropWhile Char.isDigit = rest := by
    cases ends <;> exact ⟨rfl, rfl⟩
  rw [readDigits, List.span_eq_takeWhile_dropWhile, List.takeWhile_append_of_pos all,
    List.dropWhile_append_of_pos all, stops.1, stops.2, List.append_nil]
  split
  next empty => exact absurd (Prod.mk.inj empty).1 some_digit
  next => rfl

theorem readInteger_toDigits (n : Nat) (ends : Ends rest) :
    readInteger (Nat.toDigits 10 n ++ rest) = some (Nat.toDigits 10 n, rest) := by
  rcases Nat.eq_zero_or_pos n with rfl | positive
  · cases ends <;> rfl
  · have leading := head?_toDigits_ne_zero positive
    have read := readDigits_append Nat.toDigits_ne_nil (fun _ => isDigit_of_mem (n := n)) ends
    revert leading read
    generalize Nat.toDigits 10 n = digits
    rcases digits with _ | ⟨c, digits⟩
    · intro _ read
      cases ends <;> cases read
    · intro leading read
      unfold readInteger
      split
      next zero => exact absurd (congrArg some (List.cons.inj zero).1) leading
      next => exact read

theorem exists_digit (n : Nat) :
    ∃ c digits, Nat.toDigits 10 n = c :: digits ∧ c.isDigit = true := by
  obtain ⟨c, digits, written⟩ := List.exists_cons_of_ne_nil (Nat.toDigits_ne_nil (n := n) (b := 10))
  refine ⟨c, digits, written, isDigit_of_mem (n := n) ?_⟩
  rw [written]
  exact List.mem_cons_self

theorem readNumber_toDigits {n : Nat} (small : n < 10 ^ maxDigits) (ends : Ends rest) :
    readNumber (Nat.toDigits 10 n ++ rest) = some (some n, rest) := by
  have read := readInteger_toDigits n ends
  have short : (Nat.toDigits 10 n).length ≤ maxDigits :=
    (Nat.length_toDigits_le_iff (by decide) (by decide)).mpr small
  have value := digitsValue_toDigits n
  have whole : skipFraction rest = some rest ∧ skipExponent rest = some rest ∧
      isContinued rest = false := by
    cases ends <;> exact ⟨rfl, rfl, rfl⟩
  obtain ⟨fraction, exponent, continued⟩ := whole
  obtain ⟨c, digits, written, digit⟩ := exists_digit n
  have unsigned : c ≠ '-' := by
    rintro rfl
    cases digit
  rw [written] at read short value ⊢
  rw [List.cons_append] at read ⊢
  simp only [readNumber, List.cons.injEq, unsigned, false_and, imp_self, implies_true, read,
    Option.bind_eq_bind, Option.bind_some, fraction, exponent, continued, short, value,
    Option.pure_def, Bool.not_false, Bool.and_self, decide_true, if_true]

theorem digit_opens_number {c : Char} (digit : c.isDigit = true) :
    c ∉ ['"', 't', 'f', 'n', '[', '{', ' ', '\n', '\t', '\r'] := by
  intro member
  simp only [List.mem_cons, List.not_mem_nil, or_false] at member
  rcases member with rfl | rfl | rfl | rfl | rfl | rfl | rfl | rfl | rfl | rfl
  all_goals exact absurd digit (by decide)

theorem reads_number {n : Nat} (small : n < 10 ^ maxDigits) :
    Reads (toString n) (.number (some n)) := by
  intro depth rest ends
  have read := readNumber_toDigits small ends
  obtain ⟨c, digits, written, digit⟩ := exists_digit n
  have other := digit_opens_number digit
  simp only [List.mem_cons, List.not_mem_nil, or_false, not_or] at other
  rw [Nat.toString_eq_repr, Nat.toList_repr]
  rw [written, List.cons_append] at read ⊢
  have visible : isBlank c = false := by
    simp only [isBlank, other, decide_false, Bool.or_self]
  rw [readValue.eq_def, skipBlanks_cons visible]
  simp only [List.cons.injEq, other, false_and, imp_self, implies_true, Nat.succ_eq_add_one, read,
    Option.map_some]

structure Line (field : String × String) (entry : Option String × Document) : Prop where
  name : entry.1 = some field.1
  value : Reads field.2 entry.2

variable {field : String × String} {entry : Option String × Document}
  {fields : List (String × String)} {entries : List (Option String × Document)}

def lineText (field : String × String) : String :=
  "  " ++ stringText field.1 ++ ": " ++ field.2

def linesText (fields : List (String × String)) : String :=
  ",\n".intercalate (fields.map lineText) ++ "\n\x7d"

theorem toList_lineText (field : String × String) : (lineText field).toList =
    ' ' :: ' ' :: '"' :: (field.1.toList.flatMap (fun c => (escaped c).toList) ++
      '"' :: ':' :: ' ' :: field.2.toList) := by
  simp [lineText, toList_stringText]

theorem toList_linesText_single (field : String × String) :
    (linesText [field]).toList = (lineText field).toList ++ ['\n', '}'] := by
  simp [linesText]

theorem toList_linesText_cons (field next : String × String) (fields : List (String × String)) :
    (linesText (field :: next :: fields)).toList =
      (lineText field).toList ++ ',' :: '\n' :: (linesText (next :: fields)).toList := by
  simp [linesText]

theorem readFields_blank (depth : Nat) {c : Char} (blank : isBlank c = true) (rest : List Char) :
    readFields depth (c :: rest) = readFields depth rest := by
  rw [readFields.eq_def, readFields.eq_def depth rest, skipBlanks_blank blank]

theorem readFields_line (line : Line field entry) (depth : Nat) (ends : Ends rest) :
    readFields (depth + 1) ((lineText field).toList ++ rest) =
      match skipBlanks rest with
      | ',' :: more => (readFields depth more).map fun (entries, after) => (entry :: entries, after)
      | '}' :: after => some ([entry], after)
      | _ => none := by
  obtain ⟨name, document⟩ := entry
  obtain rfl : name = some field.1 := line.name
  have reads : readValue depth (field.2.toList ++ rest) = some (document, rest) :=
    line.value depth rest ends
  rw [toList_lineText]
  simp only [List.cons_append, List.append_assoc]
  rw [readFields_blank _ rfl, readFields_blank _ rfl, readFields.eq_def,
    skipBlanks_cons (by decide)]
  simp only [readString_escaped, String.ofList_toList, Option.bind_eq_bind, Option.bind_some,
    skipBlanks_cons (show isBlank ':' = false from rfl),
    readValue_blank _ (show isBlank ' ' = true from rfl), reads]
  generalize skipBlanks rest = found
  split
  next more =>
    change _ = (readFields depth more).map _
    cases readFields depth more <;> rfl
  next => rfl
  next => simp only [*]

theorem readFields_lines (lines : List.Forall₂ Line fields entries) (filled : fields ≠ [])
    {depth : Nat} (deep : fields.length ≤ depth) :
    readFields depth (linesText fields).toList = some (entries, []) := by
  induction lines generalizing depth with
  | nil => exact absurd rfl filled
  | @cons field entry fields entries line lines ih =>
    obtain ⟨depth, rfl⟩ := Nat.exists_eq_add_of_lt (Nat.lt_of_lt_of_le (Nat.succ_pos _) deep)
    rw [Nat.zero_add]
    rw [List.length_cons, Nat.zero_add, Nat.add_le_add_iff_right] at deep
    cases lines with
    | nil =>
      rw [toList_linesText_single, readFields_line line depth (.line _)]
      rfl
    | cons next lines =>
      have read := ih (List.cons_ne_nil _ _) deep
      rw [toList_linesText_cons, readFields_line line depth (.comma _),
        skipBlanks_cons (by decide)]
      simp only [readFields_blank _ (show isBlank '\n' = true from rfl), read, Option.map_some]

theorem length_le_linesText (fields : List (String × String)) :
    fields.length ≤ (linesText fields).toList.length := by
  induction fields with
  | nil => exact Nat.zero_le _
  | cons field fields ih =>
    cases fields with
    | nil =>
      rw [toList_linesText_single, List.length_append]
      exact Nat.le_add_left 1 _
    | cons next fields =>
      rw [toList_linesText_cons, List.length_append]
      simp only [List.length_cons] at ih ⊢
      omega

theorem skipBlanks_linesText (filled : fields ≠ []) :
    ∃ rest, skipBlanks (linesText fields).toList = '"' :: rest := by
  match fields, filled with
  | [field], _ =>
    rw [toList_linesText_single, toList_lineText]
    exact ⟨_, rfl⟩
  | field :: next :: fields, _ =>
    rw [toList_linesText_cons, toList_lineText]
    exact ⟨_, rfl⟩

theorem readValue_lines (lines : List.Forall₂ Line fields entries) (filled : fields ≠ [])
    {depth : Nat} (deep : fields.length ≤ depth) :
    readValue (depth + 1) ('{' :: '\n' :: (linesText fields).toList) =
      some (.object entries, []) := by
  have read := readFields_lines lines filled deep
  obtain ⟨rest, opens⟩ := skipBlanks_linesText filled
  rw [readValue.eq_def, skipBlanks_cons (by decide)]
  have newline : isBlank '\n' = true := rfl
  simp [skipBlanks_blank newline, opens, readFields_blank _ newline, read]

theorem ofString?_objectLines (lines : List.Forall₂ Line fields entries) (filled : fields ≠ []) :
    Document.ofString? (objectLines fields) = some (.object entries) := by
  have text : (objectLines fields).toList = '{' :: '\n' :: (linesText fields).toList := by
    simp [objectLines, linesText, lineText, Function.comp_def]
  have room := length_le_linesText fields
  have read := readValue_lines lines filled
    (show fields.length ≤ 2 * ('{' :: '\n' :: (linesText fields).toList).length + 1 by
      simp only [List.length_cons]
      omega)
  simp only [Document.ofString?, text, read]
  rfl

end SandboxBridge.Json

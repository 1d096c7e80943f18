import SandboxBridge.Settings
import SandboxBridge.Proofs.Json

/-!
Settings survive being written and read: the text has every field, and reading it gives the same
settings back unless their level names none.
-/

namespace SandboxBridge

namespace Level

def words : Level → List String
  | .trace => ["trace"]
  | .debug => ["debug"]
  | .info => ["info"]
  | .warn => ["warn", "warning"]
  | .error => ["error", "err"]

/-- The text is a name of the level, each letter of it small or capital. -/
def Names (text : String) (level : Level) : Prop :=
  ∃ word ∈ level.words,
    List.Forall₂ (fun c letter => c = letter ∨ c = letter.toUpper) text.toList word.toList

instance (text : String) : DecidablePred (Names text) := fun level =>
  inferInstanceAs (Decidable (∃ word ∈ level.words, _))

theorem ofWord?_eq_some_iff {word : String} {level : Level} :
    ofWord? word = some level ↔ word ∈ level.words := by
  constructor
  · intro found
    unfold ofWord? at found
    split at found <;> cases found <;> simp [words]
  · cases level <;> simp only [words, List.mem_cons, List.not_mem_nil, or_false] <;> grind [ofWord?]

theorem toNat_toLower (c : Char) : c.toLower.toNat =
    if 65 ≤ c.toNat ∧ c.toNat ≤ 90 then c.toNat + 32 else c.toNat := by
  have bounds : (c.val ≥ 'A'.val ∧ c.val ≤ 'Z'.val) ↔ 65 ≤ c.toNat ∧ c.toNat ≤ 90 := by
    simp only [ge_iff_le, UInt32.le_iff_toNat_le]
    rfl
  unfold Char.toLower
  simp only [bounds]
  split
  next inside =>
    change (c.val + ('a'.val - 'A'.val)).toNat = c.val.toNat + 32
    have := inside.2
    rw [UInt32.toNat_add, Nat.mod_eq_of_lt]
    · rfl
    · change c.val.toNat + 32 < 2 ^ 32
      change c.val.toNat ≤ 90 at this
      omega
  next => rfl

theorem toNat_toUpper (c : Char) : c.toUpper.toNat =
    if 97 ≤ c.toNat ∧ c.toNat ≤ 122 then c.toNat - 32 else c.toNat := by
  have bounds : ('a'.val ≤ c.val ∧ c.val ≤ 'z'.val) ↔ 97 ≤ c.toNat ∧ c.toNat ≤ 122 := by
    simp only [UInt32.le_iff_toNat_le]
    rfl
  unfold Char.toUpper
  simp only [bounds]
  split
  next inside =>
    change (c.val + ('A'.val - 'a'.val)).toNat = c.val.toNat - 32
    rw [UInt32.toNat_add]
    change (c.val.toNat + 4294967264) % 2 ^ 32 = c.val.toNat - 32
    change 97 ≤ c.val.toNat ∧ c.val.toNat ≤ 122 at inside
    omega
  next => rfl

theorem toLower_eq_iff {c letter : Char} (small : letter.isLower = true) :
    c.toLower = letter ↔ c = letter ∨ c = letter.toUpper := by
  have range : 97 ≤ letter.toNat ∧ letter.toNat ≤ 122 :=
    ⟨of_decide_eq_true (Bool.and_eq_true_iff.mp small).1,
      of_decide_eq_true (Bool.and_eq_true_iff.mp small).2⟩
  simp only [← Char.toNat_inj, toNat_toLower, toNat_toUpper, if_pos range]
  split <;> omega

theorem map_toLower_eq_iff {text word : List Char} (small : ∀ c ∈ word, c.isLower = true) :
    text.map Char.toLower = word ↔
      List.Forall₂ (fun c letter => c = letter ∨ c = letter.toUpper) text word := by
  induction word generalizing text with
  | nil => simp
  | cons letter word ih =>
    obtain ⟨first, others⟩ := List.forall_mem_cons.mp small
    cases text with
    | nil => simp
    | cons c text =>
      rw [List.map_cons, List.cons.injEq, List.forall₂_cons, toLower_eq_iff first, ih others]

theorem small_words (level : Level) :
    ∀ word ∈ level.words, ∀ c ∈ word.toList, c.isLower = true := by
  have all : (level.words.all fun word => word.toList.all Char.isLower) = true := by
    cases level <;> rfl
  simpa only [List.all_eq_true] using all

theorem ofString?_eq_some_iff {text : String} {level : Level} :
    ofString? text = some level ↔ level.Names text := by
  have spelt {word : String} (member : word ∈ level.words) : text.map Char.toLower = word ↔
      List.Forall₂ (fun c letter => c = letter ∨ c = letter.toUpper) text.toList word.toList := by
    rw [← String.toList_inj, String.toList_map]
    exact map_toLower_eq_iff (small_words level word member)
  rw [ofString?, ofWord?_eq_some_iff]
  constructor
  · intro member
    exact ⟨_, member, (spelt member).mp rfl⟩
  · rintro ⟨word, member, same⟩
    rwa [(spelt member).mpr same]

example : Level.warn.Names "WarNing" := by decide

instance (text : String) : Decidable (∃ level : Level, level.Names text) :=
  decidable_of_iff ((ofString? text).isSome) (by
    simp only [Option.isSome_iff_exists, ofString?_eq_some_iff])

end Level

namespace Settings

open Json

def document (s : Settings) : Field → Document
  | .importModule => .string (some s.importModule)
  | .maxHandles => s.maxHandles.elim .null fun n => .number (some n.toNat)
  | .asciiFastPath => .bool s.asciiFastPath
  | .logTarget => .string (some s.logTarget)
  | .componentId => s.componentId.elim .null fun id => .string (some id)
  | .minLogLevel => .string (some s.minLogLevel)

def entries (s : Settings) : List (Option String × Document) :=
  Field.all.map fun field => (some field.name, s.document field)

theorem reads_option {α : Type} {text : α → String} {document : α → Document}
    (reads : ∀ value, Reads (text value) (document value)) (value : Option α) :
    Reads (optionText text value) (value.elim .null document) := by
  cases value with
  | none => exact reads_null
  | some value => exact reads value

theorem reads_limit (n : UInt32) : Reads (toString n.toNat) (.number (some n.toNat)) :=
  reads_number (Nat.lt_trans n.toNat_lt (by decide))

theorem ofString?_toJson (s : Settings) :
    Document.ofString? s.toJson = some (.object s.entries) := by
  refine ofString?_objectLines ?_ (List.cons_ne_nil _ _)
  exact .cons ⟨rfl, reads_string _⟩ <| .cons ⟨rfl, reads_option reads_limit _⟩ <|
    .cons ⟨rfl, reads_bool _⟩ <| .cons ⟨rfl, reads_string _⟩ <|
    .cons ⟨rfl, reads_option reads_string _⟩ <| .cons ⟨rfl, reads_string _⟩ .nil

theorem ofName?_name (field : Field) : Field.ofName? field.name = some field := by
  cases field <;> decide

theorem limit?_document (limit : Option UInt32) :
    limit? (limit.elim .null fun n => .number (some n.toNat)) = some limit := by
  cases limit with
  | none => rfl
  | some n => simp [limit?, n.toNat_lt]

theorem optionalText?_document (id : Option String) :
    optionalText? (id.elim .null fun id => .string (some id)) = some id := by
  cases id <;> rfl

theorem setFields?_entries (s start : Settings) : start.setFields? [] s.entries = some s := by
  simp [entries, Field.all, setFields?, ofName?_name, set?, document, text?, flag?,
    limit?_document, optionalText?_document]

/-- Settings that are written and read are the same, if their level has a name, in whatever letters;
otherwise reading refuses them. -/
theorem ofJson_toJson (s : Settings) : ∃ e : Error, e.kind = .configParse ∧
    ofJson s.toJson = if ∃ level : Level, level.Names s.minLogLevel then .ok s else .error e := by
  refine ⟨.badLevel, rfl, ?_⟩
  have read : (Document.ofString? s.toJson).bind ofDocument? = some s := by
    rw [ofString?_toJson]
    exact setFields?_entries s {}
  rw [ofJson, read]
  dsimp only
  unfold threshold
  cases found : Level.ofString? s.minLogLevel with
  | some level =>
    rw [if_pos ⟨level, Level.ofString?_eq_some_iff.mp found⟩]
    rfl
  | none =>
    have nameless : ¬∃ level : Level, level.Names s.minLogLevel := by
      rintro ⟨level, names⟩
      rw [Level.ofString?_eq_some_iff.mpr names] at found
      cases found
    rw [if_neg nameless]
    rfl

end Settings

end SandboxBridge

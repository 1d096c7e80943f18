import Mathlib.Algebra.Group.Nat.Defs

/-!
UTF-8 byte by byte. A lead byte tells how many continuation bytes belong to it, and together they
spell a number. A text is spelled by one sequence for each of its characters, the shortest that
spells its number. Any bytes either spell a text, and only one, or go wrong somewhere after the
spelling of a text, in one of seven ways.
-/

namespace SandboxBridge.Utf8

def Continues (b : UInt8) : Prop :=
  0x80 ≤ b.toNat ∧ b.toNat < 0xC0

/-- How many continuation bytes a lead byte calls for; none if it leads nothing. -/
def owed (lead : UInt8) : Option Nat :=
  if lead.toNat < 0x80 then some 0
  else if lead.toNat < 0xC0 then none
  else if lead.toNat < 0xE0 then some 1
  else if lead.toNat < 0xF0 then some 2
  else if lead.toNat < 0xF8 then some 3
  else none

def mark (count : Nat) : Nat :=
  match count with
  | 0 => 0
  | 1 => 0xC0
  | 2 => 0xE0
  | _ => 0xF0

/-- The number that a sequence spells: each continuation byte has six more binary digits. -/
def spelled (lead : UInt8) (tail : List UInt8) : Nat :=
  tail.foldl (fun n b => n * 64 + (b.toNat - 0x80)) (lead.toNat - mark tail.length)

def needed (n : Nat) : Nat :=
  if n < 0x80 then 0 else if n < 0x800 then 1 else if n < 0x10000 then 2 else 3

/-- A lead byte with all the continuation bytes that it calls for, whatever they spell. -/
structure Sequence (lead : UInt8) (tail : List UInt8) : Prop where
  complete : owed lead = some tail.length
  continues : ∀ b ∈ tail, Continues b

/-- The bytes are the shortest sequences for the characters, one after the other. -/
inductive Spells : List Char → List UInt8 → Prop
  | nil : Spells [] []
  | cons {c : Char} {text : List Char} {lead : UInt8} {tail bytes : List UInt8}
    (sequence : Sequence lead tail) (value : spelled lead tail = c.toNat)
    (shortest : tail.length = needed c.toNat) (rest : Spells text bytes) :
    Spells (c :: text) (lead :: (tail ++ bytes))

/-- The bytes begin with something that spells no character. -/
inductive Malformed : List UInt8 → Prop
  /-- A continuation byte that belongs to no lead byte. -/
  | stray {b : UInt8} {rest : List UInt8} (continues : Continues b) : Malformed (b :: rest)
  /-- A byte that is neither a lead byte nor a continuation byte. -/
  | unknown {b : UInt8} {rest : List UInt8} (high : 0xF8 ≤ b.toNat) : Malformed (b :: rest)
  /-- Another byte stands where a continuation byte should. -/
  | interrupted {lead next : UInt8} {count : Nat} {tail rest : List UInt8}
    (owes : owed lead = some count) (short : tail.length < count)
    (continues : ∀ b ∈ tail, Continues b) (other : ¬Continues next) :
    Malformed (lead :: (tail ++ next :: rest))
  /-- The bytes end where a continuation byte should stand. -/
  | truncated {lead : UInt8} {count : Nat} {tail : List UInt8} (owes : owed lead = some count)
    (short : tail.length < count) (continues : ∀ b ∈ tail, Continues b) :
    Malformed (lead :: tail)
  | overlong {lead : UInt8} {tail rest : List UInt8} (sequence : Sequence lead tail)
    (long : needed (spelled lead tail) < tail.length) : Malformed (lead :: (tail ++ rest))
  | surrogate {lead : UInt8} {tail rest : List UInt8} (sequence : Sequence lead tail)
    (above : 0xD800 ≤ spelled lead tail) (below : spelled lead tail ≤ 0xDFFF) :
    Malformed (lead :: (tail ++ rest))
  /-- The number is past the last character. -/
  | beyond {lead : UInt8} {tail rest : List UInt8} (sequence : Sequence lead tail)
    (above : 0x10FFFF < spelled lead tail) : Malformed (lead :: (tail ++ rest))

variable {lead : UInt8} {tail bytes : List UInt8} {text : List Char} {c : Char} {count : Nat}

theorem owed_eq_some_iff : owed lead = some count ↔
    count = 0 ∧ lead.toNat < 0x80 ∨
    count = 1 ∧ 0xC0 ≤ lead.toNat ∧ lead.toNat < 0xE0 ∨
    count = 2 ∧ 0xE0 ≤ lead.toNat ∧ lead.toNat < 0xF0 ∨
    count = 3 ∧ 0xF0 ≤ lead.toNat ∧ lead.toNat < 0xF8 := by
  unfold owed
  grind

theorem owed_eq_none_iff : owed lead = none ↔ Continues lead ∨ 0xF8 ≤ lead.toNat := by
  unfold owed Continues
  grind

theorem needed_cases (n : Nat) :
    needed n = 0 ∧ n < 0x80 ∨
    needed n = 1 ∧ 0x80 ≤ n ∧ n < 0x800 ∨
    needed n = 2 ∧ 0x800 ≤ n ∧ n < 0x10000 ∨
    needed n = 3 ∧ 0x10000 ≤ n := by
  unfold needed
  grind

theorem Sequence.append_inj {tail' bytes' : List UInt8} (first : Sequence lead tail)
    (second : Sequence lead tail') (same : tail ++ bytes = tail' ++ bytes') :
    tail = tail' ∧ bytes = bytes' :=
  List.append_inj same (Option.some.inj (first.complete.symm.trans second.complete))

theorem toNat_scalar (c : Char) : c.toNat < 0xD800 ∨ 0xDFFF < c.toNat ∧ c.toNat < 0x110000 :=
  c.valid

theorem toNat_byte {n : Nat} (small : n < 256) : (UInt8.ofNat n).toNat = n := by
  rw [UInt8.toNat_ofNat']
  exact Nat.mod_eq_of_lt small

def digits (n : Nat) : Nat → List UInt8
  | 0 => []
  | count + 1 => UInt8.ofNat (0x80 + n / 64 ^ count % 64) :: digits n count

@[simp] theorem length_digits (n count : Nat) : (digits n count).length = count := by
  induction count with
  | zero => rfl
  | succ count ih => simp [digits, ih]

theorem continues_digits (n count : Nat) : ∀ b ∈ digits n count, Continues b := by
  induction count with
  | zero => simp [digits]
  | succ count ih =>
    intro b member
    rcases List.mem_cons.mp member with rfl | later
    · unfold Continues
      rw [toNat_byte (by omega)]
      omega
    · exact ih b later

theorem foldl_digits (n count first : Nat) :
    (digits n count).foldl (fun n b => n * 64 + (b.toNat - 0x80)) first =
      first * 64 ^ count + n % 64 ^ count := by
  induction count generalizing first with
  | zero => simp [digits, Nat.mod_one]
  | succ count ih =>
    rw [digits, List.foldl_cons, ih, toNat_byte (by omega), Nat.add_sub_cancel_left,
      Nat.pow_succ, Nat.mod_mul, Nat.add_mul, Nat.mul_assoc, Nat.mul_comm 64,
      Nat.mul_comm (n / 64 ^ count % 64)]
    omega

theorem exists_foldl_eq (continues : ∀ b ∈ tail, Continues b) (first : Nat) :
    ∃ rest < 64 ^ tail.length, tail.foldl (fun n b => n * 64 + (b.toNat - 0x80)) first =
      first * 64 ^ tail.length + rest := by
  induction tail generalizing first with
  | nil => exact ⟨0, by simp, by simp⟩
  | cons b tail ih =>
    obtain ⟨rest, small, sum⟩ := ih (fun b member => continues b (.tail _ member))
      (first * 64 + (b.toNat - 0x80))
    have digit : b.toNat - 0x80 + 1 ≤ 64 := by
      have bounds := continues b (.head _)
      unfold Continues at bounds
      omega
    have room := Nat.mul_le_mul_right (64 ^ tail.length) digit
    refine ⟨(b.toNat - 0x80) * 64 ^ tail.length + rest, ?_, ?_⟩
    · rw [List.length_cons, Nat.pow_succ]
      rw [Nat.add_mul] at room
      omega
    · rw [List.foldl_cons, sum, List.length_cons, Nat.pow_succ, Nat.add_mul, Nat.mul_assoc,
        Nat.mul_comm 64, Nat.add_assoc]

theorem digits_foldl (continues : ∀ b ∈ tail, Continues b) (first : Nat) :
    digits (tail.foldl (fun n b => n * 64 + (b.toNat - 0x80)) first) tail.length = tail := by
  induction tail generalizing first with
  | nil => rfl
  | cons b tail ih =>
    have later : ∀ b ∈ tail, Continues b := fun b member => continues b (.tail _ member)
    obtain ⟨rest, small, sum⟩ := exists_foldl_eq later (first * 64 + (b.toNat - 0x80))
    have bounds := continues b (.head _)
    unfold Continues at bounds
    have high : (tail.foldl (fun n b => n * 64 + (b.toNat - 0x80))
        (first * 64 + (b.toNat - 0x80))) / 64 ^ tail.length % 64 = b.toNat - 0x80 := by
      rw [sum, Nat.mul_comm, Nat.mul_add_div (Nat.pow_pos (by decide)), Nat.div_eq_of_lt small]
      omega
    rw [List.foldl_cons, List.length_cons, digits, ih later, high, Nat.add_sub_cancel' bounds.1,
      UInt8.ofNat_toNat]

theorem Sequence.eq_digits (sequence : Sequence lead tail) :
    lead = .ofNat (mark tail.length + spelled lead tail / 64 ^ tail.length) ∧
      tail = digits (spelled lead tail) tail.length := by
  obtain ⟨rest, small, sum⟩ := exists_foldl_eq sequence.continues (lead.toNat - mark tail.length)
  have marked : mark tail.length ≤ lead.toNat := by
    rcases owed_eq_some_iff.mp sequence.complete with ⟨count, bounds⟩ | ⟨count, bounds⟩ |
      ⟨count, bounds⟩ | ⟨count, bounds⟩
    all_goals
      rw [count]
      simp only [mark]
      omega
  constructor
  · rw [spelled, sum, Nat.mul_comm, Nat.mul_add_div (Nat.pow_pos (by decide)),
      Nat.div_eq_of_lt small, Nat.add_zero, Nat.add_sub_cancel' marked, UInt8.ofNat_toNat]
  · exact (digits_foldl sequence.continues _).symm

theorem utf8EncodeChar_eq (c : Char) : String.utf8EncodeChar c =
    .ofNat (mark (needed c.toNat) + c.toNat / 64 ^ needed c.toNat) ::
      digits c.toNat (needed c.toNat) := by
  have scalar := toNat_scalar c
  unfold String.utf8EncodeChar
  rw [show c.val.toNat = c.toNat from rfl]
  generalize c.toNat = n at *
  rcases needed_cases n with ⟨count, size⟩ | ⟨count, size⟩ | ⟨count, size⟩ | ⟨count, size⟩
  all_goals
    rw [count]
    simp only [digits, mark]
    grind

theorem exists_sequence (c : Char) : ∃ lead tail,
    Sequence lead tail ∧ spelled lead tail = c.toNat ∧ tail.length = needed c.toNat := by
  have scalar := toNat_scalar c
  generalize c.toNat = n at *
  have leads : mark (needed n) + n / 64 ^ needed n < 256 ∧
      owed (.ofNat (mark (needed n) + n / 64 ^ needed n)) = some (needed n) := by
    rcases needed_cases n with ⟨count, size⟩ | ⟨count, size⟩ | ⟨count, size⟩ | ⟨count, size⟩
    all_goals
      rw [count]
      simp only [mark]
      refine ⟨by omega, owed_eq_some_iff.mpr ?_⟩
      rw [toNat_byte (by omega)]
      omega
  refine ⟨.ofNat (mark (needed n) + n / 64 ^ needed n), digits n (needed n),
    ⟨by rw [length_digits, leads.2], continues_digits n _⟩, ?_, length_digits n _⟩
  rw [spelled, foldl_digits, length_digits, toNat_byte leads.1, Nat.add_sub_cancel_left,
    Nat.div_add_mod']

theorem Sequence.eq_utf8EncodeChar (sequence : Sequence lead tail)
    (value : spelled lead tail = c.toNat) (shortest : tail.length = needed c.toNat) :
    String.utf8EncodeChar c = lead :: tail := by
  obtain ⟨first, later⟩ := sequence.eq_digits
  rw [value, shortest] at first later
  rw [utf8EncodeChar_eq, ← first, ← later]

/-- What spells a text is what the text is stored as. -/
theorem spells_iff : Spells text bytes ↔ text.flatMap String.utf8EncodeChar = bytes := by
  constructor
  · intro spells
    induction spells with
    | nil => rfl
    | cons sequence value shortest rest ih =>
      rw [List.flatMap_cons, ih, sequence.eq_utf8EncodeChar value shortest, List.cons_append]
  · intro stored
    subst stored
    induction text with
    | nil => exact .nil
    | cons c text ih =>
      obtain ⟨lead, tail, sequence, value, shortest⟩ := exists_sequence c
      rw [List.flatMap_cons, sequence.eq_utf8EncodeChar value shortest]
      exact .cons sequence value shortest ih

/-! Either the bytes spell a text or something in them is malformed. -/

theorem continuation_cases (count : Nat) (bytes : List UInt8) :
    (∃ tail rest, bytes = tail ++ rest ∧ tail.length = count ∧ ∀ b ∈ tail, Continues b) ∨
    (∃ tail next rest, bytes = tail ++ next :: rest ∧ tail.length < count ∧
      (∀ b ∈ tail, Continues b) ∧ ¬Continues next) ∨
    (bytes.length < count ∧ ∀ b ∈ bytes, Continues b) := by
  induction count generalizing bytes with
  | zero => exact .inl ⟨[], bytes, rfl, rfl, by simp⟩
  | succ count ih =>
    cases bytes with
    | nil => exact .inr (.inr ⟨by simp, by simp⟩)
    | cons b bytes =>
      by_cases first : Continues b
      · rcases ih bytes with ⟨tail, rest, rfl, full, continues⟩ |
          ⟨tail, next, rest, rfl, short, continues, other⟩ | ⟨short, continues⟩
        · exact .inl ⟨b :: tail, rest, rfl, by simp [full],
          List.forall_mem_cons.mpr ⟨first, continues⟩⟩
        · exact .inr (.inl ⟨b :: tail, next, rest, rfl, by simpa using short,
            List.forall_mem_cons.mpr ⟨first, continues⟩, other⟩)
        · exact .inr (.inr ⟨by simpa using short, List.forall_mem_cons.mpr ⟨first, continues⟩⟩)
      · exact .inr (.inl ⟨[], b, bytes, rfl, by simp, by simp, first⟩)

theorem Sequence.needed_le (sequence : Sequence lead tail) :
    needed (spelled lead tail) ≤ tail.length := by
  obtain ⟨rest, small, sum⟩ := exists_foldl_eq sequence.continues (lead.toNat - mark tail.length)
  change spelled lead tail = _ at sum
  rcases owed_eq_some_iff.mp sequence.complete with ⟨count, bounds⟩ | ⟨count, bounds⟩ |
    ⟨count, bounds⟩ | ⟨count, bounds⟩
  all_goals
    rw [count] at sum small ⊢
    simp only [mark] at sum
    have size := needed_cases (spelled lead tail)
    omega

theorem Sequence.char_or_malformed (sequence : Sequence lead tail) :
    (∃ c : Char, spelled lead tail = c.toNat ∧ tail.length = needed c.toNat) ∨
      ∀ rest, Malformed (lead :: (tail ++ rest)) := by
  by_cases long : needed (spelled lead tail) < tail.length
  · exact .inr fun rest => .overlong sequence long
  by_cases above : 0x10FFFF < spelled lead tail
  · exact .inr fun rest => .beyond sequence above
  by_cases surrogate : 0xD800 ≤ spelled lead tail ∧ spelled lead tail ≤ 0xDFFF
  · exact .inr fun rest => .surrogate sequence surrogate.1 surrogate.2
  have scalar : (spelled lead tail).isValidChar := by
    unfold Nat.isValidChar
    omega
  have value : (Char.ofNat (spelled lead tail)).toNat = spelled lead tail := by
    rw [Char.ofNat, dif_pos scalar]
    rfl
  refine .inl ⟨.ofNat (spelled lead tail), value.symm, ?_⟩
  rw [value]
  have least := sequence.needed_le
  omega

theorem char_or_malformed (lead : UInt8) (bytes : List UInt8) :
    (∃ (c : Char) (tail rest : List UInt8), bytes = tail ++ rest ∧ Sequence lead tail ∧
      spelled lead tail = c.toNat ∧ tail.length = needed c.toNat) ∨
    Malformed (lead :: bytes) := by
  cases owes : owed lead with
  | none =>
    rcases owed_eq_none_iff.mp owes with continues | high
    · exact .inr (.stray continues)
    · exact .inr (.unknown high)
  | some count =>
    rcases continuation_cases count bytes with ⟨tail, rest, rfl, full, continues⟩ |
      ⟨tail, next, rest, rfl, short, continues, other⟩ | ⟨short, continues⟩
    · have sequence : Sequence lead tail := ⟨by rw [owes, full], continues⟩
      rcases sequence.char_or_malformed with ⟨c, value, shortest⟩ | malformed
      · exact .inl ⟨c, tail, rest, rfl, sequence, value, shortest⟩
      · exact .inr (malformed rest)
    · exact .inr (.interrupted owes short continues other)
    · exact .inr (.truncated owes short continues)

/-- Bytes spell a text, or they spell one up to where something malformed stands. -/
theorem spells_or_malformed (bytes : List UInt8) :
    (∃ text, Spells text bytes) ∨
      ∃ text front bad, bytes = front ++ bad ∧ Spells text front ∧ Malformed bad := by
  induction total : bytes.length using Nat.strongRecOn generalizing bytes with
  | ind count ih =>
    cases bytes with
    | nil => exact .inl ⟨[], .nil⟩
    | cons lead bytes =>
      rcases char_or_malformed lead bytes with
        ⟨c, tail, rest, rfl, sequence, value, shortest⟩ | malformed
      · have smaller : rest.length < count := by
          rw [← total]
          simp only [List.length_cons, List.length_append]
          omega
        rcases ih rest.length smaller rest rfl with
          ⟨text, spells⟩ | ⟨text, front, bad, rfl, spells, malformed⟩
        · exact .inl ⟨c :: text, .cons sequence value shortest spells⟩
        · exact .inr ⟨c :: text, lead :: (tail ++ front), bad, by simp,
            .cons sequence value shortest spells, malformed⟩
      · exact .inr ⟨[], [], lead :: bytes, rfl, .nil, malformed⟩

theorem Spells.uncons (spells : Spells text (lead :: bytes)) :
    ∃ (c : Char) (tail rest : List UInt8), bytes = tail ++ rest ∧ Sequence lead tail ∧
      spelled lead tail = c.toNat ∧ tail.length = needed c.toNat := by
  cases spells with
  | cons sequence value shortest _ => exact ⟨_, _, _, rfl, sequence, value, shortest⟩

theorem Malformed.not_spells (malformed : Malformed bytes) : ¬Spells text bytes := by
  intro spells
  cases malformed with
  | stray continues =>
    obtain ⟨_, _, _, _, sequence, _⟩ := spells.uncons
    cases (owed_eq_none_iff.mpr (.inl continues)).symm.trans sequence.complete
  | unknown high =>
    obtain ⟨_, _, _, _, sequence, _⟩ := spells.uncons
    cases (owed_eq_none_iff.mpr (.inr high)).symm.trans sequence.complete
  | @interrupted lead next count tail rest owes short continues other =>
    obtain ⟨_, tail', rest', same, sequence, _⟩ := spells.uncons
    have full : count = tail'.length := Option.some.inj (owes.symm.trans sequence.complete)
    have found : (tail' ++ rest')[tail.length]? = some next := by
      rw [← same, List.getElem?_append_right (Nat.le_refl _), Nat.sub_self]
      rfl
    rw [List.getElem?_append_left (by omega)] at found
    exact other (sequence.continues next (List.mem_of_getElem? found))
  | @truncated lead count tail owes short continues =>
    obtain ⟨_, tail', rest', same, sequence, _⟩ := spells.uncons
    have full : count = tail'.length := Option.some.inj (owes.symm.trans sequence.complete)
    have longer : tail.length = tail'.length + rest'.length := by rw [same, List.length_append]
    omega
  | overlong sequence long =>
    obtain ⟨_, _, _, same, other, value, shortest⟩ := spells.uncons
    obtain ⟨rfl, -⟩ := sequence.append_inj other same
    rw [value] at long
    omega
  | surrogate sequence above below =>
    obtain ⟨c, _, _, same, other, value, -⟩ := spells.uncons
    obtain ⟨rfl, -⟩ := sequence.append_inj other same
    have scalar := toNat_scalar c
    omega
  | beyond sequence above =>
    obtain ⟨c, _, _, same, other, value, -⟩ := spells.uncons
    obtain ⟨rfl, -⟩ := sequence.append_inj other same
    have scalar := toNat_scalar c
    omega

theorem Spells.drop {front rest : List UInt8} {whole : List Char} (first : Spells text front)
    (spells : Spells whole (front ++ rest)) : ∃ later, whole = text ++ later ∧ Spells later rest := by
  induction first generalizing whole with
  | nil => exact ⟨whole, rfl, spells⟩
  | @cons c text lead tail bytes sequence value shortest _ ih =>
    rw [List.cons_append, List.append_assoc] at spells
    generalize same : lead :: (tail ++ (bytes ++ rest)) = all at spells
    cases spells with
    | nil => cases same
    | @cons c' text' lead' tail' bytes' sequence' value' shortest' spells =>
      obtain ⟨rfl, after⟩ := List.cons_eq_cons.mp same
      obtain ⟨rfl, rfl⟩ := sequence.append_inj sequence' after
      obtain ⟨later, rfl, last⟩ := ih spells
      obtain rfl : c = c' := Char.ext (UInt32.toNat_inj.mp (value.symm.trans value'))
      exact ⟨later, rfl, last⟩

theorem Malformed.not_spells_append {front bad : List UInt8} {whole : List Char}
    (malformed : Malformed bad) (first : Spells text front) : ¬Spells whole (front ++ bad) := by
  intro spells
  obtain ⟨_, -, rest⟩ := first.drop spells
  exact malformed.not_spells rest

end SandboxBridge.Utf8

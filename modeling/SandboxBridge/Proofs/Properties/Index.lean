import Mathlib.Data.List.Induction
import SandboxBridge.Proofs.Json
import SandboxBridge.Store.Property

/-!
Keys that name the elements of an array. An index is named by its decimal digits and by no other
numeral, unless a plus sign comes first: then any number of zeros may stand before the digits.
-/

namespace SandboxBridge.Store

/-- The keys that name an index. -/
inductive Spelling (n : Nat) : String → Prop
  | digits : Spelling n (toString n)
  | signed (zeros : Nat) :
    Spelling n ("+" ++ String.ofList (List.replicate zeros '0') ++ toString n)

def counted (n : Nat) (c : Char) : Nat :=
  if n < UInt64.size then n * 10 + (c.toNat - '0'.toNat) else n

theorem foldl_counted_of_le {n : Nat} (past : UInt64.size ≤ n) (digits : List Char) :
    digits.foldl counted n = n := by
  induction digits with
  | nil => rfl
  | cons c digits ih => rw [List.foldl_cons, counted, if_neg (Nat.not_lt.mpr past), ih]

theorem le_ofDigitChars (n : Nat) (digits : List Char) : n ≤ Nat.ofDigitChars 10 digits n := by
  induction digits generalizing n with
  | nil => exact Nat.le_refl n
  | cons c digits ih =>
    rw [Nat.ofDigitChars_cons]
    exact Nat.le_trans (by omega) (ih _)

/-- The count stands still only when the value is past 64 bits, too. -/
theorem foldl_counted (n : Nat) (digits : List Char) :
    digits.foldl counted n = Nat.ofDigitChars 10 digits n ∨
      UInt64.size ≤ digits.foldl counted n ∧ UInt64.size ≤ Nat.ofDigitChars 10 digits n := by
  induction digits generalizing n with
  | nil => exact .inl rfl
  | cons c digits ih =>
    by_cases small : n < UInt64.size
    · have step : counted n c = 10 * n + (c.toNat - '0'.toNat) := by
        rw [counted, if_pos small, Nat.mul_comm]
      rw [List.foldl_cons, Nat.ofDigitChars_cons, step]
      exact ih _
    · have past := Nat.le_of_not_lt small
      rw [foldl_counted_of_le past]
      exact .inr ⟨past, Nat.le_trans past (le_ofDigitChars n _)⟩

theorem decimal?_eq_some_iff_value (digits : List Char) (n : Nat) :
    decimal? digits = some n ↔ digits ≠ [] ∧ (∀ c ∈ digits, c.isDigit) ∧
      Nat.ofDigitChars 10 digits 0 = n ∧ n < UInt64.size := by
  have counts : decimal? digits = if digits.isEmpty || !digits.all Char.isDigit then none
      else if digits.foldl counted 0 < UInt64.size then some (digits.foldl counted 0) else none :=
    rfl
  rw [counts]
  split
  next other =>
    refine ⟨nofun, fun ⟨some_digit, all, _⟩ => ?_⟩
    obtain ⟨c, member, bad⟩ : ∃ c ∈ digits, c.isDigit = false := by simpa [some_digit] using other
    exact absurd (all c member) (ne_true_of_eq_false bad)
  next numeral =>
    obtain ⟨some_digit, all⟩ : digits ≠ [] ∧ ∀ c ∈ digits, c.isDigit := by simpa using numeral
    rcases foldl_counted 0 digits with same | ⟨past, high⟩
    · rw [same, Option.ite_none_right_eq_some, Option.some.injEq]
      refine ⟨fun ⟨small, value⟩ => ⟨some_digit, all, value, value ▸ small⟩, ?_⟩
      rintro ⟨-, -, rfl, small⟩
      exact ⟨small, rfl⟩
    · rw [if_neg (Nat.not_lt.mpr past)]
      refine ⟨nofun, ?_⟩
      rintro ⟨-, -, rfl, small⟩
      exact absurd small (Nat.not_lt.mpr high)

theorem ofDigitChars_zeros (zeros n : Nat) :
    Nat.ofDigitChars 10 (List.replicate zeros '0' ++ Nat.toDigits 10 n) 0 = n := by
  induction zeros with
  | zero => exact Nat.ofDigitChars_ten_toDigits
  | succ zeros ih => rwa [List.replicate_succ, List.cons_append, Nat.ofDigitChars_cons]

theorem digitChar_of_isDigit {c : Char} (digit : c.isDigit) :
    c.toNat - '0'.toNat < 10 ∧ (c.toNat - '0'.toNat).digitChar = c := by
  obtain ⟨low, high⟩ := Char.isDigit_iff_toNat.mp digit
  have zero : '0'.toNat = 48 := rfl
  have nine : '9'.toNat = 57 := rfl
  have small : c.toNat - '0'.toNat < 10 := by omega
  refine ⟨small, Char.toNat_inj.mp ?_⟩
  rw [Nat.toNat_digitChar_of_lt_ten small]
  omega

theorem exists_zeros {digits : List Char} (some_digit : digits ≠ [])
    (all : ∀ c ∈ digits, c.isDigit) : ∃ zeros,
      digits = List.replicate zeros '0' ++ Nat.toDigits 10 (Nat.ofDigitChars 10 digits 0) := by
  induction digits using List.reverseRecOn with
  | nil => exact absurd rfl some_digit
  | append_singleton front c ih =>
    obtain ⟨small, last⟩ := digitChar_of_isDigit (all c (by simp))
    have single : Nat.toDigits 10 (c.toNat - '0'.toNat) = [c] := by
      rw [Nat.toDigits_of_lt_base small, last]
    rw [Nat.ofDigitChars_append]
    change ∃ zeros, front ++ [c] = List.replicate zeros '0' ++
      Nat.toDigits 10 (10 * Nat.ofDigitChars 10 front 0 + (c.toNat - '0'.toNat))
    by_cases empty : front = []
    · subst empty
      exact ⟨0, by simpa [Nat.ofDigitChars] using single.symm⟩
    · obtain ⟨zeros, written⟩ := ih empty fun c member => all c (by simp [member])
      rcases Nat.eq_zero_or_pos (Nat.ofDigitChars 10 front 0) with none | positive
      · -- All digits in front are zeros, the one that stood for the value among them.
        rw [none] at written ⊢
        have zero : Nat.toDigits 10 0 = ['0'] := rfl
        refine ⟨zeros + 1, ?_⟩
        rw [Nat.mul_zero, Nat.zero_add, single, written, zero, ← List.replicate_succ']
      · refine ⟨zeros, ?_⟩
        rw [← Nat.toDigits_append_toDigits (by decide) positive small, single, ← List.append_assoc,
          ← written]

theorem decimal?_eq_some_iff (digits : List Char) (n : Nat) : decimal? digits = some n ↔
    n < UInt64.size ∧ ∃ zeros, digits = List.replicate zeros '0' ++ Nat.toDigits 10 n := by
  rw [decimal?_eq_some_iff_value]
  constructor
  · rintro ⟨some_digit, all, rfl, small⟩
    exact ⟨small, exists_zeros some_digit all⟩
  · rintro ⟨small, zeros, rfl⟩
    refine ⟨?_, fun c member => ?_, ofDigitChars_zeros zeros n, small⟩
    · simp [Nat.toDigits_ne_nil]
    · rcases List.mem_append.mp member with zero | digit
      · rw [List.eq_of_mem_replicate zero]
        rfl
      · exact Json.isDigit_of_mem digit

theorem toList_signed (zeros n : Nat) :
    ("+" ++ String.ofList (List.replicate zeros '0') ++ toString n).toList =
      '+' :: (List.replicate zeros '0' ++ Nat.toDigits 10 n) := by
  simp [String.toList_append, Nat.toString_eq_repr]

theorem zeros_of_unsigned {zeros n : Nat}
    (plain : ∀ c rest, List.replicate zeros '0' ++ Nat.toDigits 10 n ≠ '0' :: c :: rest) :
    zeros = 0 := by
  cases zeros with
  | zero => rfl
  | succ zeros =>
    obtain ⟨c, rest, written⟩ : ∃ c rest,
        List.replicate zeros '0' ++ Nat.toDigits 10 n = c :: rest :=
      List.exists_cons_of_ne_nil (by simp [Nat.toDigits_ne_nil])
    exact absurd (by rw [List.replicate_succ, List.cons_append, written]) (plain c rest)

theorem arrayIndex?_eq_some_iff (key : String) (n : Nat) :
    arrayIndex? key = some n ↔ n < UInt64.size ∧ Spelling n key := by
  have digits : (toString n).toList = Nat.toDigits 10 n := by
    rw [Nat.toString_eq_repr, Nat.toList_repr]
  have unsigned : ∀ rest, Nat.toDigits 10 n ≠ '+' :: rest := by
    intro rest written
    have plus : '+' ∈ Nat.toDigits 10 n := written ▸ List.mem_cons_self
    exact absurd (Json.isDigit_of_mem plus) (by decide)
  have leading : ∀ c rest, Nat.toDigits 10 n ≠ '0' :: c :: rest := by
    intro c rest written
    rcases Nat.eq_zero_or_pos n with rfl | positive
    · cases written
    · exact Json.head?_toDigits_ne_zero positive (by rw [written]; rfl)
  constructor
  · intro found
    unfold arrayIndex? at found
    split at found
    next => cases found
    next rest signed =>
      obtain ⟨small, zeros, rfl⟩ := (decimal?_eq_some_iff _ n).mp found
      rw [← toList_signed] at signed
      rw [String.toList_injective signed]
      exact ⟨small, .signed zeros⟩
    -- Zeros in front are only accepted after a sign.
    next list plain _ =>
      obtain ⟨small, zeros, written⟩ := (decimal?_eq_some_iff _ n).mp found
      obtain rfl : zeros = 0 := zeros_of_unsigned fun c rest same => plain c rest (written.trans same)
      rw [List.replicate_zero, List.nil_append, ← digits] at written
      rw [String.toList_injective written]
      exact ⟨small, .digits⟩
  · rintro ⟨small, spelling⟩
    cases spelling with
    | digits =>
      have found := (decimal?_eq_some_iff (Nat.toDigits 10 n) n).mpr ⟨small, 0, rfl⟩
      unfold arrayIndex?
      rw [digits]
      split
      next written => exact absurd written (leading _ _)
      next written => exact absurd written (unsigned _)
      next => exact found
    | signed zeros =>
      unfold arrayIndex?
      rw [toList_signed]
      exact (decimal?_eq_some_iff _ n).mpr ⟨small, zeros, rfl⟩

end SandboxBridge.Store

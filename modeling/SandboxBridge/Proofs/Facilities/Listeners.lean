import Mathlib.Data.List.Basic
import Mathlib.Order.Basic
import SandboxBridge.Proofs.Facilities.Chronicle

/-!
Listeners in the order of their registration. Deeds make a list in which no function stands twice,
and which functions are in it, and in which order, is told by the deeds of its own table and type
alone: a function stands there since the first registration that no removal follows.
-/

namespace SandboxBridge

namespace Deed

variable {table : Nat} {type : String} {history : List Deed} {listeners : List FunctionId}
  {listener other : FunctionId} {index i j : Nat} {d : Deed}

def Concerns (table : Nat) (type : String) : Deed → Prop
  | .listen other name _ | .unlisten other name _ => other = table ∧ name = type
  | .store .. | .remove .. | .clear _ => False

instance (table : Nat) (type : String) : DecidablePred (Concerns table type)
  | .listen .. | .unlisten .. => inferInstanceAs (Decidable (_ ∧ _))
  | .store .. | .remove .. | .clear _ => inferInstanceAs (Decidable False)

/-- The function listens since the deed at an index: it was registered then, has not been removed
after that, and whenever it was registered before, it had been removed in between. -/
structure Since (table : Nat) (type : String) (history : List Deed) (listener : FunctionId)
    (index : Nat) : Prop where
  registered : history[index]? = some (.listen table type listener)
  stays : ∀ later, index < later → history[later]? ≠ some (.unlisten table type listener)
  first : ∀ earlier < index, history[earlier]? = some (.listen table type listener) →
    ∃ between, earlier < between ∧ between < index ∧
      history[between]? = some (.unlisten table type listener)

/-- The functions that listen, each once and in the order in which they began to. -/
structure Registered (table : Nat) (type : String) (history : List Deed)
    (listeners : List FunctionId) : Prop where
  nodup : listeners.Nodup
  mem_iff : ∀ listener, listener ∈ listeners ↔ ∃ index, Since table type history listener index
  ordered : listeners.Pairwise fun first second => ∀ i j, Since table type history first i →
    Since table type history second j → i < j

theorem Since.inside (since : Since table type history listener index) :
    index < history.length :=
  (List.getElem?_eq_some_iff.mp since.registered).1

theorem exists_since (registered : history[index]? = some (.listen table type listener))
    (stays : ∀ later, index < later → history[later]? ≠ some (.unlisten table type listener)) :
    ∃ i, Since table type history listener i := by
  classical
  have some_stays : ∃ i : Nat, history[i]? = some (.listen table type listener) ∧
      ∀ later, i < later → history[later]? ≠ some (.unlisten table type listener) :=
    ⟨index, registered, stays⟩
  obtain ⟨registered, stays⟩ := Nat.find_spec some_stays
  refine ⟨Nat.find some_stays, registered, stays, fun earlier before again => ?_⟩
  -- The earlier registration is followed by a removal, which cannot come after the one that stays.
  have removed := not_and.mp (Nat.find_min some_stays before) again
  push Not at removed
  obtain ⟨between, after, removal⟩ := removed
  refine ⟨between, after, Nat.lt_of_not_le fun late => ?_, removal⟩
  rcases Nat.eq_or_lt_of_le late with same | late
  · rw [← same, registered] at removal
    cases removal
  · exact stays between late removal

theorem getElem?_concat_of_lt (inside : index < history.length) :
    (history ++ [d])[index]? = history[index]? :=
  List.getElem?_append_left inside

theorem getElem?_concat_of_gt (beyond : history.length < index) :
    (history ++ [d])[index]? = none :=
  List.getElem?_eq_none (by rw [List.length_append]; exact beyond)

theorem since_concat_of_lt (inside : index < history.length) :
    Since table type (history ++ [d]) listener index ↔
      Since table type history listener index ∧ d ≠ .unlisten table type listener := by
  have before {k : Nat} (sooner : k < index) : (history ++ [d])[k]? = history[k]? :=
    getElem?_concat_of_lt (sooner.trans inside)
  constructor
  · intro since
    refine ⟨⟨getElem?_concat_of_lt inside ▸ since.registered, fun later after removal => ?_,
      fun earlier sooner again => ?_⟩, ?_⟩
    · have within := (List.getElem?_eq_some_iff.mp removal).1
      exact since.stays later after ((getElem?_concat_of_lt within).trans removal)
    · obtain ⟨between, after, ahead, removal⟩ :=
        since.first earlier sooner ((before sooner).trans again)
      exact ⟨between, after, ahead, (before ahead).symm.trans removal⟩
    · rintro rfl
      exact since.stays history.length inside List.getElem?_concat_length
  · rintro ⟨since, other⟩
    refine ⟨(getElem?_concat_of_lt inside).trans since.registered, fun later after removal => ?_,
      fun earlier sooner again => ?_⟩
    · rcases Nat.lt_trichotomy later history.length with within | rfl | beyond
      · exact since.stays later after ((getElem?_concat_of_lt within).symm.trans removal)
      · exact other (Option.some.inj (List.getElem?_concat_length.symm.trans removal))
      · cases (getElem?_concat_of_gt beyond).symm.trans removal
    · obtain ⟨between, after, ahead, removal⟩ :=
        since.first earlier sooner ((before sooner).symm.trans again)
      exact ⟨between, after, ahead, (before ahead).trans removal⟩

theorem since_concat_length : Since table type (history ++ [d]) listener history.length ↔
    d = .listen table type listener ∧ ∀ i, ¬Since table type history listener i := by
  constructor
  · intro since
    refine ⟨Option.some.inj (List.getElem?_concat_length.symm.trans since.registered),
      fun i before => ?_⟩
    obtain ⟨between, after, ahead, removal⟩ := since.first i before.inside
      ((getElem?_concat_of_lt before.inside).trans before.registered)
    exact before.stays between after ((getElem?_concat_of_lt ahead).symm.trans removal)
  · rintro ⟨rfl, absent⟩
    refine ⟨List.getElem?_concat_length, fun later after => ?_, fun earlier before again => ?_⟩
    · rw [getElem?_concat_of_gt after]
      nofun
    · by_contra kept
      push Not at kept
      obtain ⟨i, since⟩ := exists_since ((getElem?_concat_of_lt before).symm.trans again)
        fun later after removal =>
          have within := (List.getElem?_eq_some_iff.mp removal).1
          kept later after within ((getElem?_concat_of_lt within).trans removal)
      exact absent i since

theorem since_concat : Since table type (history ++ [d]) listener index ↔
    Since table type history listener index ∧ d ≠ .unlisten table type listener ∨
      index = history.length ∧ d = .listen table type listener ∧
        ∀ i, ¬Since table type history listener i := by
  rcases Nat.lt_trichotomy index history.length with inside | rfl | beyond
  · rw [since_concat_of_lt inside]
    simp only [inside.ne, false_and, or_false]
  · rw [since_concat_length]
    have outside : ¬Since table type history listener history.length :=
      fun since => Nat.lt_irrefl _ since.inside
    simp only [outside, false_and, false_or, true_and]
  · refine iff_of_false (fun since => ?_) ?_
    · cases (getElem?_concat_of_gt beyond).symm.trans since.registered
    · rintro (⟨since, -⟩ | ⟨rfl, -⟩)
      · exact Nat.lt_asymm beyond since.inside
      · exact Nat.lt_irrefl _ beyond

theorem since_listen : Since table type (history ++ [.listen table type listener]) other index ↔
    Since table type history other index ∨
      index = history.length ∧ listener = other ∧ ∀ i, ¬Since table type history other i := by
  rw [since_concat]
  simp

theorem since_unlisten : Since table type (history ++ [.unlisten table type listener]) other index ↔
    Since table type history other index ∧ listener ≠ other := by
  rw [since_concat]
  simp

theorem since_apart (apart : ¬d.Concerns table type) :
    Since table type (history ++ [d]) listener index ↔
      Since table type history listener index := by
  rw [since_concat]
  constructor
  · rintro (⟨since, -⟩ | ⟨-, rfl, -⟩)
    · exact since
    · exact absurd ⟨rfl, rfl⟩ apart
  · exact fun since => .inl ⟨since, fun same => apart (same ▸ ⟨rfl, rfl⟩)⟩

/-! Lists. -/

namespace Registered

variable (registered : Registered table type history listeners)
include registered

theorem same (same : ∀ {other index}, Since table type (history ++ [d]) other index ↔
    Since table type history other index) : Registered table type (history ++ [d]) listeners where
  nodup := registered.nodup
  mem_iff other := by simp only [same, registered.mem_iff]
  ordered := by simpa only [same] using registered.ordered

theorem listen (new : listener ∉ listeners) : Registered table type
    (history ++ [.listen table type listener]) (listeners ++ [listener]) := by
  have absent (i : Nat) : ¬Since table type history listener i :=
    fun since => new ((registered.mem_iff listener).mpr ⟨i, since⟩)
  have apart {other : FunctionId} (member : other ∈ listeners) : listener ≠ other :=
    fun same => new (same ▸ member)
  refine ⟨?_, fun other => ?_, ?_⟩
  · refine List.nodup_append.mpr ⟨registered.nodup, List.nodup_singleton _, ?_⟩
    simpa using fun other member => (apart member).symm
  · simp only [List.mem_append, List.mem_singleton, since_listen, exists_or, registered.mem_iff,
      exists_eq_left]
    exact or_congr_right ⟨fun same => ⟨same.symm, same ▸ absent⟩, fun both => both.1.symm⟩
  · refine List.pairwise_append.mpr ⟨?_, List.pairwise_singleton _ _, ?_⟩
    · refine registered.ordered.imp_of_mem fun {first second} member other order => ?_
      simpa only [since_listen, apart member, apart other, false_and, and_false, or_false]
        using order
    · rintro first member second last i j sinceFirst sinceSecond
      obtain rfl := List.mem_singleton.mp last
      simp only [since_listen, apart member, false_and, and_false, or_false] at sinceFirst
      simp only [since_listen, absent, false_or] at sinceSecond
      exact sinceSecond.1 ▸ sinceFirst.inside

theorem again (member : listener ∈ listeners) : Registered table type
    (history ++ [.listen table type listener]) listeners := by
  refine registered.same fun {other index} => since_listen.trans (or_iff_left ?_)
  rintro ⟨-, rfl, absent⟩
  obtain ⟨i, since⟩ := (registered.mem_iff listener).mp member
  exact absent i since

theorem unlisten : Registered table type (history ++ [.unlisten table type listener])
    (listeners.filter (· ≠ listener)) where
  nodup := registered.nodup.filter _
  mem_iff other := by
    simp only [List.mem_filter, decide_eq_true_eq, since_unlisten, exists_and_right,
      registered.mem_iff, ne_comm]
  ordered := (registered.ordered.filter _).imp fun order i j first second =>
    order i j (since_unlisten.mp first).1 (since_unlisten.mp second).1

theorem concat (d : Deed) :
    Registered table type (history ++ [d]) (d.listeners table type listeners) := by
  cases d with
  | listen other name listener =>
    dsimp only [Deed.listeners]
    by_cases here : other = table ∧ name = type
    · obtain ⟨rfl, rfl⟩ := here
      by_cases member : listener ∈ listeners
      · rw [if_neg fun all => all.2.2 member]
        exact registered.again member
      · rw [if_pos ⟨rfl, rfl, member⟩]
        exact registered.listen member
    · rw [if_neg fun all => here ⟨all.1, all.2.1⟩]
      exact registered.same (since_apart here)
  | unlisten other name listener =>
    dsimp only [Deed.listeners]
    by_cases here : other = table ∧ name = type
    · obtain ⟨rfl, rfl⟩ := here
      rw [if_pos ⟨rfl, rfl⟩]
      exact registered.unlisten
    · rw [if_neg here]
      exact registered.same (since_apart here)
  | _ => exact registered.same (since_apart id)

theorem foldl (later : List Deed) : Registered table type (history ++ later)
    (later.foldl (Deed.listeners table type) listeners) := by
  induction later generalizing history listeners with
  | nil => rwa [List.append_nil]
  | cons d later ih =>
    rw [List.append_cons]
    exact ih (registered.concat d)

end Registered

end Deed

end SandboxBridge

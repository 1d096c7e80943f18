import SandboxBridge.Proofs.Closure.Arguments
import SandboxBridge.Proofs.Closure.Invocation

/-!
A call of a closure from its beginning to its end: what the shim finds, what is made of its answer,
and what comes of the call when it was the last to leave a dropped closure.
-/

namespace SandboxBridge

open Machine Work

theorem HandleTable.Places.nodup_words {t t' : HandleTable} {handles : List Handle}
    {values : List Value} (places : t.Places handles values t') (small : t'.size ≤ UInt32.size) :
    (handles.map fun h => Word.ofNat h.index).Nodup := by
  refine places.nodup.map_on fun h member other member' same => ?_
  have inside {h : Handle} (member : h ∈ handles) : h.index < UInt32.size := by
    obtain ⟨value, found⟩ := places.exists_value member
    exact Nat.lt_of_lt_of_le (index_lt_of_get found) small
  have bits : h.index.toUInt32.toNat = other.index.toUInt32.toNat :=
    congrArg UInt32.toNat (Word.i32.inj same)
  have index : h.index = other.index := by
    simpa [Nat.mod_eq_of_lt (inside member), Nat.mod_eq_of_lt (inside member')] using bits
  cases h
  cases other
  exact congrArg Handle.mk index

namespace Machine

/-- What is made of the answer of a shim. Without a word the result is `undefined`; the first word
names a live handle, whose value is the result and which is released, or else there is none. -/
inductive Receives (m : Machine) :
    Except Error (List Word) → Except Fault Value → Machine → Prop
  | failed (e : Error) : Receives m (.error e) (.error (.trap e)) m
  | nothing : Receives m (.ok []) (.ok .undefined) m
  | taken {word : UInt32} {rest : List Word} {value : Value} {t : HandleTable} {journal : Journal}
    (live : m.table.get (.ofWord word) = .ok value) (formed : t.WellFormed)
    (released : (Handle.ofWord word).isReserved ∧ t = m.table ∨
      (Handle.ofWord word).isReserved = false ∧ m.table.Loses (.ofWord word) t) :
    Receives m (.ok (.i32 word :: rest)) (.ok value) { m with table := t, journal }
  | dead {word : UInt32} {rest : List Word} {e : Error}
    (dead : m.table.isLive (.ofWord word) = false) (refused : m.table.claim (.ofWord word) = .error e) :
    Receives m (.ok (.i32 word :: rest)) (.error (.trap e)) m
  | unfit {word : Word} {rest : List Word} (other : word.toUInt32? = none) :
    Receives m (.ok (word :: rest)) (.error (.trap .expectedI32)) m

end Machine

theorem takeAnswer_receives {m : Machine} (formed : m.table.WellFormed)
    (outcome : Except Error (List Word)) :
    ∃ result m', takeAnswer outcome m = .done result m' ∧ m.Receives outcome result m' := by
  match outcome with
  | .error e => exact ⟨_, m, rfl, .failed e⟩
  | .ok [] => exact ⟨_, m, rfl, .nothing⟩
  | .ok (.i32 word :: rest) =>
    have ran : takeAnswer (.ok (.i32 word :: rest)) m =
        .done (trapped ((take (.ofWord word)).run m).1) ((take (.ofWord word)).run m).2 :=
      Host.run_local (take (.ofWord word)) m
    cases claimed : m.table.claim (.ofWord word) with
    | ok value =>
      have live := HandleTable.claim_ok_iff.mp claimed
      obtain ⟨after, released⟩ := formed.vacate_of_get live
      obtain ⟨journal, taken⟩ := run_take_ok claimed
      rw [taken] at ran
      exact ⟨_, _, ran, .taken live after released⟩
    | error e =>
      rw [run_take_error claimed] at ran
      refine ⟨_, _, ran, .dead ?_ claimed⟩
      by_contra live
      obtain ⟨value, found⟩ := HandleTable.exists_of_isLive (Bool.not_eq_false _ ▸ live)
      rw [HandleTable.claim_ok_iff.mpr found] at claimed
      cases claimed
  | .ok (.i64 _ :: _) | .ok (.f32 _ :: _) | .ok (.f64 _ :: _) => exact ⟨_, m, rfl, .unfit rfl⟩

def Closure.cleaned : Except Fault Value → Except Error (List Word) → Except Fault Value
  | .ok value, .ok _ => .ok value
  | .ok _, .error e => .error (.trap e)
  | .error fault, _ => .error fault

/-- How a call ends that has come to a result: at once, or after the destructor has run on what is
there then, if the host has dropped the closure and no other call of it is under way. -/
inductive Machine.Concludes (index : Nat) (word : UInt32) (result : Except Fault Value)
    (m : Machine) : Task (Except Fault Value) → Prop
  | shared {left : Machine} (others : 1 < (m.closure index).references)
    (table : left.table = m.table) :
    Concludes index word result m (.pass (.left index (some word)) left (.done result left))
  | last {left entry : Machine} {resume : Except Error (List Word) → Machine → _}
    (alone : (m.closure index).references ≤ 1) (table : entry.table = m.table)
    (ends : ∀ outcome m', ∃ journal,
      resume outcome m' = .done (Closure.cleaned result outcome) { m' with journal }) :
    Concludes index word result m (.pass (.left index (some word)) left
      (.call (.exported (.destructor index) (m.closure index).destructor.toNat
        [.i32 word, .i32 (m.closure index).environment]) entry resume))

theorem settleCall_cleaned (result : Except Fault Value) (outcome : Except Error (List Word))
    (m : Machine) : ∃ journal, (settleCall result (outcome.map fun _ => ())).run m =
      .done (Closure.cleaned result outcome) { m with journal } := by
  match result, outcome with
  | .ok value, .ok _ => exact ⟨m.journal, rfl⟩
  | .ok _, .error e => exact ⟨m.journal, rfl⟩
  | .error fault, .ok _ => exact ⟨m.journal, rfl⟩
  | .error fault, .error e => exact ⟨_, rfl⟩

theorem Machine.closure_withClosure {m : Machine} {index : Nat} {c : Closure}
    (environment : c.environment = (m.closure index).environment)
    (destructor : c.destructor = (m.closure index).destructor) :
    ((m.withClosure index c).closure index).environment = (m.closure index).environment ∧
      ((m.withClosure index c).closure index).destructor = (m.closure index).destructor := by
  cases found : m.closures[index]? with
  | some stored =>
    rw [closure_eq (withClosure_own found c)]
    exact ⟨environment, destructor⟩
  | none =>
    have outside : m.closures.size ≤ index := Array.getElem?_eq_none_iff.mp found
    have same : (m.withClosure index c).closures = m.closures :=
      Array.setIfInBounds_eq_of_size_le outside
    have still : (m.withClosure index c).closures[index]? = none := by rw [same, found]
    rw [closure_eq_missing still, closure_eq_missing found]
    exact ⟨rfl, rfl⟩

theorem concludes_destroying {m : Machine} {index : Nat} {left : Closure} (word : UInt32)
    (result : Except Fault Value) (alone : (m.closure index).references ≤ 1)
    (environment : left.environment = (m.closure index).environment)
    (destructor : left.destructor = (m.closure index).destructor) :
    m.Concludes index word result (.pass (.left index (some word)) (m.withClosure index left)
      (((destroyClosure index word).run (m.withClosure index left)).bind fun ended =>
        (settleCall result ended).run)) := by
  obtain ⟨environment, destructor⟩ := closure_withClosure environment destructor
  obtain ⟨entry, ran, table⟩ : ∃ entry, (destroyClosure index word).run (m.withClosure index left) =
      .call (.exported (.destructor index) (m.closure index).destructor.toNat
        [.i32 word, .i32 (m.closure index).environment]) entry
        (fun outcome m => .done (outcome.map fun _ => ()) m) ∧ entry.table = m.table := by
    rw [destroyClosure_eq]
    dsimp only
    rw [environment, destructor]
    exact ⟨_, rfl, rfl⟩
  rw [ran]
  exact .last alone table fun outcome m' => settleCall_cleaned result outcome m'

theorem concludeCall_concludes (index : Nat) (word : UInt32) (result : Except Fault Value)
    (m : Machine) : m.Concludes index word result (concludeCall index (some word) result m) := by
  unfold concludeCall
  rw [leaveClosure_eq]
  by_cases last : (m.closure index).references - 1 = 0
  · have leaves : (m.closure index).leave (some word) = (some word, { m.closure index with
        references := (m.closure index).references - 1, context := .released }) :=
      if_pos last
    rw [leaves]
    exact concludes_destroying word result (by omega) rfl rfl
  · have leaves : (m.closure index).leave (some word) = (none, { m.closure index with
        references := (m.closure index).references - 1, context := .owned word }) :=
      if_neg last
    have others : 1 < (m.closure index).references := by omega
    rw [leaves]
    cases result with
    | ok value => exact .shared others rfl
    | error fault => exact .shared others rfl

/-! A call as a whole. -/

def Closure.shimWords (c : Closure) (word : UInt32) (handles : List Handle) : List Word :=
  .i32 word :: .i32 c.environment :: handles.map fun h => .ofNat h.index

def Machine.lending (m : Machine) (index : Nat) : Machine :=
  m.withClosure index { m.closure index with
    context := .borrowed, references := (m.closure index).references + 1 }

theorem Closure.enter_owned {c : Closure} {word : UInt32} (owned : c.context = .owned word) :
    c.enter = .ok (some word, { c with context := .borrowed, references := c.references + 1 }) := by
  unfold enter
  rw [owned]

namespace Machine

variable {m : Machine} {index : Nat} {word : UInt32}

theorem exists_of_owned (owned : (m.closure index).context = .owned word) :
    m.closures[index]? = some (m.closure index) := by
  cases found : m.closures[index]? with
  | some c => rw [closure_eq found]
  | none =>
    rw [closure_eq_missing found] at owned
    cases owned

theorem closure_lending (owned : (m.closure index).context = .owned word) :
    (m.lending index).closure index = { m.closure index with
      context := .borrowed, references := (m.closure index).references + 1 } :=
  closure_eq (withClosure_own (exists_of_owned owned) _)

theorem invokeClosure_owned (owned : (m.closure index).context = .owned word)
    (args : List Value) : (invokeClosure index args).run m =
      .pass (.entered index (some word)) (m.lending index)
        ((serveClosure index (some word) args).run (m.lending index)) := by
  rw [invokeClosure_eq, Closure.enter_owned owned]
  rfl

theorem invokeClosure_calls {args : List Value} {handles : List Handle} {entry : Machine}
    (owned : (m.closure index).context = .owned word)
    (placed : (allocateAll [] args).run (m.lending index) = (.ok handles, entry)) :
    (invokeClosure index args).run m = .pass (.entered index (some word)) (m.lending index)
      (.call (.exported (.shim index) (m.closure index).invoke.toNat
          ((m.closure index).shimWords word handles)) entry
        fun outcome m => (takeAnswer outcome m).bind (concludeCall index (some word))) := by
  rw [invokeClosure_owned owned, serveClosure_lent_eq, callShim_eq, placed, closure_lending owned]
  rfl

end Machine

/-- A call that finds the context word there, with room for its arguments, calls the shim once. The
arguments are behind fresh handles then, and what was live still denotes what it did. Whatever the
shim answers, and whatever has become of the machine meanwhile, makes the result before the
destructor can run; the destructor can only turn a value into a trap. -/
theorem invokeClosure_serves {m : Machine} {index : Nat} {word : UInt32} {args : List Value}
    (formed : m.table.WellFormed) (owned : (m.closure index).context = .owned word)
    (listed : (m.closure index).invoke.toNat < m.guest.functions)
    (room : m.table.Room args.length) :
    ∃ (handles : List Handle) (t : HandleTable) (journal : Journal)
      (resume : Except Error (List Word) → Machine → Task (Except Fault Value)),
      let words := (m.closure index).shimWords word handles
      let callee : Callee := .exported (.shim index) (m.closure index).invoke.toNat words
      let entry := { m.lending index with table := t, journal }
      (invokeClosure index args).run m =
        .pass (.entered index (some word)) (m.lending index) (.call callee entry resume) ∧
      m.table.Places handles args t ∧ t.WellFormed ∧
      (t.size ≤ UInt32.size → (words.drop 2).Nodup) ∧
      (∀ {γ : Type} (e : Embedding γ) (depth : Nat) (own : γ),
        e.answer (depth + 1) callee entry own =
          (e.exported (m.closure index).invoke.toNat words).run (e.answer depth) entry own) ∧
      ∀ (outcome : Except Error (List Word)) (m' : Machine), m'.table.WellFormed →
        ∃ result m₁, m'.Receives outcome result m₁ ∧
          m₁.Concludes index word result (resume outcome m') := by
  have lent : (m.lending index).table.WellFormed := formed
  obtain ⟨handles, t, journal, allocated, after, places⟩ := run_allocateAll_ok lent room
  refine ⟨handles, t, journal, _, invokeClosure_calls owned allocated, places, after,
    places.nodup_words, fun e depth own => if_pos listed, fun outcome m' formed => ?_⟩
  obtain ⟨result, m₁, answered, receives⟩ := takeAnswer_receives formed outcome
  refine ⟨result, m₁, receives, ?_⟩
  rw [answered]
  exact concludeCall_concludes index word result m₁

/-- A closure is called with two arguments, and its shim answers nothing. -/
theorem invokeClosure_serves_two :
    let m := bare {} (.ofBytes .empty) { functions := 1 } { closures := #[.wrap 7 8 0 0] } ⟨0⟩
    ∃ (handles : List Handle) (entry : Machine)
      (resume : Except Error (List Word) → Machine → Task (Except Fault Value)) (left : Machine),
      (invokeClosure 0 [.null, .bool true]).run m = .pass (.entered 0 (some 7)) (m.lending 0)
        (.call (.exported (.shim 0) 0 (.i32 7 :: .i32 8 :: handles.map fun h => .ofNat h.index))
          entry resume) ∧
      entry.table.live = 2 ∧ handles.map entry.table.get = [.ok .null, .ok (.bool true)] ∧
      resume (.ok []) entry = .pass (.left 0 (some 7)) left (.done (.ok .undefined) left) := by
  intro m
  have formed : m.table.WellFormed := HandleTable.wellFormed_empty none
  have owned : (m.closure 0).context = .owned 7 := rfl
  have listed : (m.closure 0).invoke.toNat < m.guest.functions := by decide
  have room : m.table.Room [Value.null, .bool true].length := nofun
  obtain ⟨handles, t, journal, resume, called, places, after, -, -, served⟩ :=
    invokeClosure_serves formed owned listed room
  have count : handles.length = 2 := by
    have lengths := congrArg List.length places.denotes
    rwa [List.length_map, List.length_map] at lengths
  have live : t.live = 2 := by
    rw [places.live, count]
    rfl
  let entry : Machine := { m.lending 0 with table := t, journal }
  obtain ⟨result, m₁, receives, concludes⟩ := served (.ok []) entry after
  have references : (entry.closure 0).references = 2 := rfl
  cases receives
  generalize ended : resume (.ok []) entry = task at concludes
  cases concludes with
  | shared others table => exact ⟨handles, entry, resume, _, called, live, places.denotes, ended⟩
  | last alone table ends =>
    rw [references] at alone
    exact absurd alone (by decide)

end SandboxBridge

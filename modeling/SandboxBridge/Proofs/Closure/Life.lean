import SandboxBridge.Proofs.Execution

/-!
The life of one closure as its events tell it: what it was made of, which calls of it are under way
and what each of them was lent, whether it was dropped and how often it was destroyed. What the
machine stores of a closure has to agree with this.
-/

namespace SandboxBridge

def Milestone.closure : Milestone → Nat
  | .made closure .. | .entered closure _ | .left closure _ | .dropped closure => closure

def Callee.closure? : Callee → Option Nat
  | .exported (.shim closure) .. | .exported (.destructor closure) .. => some closure
  | _ => none

def Callee.runs (index : Nat) : Callee → Bool
  | .exported (.shim closure) .. => closure = index
  | _ => false

theorem Callee.closure?_of_runs {index : Nat} {callee : Callee} (runs : callee.runs index) :
    callee.closure? = some index := by
  unfold Callee.runs at runs
  split at runs
  · exact congrArg some (of_decide_eq_true runs)
  · cases runs

def Event.closure? : Event → Option Nat
  | .passed milestone => some milestone.closure
  | .called callee | .returned callee => callee.closure?

structure Wrapping where
  word : UInt32
  environment : UInt32
  invoke : UInt32
  destructor : UInt32
  deriving DecidableEq, Repr

def Wrapping.IsOf (w : Wrapping) (c : Closure) : Prop :=
  c.environment = w.environment ∧ c.invoke = w.invoke ∧ c.destructor = w.destructor

structure Life where
  origin : Option Wrapping := none
  /-- What each call under way was lent, the latest call first. -/
  loans : List (Option UInt32) := []
  shims : Nat := 0
  dropped : Bool := false
  /-- Calls of the destructor so far. -/
  destructions : Nat := 0
  deriving DecidableEq, Repr

namespace Life

/-- A life after one more event of its closure. -/
def after (l : Life) : Event → Life
  | .passed (.made _ word environment invoke destructor) =>
    { l with origin := some ⟨word, environment, invoke, destructor⟩ }
  | .passed (.entered _ lent) => { l with loans := lent :: l.loans }
  | .passed (.left _ lent) => { l with loans := l.loans.erase lent }
  | .passed (.dropped _) => { l with dropped := true }
  | .called (.exported (.shim _) ..) => { l with shims := l.shims + 1 }
  | .returned (.exported (.shim _) ..) => { l with shims := l.shims - 1 }
  | .called (.exported (.destructor _) ..) => { l with destructions := l.destructions + 1 }
  | _ => l

@[simp]
theorem after_left (l : Life) (index : Nat) (lent : Option UInt32) :
    l.after (.passed (.left index lent)) = { l with loans := l.loans.erase lent } :=
  rfl

def next (index : Nat) (l : Life) (event : Event) : Life :=
  if event.closure? = some index then l.after event else l

/-- The life that a list of events tells of closure `index`. The latest event comes first. -/
def told (index : Nat) : List Event → Life
  | [] => {}
  | event :: earlier => (told index earlier).next index event

theorem next_other {index : Nat} {l : Life} {event : Event}
    (other : event.closure? ≠ some index) : l.next index event = l :=
  if_neg other

theorem next_own {index : Nat} {l : Life} {event : Event} (own : event.closure? = some index) :
    l.next index event = l.after event :=
  if_pos own

/-- The destructor is due: nothing refers to the closure any more. -/
def Owes (l : Life) : Prop :=
  l.dropped ∧ l.loans = [] ∧ l.destructions = 0

/-- Nothing is due, and the calls under way are those that the shim serves. -/
structure Settled (l : Life) : Prop where
  paid : ¬l.Owes
  served : l.shims = l.loans.length

/-- Which events of its closure can come next. -/
def Allows (l : Life) : Event → Prop
  | .passed (.made ..) => l = {}
  | .passed (.entered ..) => l.destructions = 0
  | .passed (.left _ lent) => l.loans.head? = some lent
  | .passed (.dropped _) => l.dropped = false
  | .called (.exported (.shim _) target args) =>
    ∃ w ∈ l.origin, l.loans = [some w.word] ∧ l.shims = 0 ∧ target = w.invoke.toNat ∧
      ∃ handles, args = .i32 w.word :: .i32 w.environment :: handles
  | .called (.exported (.destructor _) target args) =>
    ∃ w ∈ l.origin, l.Owes ∧ target = w.destructor.toNat ∧
      args = [.i32 w.word, .i32 w.environment]
  | _ => True

def Lent (word : UInt32) (loans : List (Option UInt32)) : Prop :=
  ∃ refused, loans = List.replicate refused none ++ [some word]

/-- What the machine stores of a closure tallies with its life. -/
structure Tallies (l : Life) (w : Wrapping) (c : Closure) : Prop where
  origin : l.origin = some w
  made : w.IsOf c
  alive : c.alive = !l.dropped
  references : c.references = (if c.alive then 1 else 0) + l.loans.length
  context : c.context =
    if c.references = 0 then .released else if l.loans = [] then .owned w.word else .borrowed
  loans : l.loans = [] ∨ Lent w.word l.loans
  shims : l.shims ≤ (l.loans.filter Option.isSome).length
  destructions : l.destructions ≤ if c.references = 0 then 1 else 0

def Agrees (l : Life) : Option Closure → Prop
  | none => l = {}
  | some c => ∃ w, l.Tallies w c

/-- A call may have done anything in between, but has left as many calls under way. -/
structure Resumes (l l' : Life) : Prop where
  origin : l.origin.isSome → l'.origin = l.origin
  loans : l'.loans = l.loans
  shims : l'.shims = l.shims

theorem Resumes.refl (l : Life) : l.Resumes l :=
  ⟨fun _ => rfl, rfl, rfl⟩

theorem Resumes.trans {l₁ l₂ l₃ : Life} (first : l₁.Resumes l₂) (second : l₂.Resumes l₃) :
    l₁.Resumes l₃ where
  origin made := by
    have same := first.origin made
    rw [second.origin (by rwa [same]), same]
  loans := second.loans.trans first.loans
  shims := second.shims.trans first.shims

theorem Lent.start {word : UInt32} {loans : List (Option UInt32)} (idle : loans = []) :
    Lent word (some word :: loans) :=
  ⟨0, by rw [idle, List.replicate_zero, List.nil_append]⟩

theorem Lent.refuse {word : UInt32} {loans : List (Option UInt32)} (lent : Lent word loans) :
    Lent word (none :: loans) := by
  obtain ⟨refused, rfl⟩ := lent
  exact ⟨refused + 1, by rw [List.replicate_succ, List.cons_append]⟩

theorem Lent.ne_nil {word : UInt32} {loans : List (Option UInt32)} (lent : Lent word loans) :
    loans ≠ [] := by
  obtain ⟨refused, rfl⟩ := lent
  simp

namespace Tallies

variable {l : Life} {w : Wrapping} {c : Closure}

theorem references_eq_zero (t : l.Tallies w c) :
    c.references = 0 ↔ l.dropped = true ∧ l.loans = [] := by
  rw [t.references, t.alive, ← List.length_eq_zero_iff]
  cases l.dropped <;> simp

theorem released_iff (t : l.Tallies w c) : c.context = .released ↔ c.references = 0 := by
  rw [t.context]
  split
  next gone => simp [gone]
  next stands => split <;> simp [stands]

theorem mem_loans_iff (t : l.Tallies w c) : some w.word ∈ l.loans ↔ l.loans ≠ [] := by
  constructor
  · exact List.ne_nil_of_mem
  · intro busy
    obtain ⟨refused, loans⟩ := t.loans.resolve_left busy
    simp [loans]

theorem borrowed_iff (t : l.Tallies w c) : c.context = .borrowed ↔ some w.word ∈ l.loans := by
  rw [t.context, t.mem_loans_iff]
  split
  next gone => simp [(t.references_eq_zero.mp gone).2]
  next => split <;> simp [*]

theorem count_loans (t : l.Tallies w c) :
    l.loans.count (some w.word) ≤ 1 ∧ ∀ lent ∈ l.loans, lent = none ∨ lent = some w.word := by
  rcases t.loans with loans | ⟨refused, loans⟩
  · simp [loans]
  · constructor
    · simp [loans, List.count_append, List.count_replicate]
    · intro lent member
      rw [loans, List.mem_append, List.mem_replicate, List.mem_singleton] at member
      exact member.imp_left And.right

theorem shims_le_one (t : l.Tallies w c) : l.shims ≤ 1 := by
  apply Nat.le_trans t.shims
  rcases t.loans with loans | ⟨refused, loans⟩
  · simp [loans]
  · simp [loans, List.filter_append]

theorem owes_iff (t : l.Tallies w c) : l.Owes ↔ c.references = 0 ∧ l.destructions = 0 := by
  rw [t.references_eq_zero, Owes, and_assoc]

theorem destructions_le_one (t : l.Tallies w c) : l.destructions ≤ 1 := by
  have destructions := t.destructions
  split at destructions <;> omega

theorem references_of_destroyed (t : l.Tallies w c) (destroyed : l.destructions ≠ 0) :
    c.references = 0 := by
  apply Decidable.byContradiction
  intro stands
  have destructions := t.destructions
  rw [if_neg stands] at destructions
  exact destroyed (Nat.le_zero.mp destructions)

theorem allows_of_destroyed {index : Nat} {event : Event} (t : l.Tallies w c)
    (destroyed : l.destructions ≠ 0) (own : event.closure? = some index)
    (allowed : l.Allows event) : ∃ callee, event = .returned callee := by
  obtain ⟨gone, idle⟩ := t.references_eq_zero.mp (t.references_of_destroyed destroyed)
  cases event with
  | returned callee => exact ⟨callee, rfl⟩
  | passed milestone =>
    cases milestone with
    | made =>
      have new : l = {} := allowed
      simp [new] at destroyed
    | entered => exact absurd allowed destroyed
    | left closure lent =>
      have latest : l.loans.head? = some lent := allowed
      simp [idle] at latest
    | dropped =>
      have stands : l.dropped = false := allowed
      simp [gone] at stands
  | called callee =>
    cases callee with
    | exported purpose target args =>
      cases purpose with
      | asked => cases own
      | shim =>
        obtain ⟨_, -, busy, -⟩ := allowed
        simp [idle] at busy
      | destructor =>
        obtain ⟨_, -, owes, -⟩ := allowed
        exact absurd owes.2.2 destroyed
    | _ => cases own

theorem wrap (w : Wrapping) :
    Tallies { origin := some w } w (.wrap w.word w.environment w.invoke w.destructor) where
  origin := rfl
  made := ⟨rfl, rfl, rfl⟩
  alive := rfl
  references := rfl
  context := rfl
  loans := .inl rfl
  shims := Nat.le_refl 0
  destructions := Nat.le_refl 0

/-! Entering. -/

theorem enter_gone (t : l.Tallies w c) (gone : c.references = 0) :
    c.enter = .error .invokedAfterDrop := by
  have context := t.context
  rw [if_pos gone] at context
  simp only [Closure.enter, context]

theorem enter_idle (t : l.Tallies w c) (stands : c.references ≠ 0) (idle : l.loans = []) :
    c.enter =
      .ok (some w.word, { c with context := .borrowed, references := c.references + 1 }) := by
  have context := t.context
  rw [if_neg stands, if_pos idle] at context
  simp only [Closure.enter, context]

theorem enter_busy (t : l.Tallies w c) (busy : l.loans ≠ []) :
    c.enter = .ok (none, { c with context := .borrowed, references := c.references + 1 }) := by
  have stands : c.references ≠ 0 := fun gone => busy (t.references_eq_zero.mp gone).2
  have context := t.context
  rw [if_neg stands, if_neg busy] at context
  simp only [Closure.enter, context]

theorem entered (index : Nat) {lent : Option UInt32} (t : l.Tallies w c) (stands : c.references ≠ 0)
    (found : Lent w.word (lent :: l.loans)) :
    (l.after (.passed (.entered index lent))).Tallies w
      { c with context := .borrowed, references := c.references + 1 } where
  origin := t.origin
  made := t.made
  alive := t.alive
  references := by
    simp only [after, List.length_cons, t.references, Nat.add_assoc]
  context := by simp [after]
  loans := .inr found
  shims := Nat.le_trans t.shims
    (((List.sublist_cons_self lent l.loans).filter _).length_le)
  destructions := by
    have := t.destructions
    simpa [stands, after] using this

theorem leave_refused (index : Nat) {earlier : List (Option UInt32)} (t : l.Tallies w c)
    (loans : l.loans = none :: earlier) :
    c.leave none = (none, { c with references := c.references - 1 }) ∧ 1 < c.references ∧
      (l.after (.passed (.left index none))).Tallies w
        { c with references := c.references - 1 } := by
  have busy : l.loans ≠ [] := by simp [loans]
  have lent : Lent w.word earlier := by
    obtain ⟨refused, shape⟩ := t.loans.resolve_left busy
    cases refused with
    | zero => simp [loans] at shape
    | succ refused => exact ⟨refused, by simpa [loans, List.replicate_succ] using shape⟩
  have count := t.references
  have more : 0 < earlier.length := List.length_pos_iff.mpr lent.ne_nil
  rw [loans, List.length_cons] at count
  have stays : c.references - 1 ≠ 0 := by omega
  have stood : c.references ≠ 0 := by omega
  have context := t.context
  have shims := t.shims
  have destructions := t.destructions
  rw [if_neg stood, if_neg busy] at context
  rw [loans] at shims
  rw [if_neg stood] at destructions
  refine ⟨by rw [Closure.leave, if_neg stays], by omega, ?_⟩
  rw [after_left, loans, List.erase_cons_head]
  exact {
    origin := t.origin
    made := t.made
    alive := t.alive
    references := by
      simp only [count]
      omega
    context := by rw [if_neg stays, if_neg lent.ne_nil, context]
    loans := .inr lent
    shims
    destructions := by rwa [if_neg stays] }

theorem loans_eq {lent : UInt32} (t : l.Tallies w c) (latest : l.loans.head? = some (some lent)) :
    l.loans = [some w.word] := by
  rcases t.loans with loans | ⟨refused, loans⟩ <;> rw [loans] at latest ⊢
  · cases latest
  · cases refused with
    | zero => rfl
    | succ refused => cases latest

theorem owes_after_left (index : Nat) (t : l.Tallies w c) (loans : l.loans = [some w.word])
    (gone : l.dropped = true) : (l.after (.passed (.left index (some w.word)))).Owes := by
  have count := t.references
  have fresh := t.destructions
  rw [loans, List.length_singleton] at count
  rw [if_neg (by omega), Nat.le_zero] at fresh
  refine ⟨gone, ?_, fresh⟩
  rw [after_left, loans, List.erase_cons_head]

theorem leave_lent (index : Nat) (t : l.Tallies w c) (loans : l.loans = [some w.word])
    (quiet : l.shims = 0) :
    ∃ left, c.leave (some w.word) = (if l.dropped then some w.word else none, left) ∧
      c.references = left.references + 1 ∧
      (l.after (.passed (.left index (some w.word)))).Tallies w left := by
  have count := t.references
  have alive := t.alive
  have destructions := t.destructions
  rw [loans, List.length_singleton] at count
  rw [if_neg (by omega)] at destructions
  rw [after_left, loans, List.erase_cons_head]
  cases gone : l.dropped with
  | true =>
    rw [gone, Bool.not_true] at alive
    rw [alive, if_neg Bool.false_ne_true] at count
    refine ⟨{ c with references := 0, context := .released }, ?_, by simp only [count], ?_⟩
    · simp [Closure.leave, count]
    · exact {
        origin := t.origin
        made := t.made
        alive
        references := by simp [alive]
        context := rfl
        loans := .inl rfl
        shims := Nat.le_of_eq quiet
        destructions := Nat.le_trans destructions (Nat.zero_le _) }
  | false =>
    rw [gone, Bool.not_false] at alive
    rw [alive, if_pos rfl] at count
    refine ⟨{ c with references := 1, context := .owned w.word }, ?_, count, ?_⟩
    · simp [Closure.leave, count]
    · exact {
        origin := t.origin
        made := t.made
        alive
        references := by simp [alive]
        context := rfl
        loans := .inl rfl
        shims := Nat.le_of_eq quiet
        destructions }

theorem drop_again (t : l.Tallies w c) (gone : l.dropped = true) :
    c.drop = (.error .droppedTwice, c) := by
  simp [Closure.drop, t.alive, gone]

theorem drop_first (index : Nat) (t : l.Tallies w c) (stands : l.dropped = false) :
    ∃ dropped,
      c.drop =
        (.ok (if l.loans = [] then .destroy w.word else .deferred l.loans.length), dropped) ∧
      c.references = dropped.references + 1 ∧
      (l.after (.passed (.dropped index))).Tallies w dropped := by
  have alive : c.alive = true := by rw [t.alive, stands]; rfl
  have count := t.references
  rw [alive, if_pos rfl] at count
  have context := t.context
  have destructions := t.destructions
  rw [if_neg (by omega)] at context destructions
  by_cases idle : l.loans = []
  · rw [if_pos idle] at context ⊢
    rw [idle, List.length_nil] at count
    refine ⟨{ c with alive := false, references := 0, context := .released }, ?_, count, ?_⟩
    · simp [Closure.drop, alive, count, context]
    · exact {
        origin := t.origin
        made := t.made
        alive := rfl
        references := by simp [after, idle]
        context := rfl
        loans := t.loans
        shims := t.shims
        destructions := Nat.le_trans destructions (Nat.zero_le _) }
  · rw [if_neg idle] at context ⊢
    have more : 0 < l.loans.length := List.length_pos_iff.mpr idle
    have rest : c.references - 1 = l.loans.length := by omega
    refine ⟨{ c with alive := false, references := l.loans.length }, ?_, by simp only; omega, ?_⟩
    · simp only [Closure.drop, alive, rest]
      rw [if_neg (by decide), if_neg (by omega)]
    · exact {
        origin := t.origin
        made := t.made
        alive := rfl
        references := by simp [after]
        context := by simp [after, idle, context]
        loans := t.loans
        shims := t.shims
        destructions := Nat.le_trans destructions (Nat.zero_le _) }

theorem drop_finds_context (t : l.Tallies w c) : c.drop.1 ≠ .error .contextMissing := by
  cases gone : l.dropped with
  | true =>
    rw [t.drop_again gone]
    simp [Error.droppedTwice, Error.contextMissing]
  | false =>
    obtain ⟨dropped, found, -⟩ := t.drop_first 0 gone
    rw [found]
    exact nofun

end Tallies

namespace Agrees

variable {l : Life} {index : Nat} {callee : Callee} {stored : Option Closure}

theorem tallies {w : Wrapping} (agrees : l.Agrees stored) (made : l.origin = some w) :
    ∃ c, stored = some c ∧ l.Tallies w c := by
  cases stored with
  | none => simp [show l = {} from agrees] at made
  | some c =>
    obtain ⟨w', t⟩ := agrees
    obtain rfl : w' = w := Option.some.inj (t.origin.symm.trans made)
    exact ⟨c, rfl, t⟩

theorem called (agrees : l.Agrees stored)
    (allowed : callee.closure? = some index → l.Allows (.called callee)) :
    (l.next index (.called callee)).Agrees stored := by
  by_cases own : (Event.called callee).closure? = some index
  · rw [next_own own]
    have allowed := allowed own
    cases callee with
    | exported purpose target args =>
      cases purpose with
      | asked => exact agrees
      | shim closure =>
        obtain ⟨w, origin, loans, quiet, -⟩ := allowed
        obtain ⟨c, rfl, t⟩ := agrees.tallies origin
        refine ⟨w, { t with shims := ?_ }⟩
        simp [after, loans, quiet]
      | destructor closure =>
        obtain ⟨w, origin, owes, -⟩ := allowed
        obtain ⟨c, rfl, t⟩ := agrees.tallies origin
        obtain ⟨gone, first⟩ := t.owes_iff.mp owes
        refine ⟨w, { t with destructions := ?_ }⟩
        simp [after, gone, first]
    | _ => exact agrees
  · rw [next_other own]
    exact agrees

theorem returned (agrees : l.Agrees stored) (index : Nat) (callee : Callee) :
    (l.next index (.returned callee)).Agrees stored := by
  by_cases own : (Event.returned callee).closure? = some index
  · rw [next_own own]
    cases callee with
    | exported purpose target args =>
      cases purpose with
      | shim closure =>
        cases stored with
        | none =>
          have new : l = {} := agrees
          subst new
          rfl
        | some c =>
          obtain ⟨w, t⟩ := agrees
          exact ⟨w, { t with shims := Nat.le_trans (Nat.sub_le _ _) t.shims }⟩
      | _ => exact agrees
    | _ => exact agrees
  · rw [next_other own]
    exact agrees

end Agrees

end Life

end SandboxBridge

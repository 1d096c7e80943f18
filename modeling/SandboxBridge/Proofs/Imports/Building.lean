import SandboxBridge.Adapter
import SandboxBridge.Proofs.Imports.Registration
import SandboxBridge.Proofs.Task

/-!
Registries that are built. Whatever is asked of a builder, it makes a registry exactly if no pair of
names has been added twice, and the registry and its clones then run what was added under a pair,
and nothing else.
-/

namespace SandboxBridge

open Machine

inductive BuilderCall where
  | add (module function : String) (handler : Handler)
  | imports (module : String)
  | named (name : String)

namespace BuilderCall

def perform (b : RegistryBuilder Handler) : BuilderCall → RegistryBuilder Handler
  | .add module function handler => b.add module function handler
  | .imports module => b.install module
  | .named name => b.named name

def additions : BuilderCall → List (String × String × Handler)
  | .add module function handler => [(module, function, handler)]
  | .imports module => Import.additions module
  | .named _ => []

end BuilderCall

def RegistryBuilder.after (calls : List BuilderCall) : RegistryBuilder Handler :=
  calls.foldl BuilderCall.perform {}

namespace Registry

/-- A registry, a clone of it, a clone of that, and so on. -/
inductive Copies (r : Registry Handler) : Registry Handler → Prop
  | itself : r.Copies r
  | clone {copy : Registry Handler} (copies : r.Copies copy) : r.Copies copy.clone

/-- A function that is called is the handler under its names. Code of the embedder is run on the
arguments of the call, whatever it is called on, and an import of a bridge is run on one. -/
structure Runs (r : Registry Handler) (module function : String) (handler : Handler) : Prop where
  found : r.find? module function = some handler
  hosted : ∀ key, handler = .hosted key → ∀ args,
    (∀ {m : Type → Type} [Monad m] (note : Level → String → m Unit)
      (code : Nat → List Word → ExceptT Error m (List Word)),
      r.call note (Handler.runElsewhere code args) module function = do
        note .trace s!"import {Registry.key module function}"
        code key args) ∧
    ∀ m : Machine, ∃ journal, (r.callOn module function args).run m =
      .call (.imported key args) { m with journal } .done
  adapter : ∀ i, handler = .adapter i → ∀ args,
    (∀ {m : Type → Type} [Monad m] (note : Level → String → m Unit)
      (code : Nat → List Word → ExceptT Error m (List Word)),
      r.call note (Handler.runElsewhere code args) module function = do
        note .trace s!"import {Registry.key module function}"
        throw .noBridge) ∧
    ∀ m : Machine, ∃ journal, (r.callOn module function args).run m =
      (Adapter.run args i).run { m with journal }

/-- A function that is called is not found, whatever it is called on. -/
structure Lacks (r : Registry Handler) (module function : String) : Prop where
  absent : r.find? module function = none
  called : ∀ {m : Type → Type} [Monad m] (note : Level → String → m Unit)
    (run : Handler → ExceptT Error m (List Word)), r.call note run module function = do
      note .debug s!"import {Registry.key module function} is not registered"
      throw .unknownImport
  calledOn : ∀ args (m : Machine), ∃ journal,
    (r.callOn module function args).run m = .done (.error .unknownImport) { m with journal }
  kind : Error.unknownImport.kind = .importNotFound

/-- The functions of a registry are the additions and no others. -/
structure Serves (r : Registry Handler) (additions : List (String × String × Handler)) : Prop where
  runs : ∀ module function handler, (module, function, handler) ∈ additions →
    r.Runs module function handler
  lacks : ∀ module function, (module, function) ∉ additions.map pairOf → r.Lacks module function
  nodup_functions : ∀ module, (r.functions module).Nodup
  mem_functions : ∀ module function,
    function ∈ r.functions module ↔ (module, function) ∈ additions.map pairOf

variable {r copy : Registry Handler} {module function : String} {handler : Handler}

theorem runs_of_find? (found : r.find? module function = some handler) :
    r.Runs module function handler := by
  have calls {m : Type → Type} [Monad m] (note : Level → String → m Unit)
      (run : Handler → ExceptT Error m (List Word)) : r.call note run module function = (do
        note .trace s!"import {Registry.key module function}"
        run handler) := by
    unfold call
    rw [found]
  refine ⟨found, ?_, ?_⟩
  · rintro key rfl args
    refine ⟨fun note code => calls note _, fun m => ⟨m.journal.note .trace LogTarget.registry
      s!"import {Registry.key module function}", ?_⟩⟩
    rw [callOn, calls]
    rfl
  · rintro i rfl args
    refine ⟨fun note code => calls note _, fun m => ⟨m.journal.note .trace LogTarget.registry
      s!"import {Registry.key module function}", ?_⟩⟩
    rw [callOn, calls]
    rfl

theorem lacks_of_find? (absent : r.find? module function = none) : r.Lacks module function := by
  have misses {m : Type → Type} [Monad m] (note : Level → String → m Unit)
      (run : Handler → ExceptT Error m (List Word)) : r.call note run module function = (do
        note .debug s!"import {Registry.key module function} is not registered"
        throw .unknownImport) := by
    unfold call
    rw [absent]
  refine ⟨absent, misses, fun args m => ⟨m.journal.note .debug LogTarget.registry
    s!"import {Registry.key module function} is not registered", ?_⟩, rfl⟩
  rw [callOn, misses]
  rfl

theorem Copies.eq (copies : r.Copies copy) (filled : r.Filled) (slot : r.logging = none) :
    copy = r := by
  induction copies with
  | itself => rfl
  | clone _ same => rw [same, clone_eq filled slot]

theorem nodup_functions (r : Registry Handler) (module : String) :
    (r.functions module).Nodup :=
  Dict.nodup_keys _

theorem serves_registerEach {additions : List (String × String × Handler)}
    (nodup : (additions.map pairOf).Nodup) : (empty.registerEach additions).Serves additions := by
  have absent {module function : String} (outside : (module, function) ∉ additions.map pairOf) :
      (empty.registerEach additions).find? module function = none :=
    (find?_registerEach_of_notMem outside).trans (find?_empty ..)
  refine ⟨fun _ _ _ member => runs_of_find? (find?_registerEach_of_nodup nodup member),
    fun _ _ outside => lacks_of_find? (absent outside), nodup_functions _,
    fun module function => ?_⟩
  rw [Registry.mem_functions]
  constructor
  · rintro ⟨handler, finds⟩
    by_contra outside
    rw [absent outside] at finds
    cases finds
  · intro inside
    obtain ⟨handler, member⟩ := mem_pairs.mp inside
    exact ⟨handler, find?_registerEach_of_nodup nodup member⟩

end Registry

namespace RegistryBuilder

theorem functions_install (b : RegistryBuilder Handler) (module : String) :
    (b.install module).functions = b.functions ++ Import.additions module := by
  unfold install Import.additions
  induction Import.all generalizing b with
  | nil => exact (List.append_nil _).symm
  | cons first rest ih =>
    rw [List.foldl_cons, ih, add, List.map_cons, List.append_assoc, List.singleton_append]

theorem functions_perform (b : RegistryBuilder Handler) (call : BuilderCall) :
    (call.perform b).functions = b.functions ++ call.additions := by
  cases call with
  | add module function handler => rfl
  | imports module => exact functions_install b module
  | named name => exact (List.append_nil _).symm

theorem functions_after (calls : List BuilderCall) :
    (after calls).functions = calls.flatMap BuilderCall.additions := by
  have grown (b : RegistryBuilder Handler) : (calls.foldl BuilderCall.perform b).functions =
      b.functions ++ calls.flatMap BuilderCall.additions := by
    induction calls generalizing b with
    | nil => exact (List.append_nil _).symm
    | cons call rest ih =>
      rw [List.foldl_cons, ih, functions_perform, List.flatMap_cons, List.append_assoc]
  exact (grown {}).trans (List.nil_append _)

/-- A builder makes a registry exactly if no pair of names was added twice. The registry, like each
of its copies, serves what was added, and the order of the additions does not matter. -/
theorem build_settled (calls : List BuilderCall) :
    let additions := calls.flatMap BuilderCall.additions
    let pairs := additions.map pairOf
    let built := (after calls).build
    ((∃ e, built = .error e ∧ e.kind = .invalidState) ↔ ∃ pair, 1 < pairs.count pair) ∧
      ((¬∃ pair, 1 < pairs.count pair) →
        ∃ r, built = .ok r ∧ ∀ copy, r.Copies copy → copy.Serves additions) ∧
      ∀ others : List BuilderCall,
        (others.flatMap BuilderCall.additions).Perm additions → (after others).build = built := by
  intro additions pairs built
  have repeats : (∃ pair, 1 < pairs.count pair) ↔ ¬pairs.Nodup := by
    rw [List.nodup_iff_count_le_one]
    simp only [not_forall, Nat.not_le]
  have fresh (l : List (String × String × Handler)) : Fresh .empty l := fun _ _ _ => rfl
  have succeeds {calls : List BuilderCall}
      (nodup : ((calls.flatMap BuilderCall.additions).map pairOf).Nodup) :
      (after calls).build =
        .ok (Registry.empty.registerEach (calls.flatMap BuilderCall.additions)) := by
    rw [build, functions_after]
    exact registerAll_ok nodup (fresh _)
  have fails {calls : List BuilderCall}
      (clash : ¬((calls.flatMap BuilderCall.additions).map pairOf).Nodup) :
      (after calls).build = .error .importedTwice := by
    rw [build, functions_after]
    exact registerAll_error fun both => clash both.1
  refine ⟨?_, fun single => ?_, fun others perm => ?_⟩
  · rw [repeats]
    constructor
    · rintro ⟨e, refused, -⟩ nodup
      rw [show built = _ from succeeds nodup] at refused
      cases refused
    · exact fun clash => ⟨.importedTwice, fails clash, rfl⟩
  · have nodup : pairs.Nodup := by
      by_contra clash
      exact single (repeats.mpr clash)
    refine ⟨_, succeeds nodup, fun copy copies => ?_⟩
    rw [copies.eq (Registry.filled_empty.registerEach _) (Registry.logging_registerEach ..)]
    exact Registry.serves_registerEach nodup
  · by_cases nodup : pairs.Nodup
    · have nodup' : ((others.flatMap BuilderCall.additions).map pairOf).Nodup :=
        (perm.map pairOf).nodup_iff.mpr nodup
      rw [succeeds nodup', show built = _ from succeeds nodup,
        Registry.registerEach_perm Registry.filled_empty perm nodup]
    · have clash : ¬((others.flatMap BuilderCall.additions).map pairOf).Nodup := by
        rwa [(perm.map pairOf).nodup_iff]
      rw [fails clash, show built = _ from fails nodup]

end RegistryBuilder

end SandboxBridge

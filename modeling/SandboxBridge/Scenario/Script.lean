import SandboxBridge.Scenario.MemoryStep

/-!
The language of scenarios: recipes for values, steps, and the code of scripted functions, which is a
list of steps with an ending.
-/

namespace SandboxBridge.Scenario

/-- A number: a literal, a variable, or an argument of the running module function. -/
inductive Operand where
  | literal (n : Nat)
  | variable (name : String)
  | parameter (index : Nat)

/-- How to make a value, where functions have code of type `ν`. -/
inductive Recipe (ν : Type) where
  | undefined
  | null
  | bool (value : Bool)
  | number (value : Float)
  | text (value : String)
  | handle (handle : Operand)
  | variable (name : String)
  | global
  | argument (index : Nat)
  | arguments
  | argumentCount
  | currentReceiver
  | array (items : List (Recipe ν))
  | arrayOfLength (length : Nat)
  | object (classes : List String) (properties : List (String × Recipe ν))
      (elements : List (Recipe ν))
  /-- Arrays of one element around a value. -/
  | nestedArrays (count : Nat) (inner : Recipe ν)
  /-- Objects of one property around a value. -/
  | nestedObjects (key : String) (count : Nat) (inner : Recipe ν)
  | error (name message : String)
  | storage (quota : Nat)
  | eventTarget
  | window (quota : Nat)
  | closure (word environment invoke destructor : Operand)
  | function (name : String) (code : ν)
  deriving Inhabited

inductive WordRecipe where
  | operand (n : Operand)
  | word (w : Word)
  /-- An argument of the running module function, unchanged. -/
  | parameter (index : Nat)
  /-- A string placed in module memory, as its address and length. -/
  | placed (text : String)

inductive Ending (ν : Type) where
  | trap (error : Error)
  | throw (exception : Recipe ν)
  | answer (value : Recipe ν)

/-- A step: an action, a name for what it yields, and for the steps of scripted code a mark that
lets it run once only, and whether the code goes on after a fault. -/
structure Step (α : Type) where
  action : α
  name : Option String := none
  once : Option String := none
  tolerated : Bool := false

inductive Aspect where
  | type
  | display
  | debug
  | description
  | kinds
  deriving DecidableEq, Repr

/-- What to do with an object, where functions have code of type `ν`. -/
inductive ObjectAction (ν : Type) where
  | get (key : String)
  | remove (key : String)
  | element (index : Operand)
  | put (key : String) (value : Recipe ν)
  | keys
  | size
  | setElement (index : Operand) (value : Recipe ν)
  | elements
  | className
  | isInstance (className : String)
  | same (other : Recipe ν)
  | defineMethod (key : String) (code : ν)
  deriving Inhabited

inductive GuardedEnd (ν : Type) where
  | answer (n : Operand)
  | throw (exception : Recipe ν)
  | trap (error : Error)

mutual

inductive Action where
  | callImport (name : String) (args : List WordRecipe)
  | callExport (index : Operand) (args : List WordRecipe)
  | place (data : ByteArray)
  | malloc (size : Operand)
  | realloc (start oldSize newSize : Operand)
  | free (start size : Operand)
  | offersRealloc
  | describeGuest
  | encode (text : String)
  | decode (start length : Operand)
  | writeResult (slot : Operand) (text : Option String)
  | readResult (slot : Operand)
  | allocate (value : Recipe Code)
  | allocateOptional (value : Recipe Code)
  | object (handle : Operand)
  | take (handle : Operand)
  | release (handle : Operand)
  | duplicate (handle : Operand)
  | isLive (handle : Operand)
  | table
  | describeTable
  | describeBridge
  | isPending
  | takePending
  | park (exception : Recipe Code)
  | lastThrow
  | guarded (ending : GuardedEnd Code)
  | setUp
  | isInitialized
  | reset
  | log (level : Level) (text : String)
  | settings
  | hasImport (module name : String)
  | bind (value : Recipe Code)
  | view (value : Recipe Code) (aspects : List Aspect)
  | compare (first second : Recipe Code)
  | onObject (target : Recipe Code) (action : ObjectAction Code)
  | call (target : Recipe Code) (receiver : Recipe Code) (args : List (Recipe Code))
  | method (target : Recipe Code) (name : String) (args : List (Recipe Code))
  | customEvent (type : String) (init : Recipe Code)
  | closure (target : Recipe Code)
  | closureDrop (target : Recipe Code)
  | closureInvoke (target : Recipe Code) (args : List (Recipe Code))
  | memory (step : MemoryStep Operand)

inductive Code where
  | mk (label : String) (body : List (Step Action)) (ending : Ending Code)

end

instance : Inhabited Action := ⟨.reset⟩
instance : Inhabited Code := ⟨.mk "" [] (.answer .undefined)⟩
instance : Inhabited (Step Action) := ⟨⟨.reset, none, none, false⟩⟩

structure ModuleFunction where
  body : List (Step Action)
  trap : Option Error
  results : List WordRecipe

end SandboxBridge.Scenario

import SandboxBridge.Embedding
import SandboxBridge.Scenario.Script

/-!
The stage that a scenario plays on: its variables, what it has kept of the memory, the code of its
host functions, and the steps that such code has run. Recipes are evaluated here.
-/

namespace SandboxBridge.Scenario

structure InnerStep where
  label : String
  index : Nat
  outcome : List (String × Report)

structure Stage where
  numbers : Dict Nat := ∅
  values : Dict Value := ∅
  held : Dict Held := ∅
  /-- Marks of the steps that run once only and have been reached. -/
  marks : List String := []
  code : Array Code := #[]
  inner : Array InnerStep := #[]
  deriving Inhabited

structure Frame where
  words : List Word := []
  args : List Value := []
  receiver : Value := .undefined

/-- Scripted code, which may end in a fault. -/
abbrev Scene (α : Type) :=
  ExceptT Fault (Play Stage) α

namespace Scene

def ask (request : Request) : Scene request.Answer :=
  ExceptT.lift (Play.request request)

def machine : Scene Machine :=
  ExceptT.lift Play.machine

def store : Scene Store :=
  return (← machine).store

def orTrap {α : Type} (result : Except Error α) : Scene α :=
  .mk (pure (trapped result))

def orFault {α : Type} (result : Except Fault α) : Scene α :=
  .mk (pure result)

def askMemory (access : Memory.Access) : Scene access.Answer := do
  orTrap (← ask (.memory access))

def desk : Desk (ExceptT Fault (Play Stage)) :=
  ⟨askMemory, return (← machine).memory⟩

def make (edit : Store.Edit) : Scene Value := do
  return (← ask (.store edit)).getD .undefined

def change (edit : Store.Edit) : Scene Unit := do
  let _ ← ask (.store edit)

end Scene

open Scene

namespace Operand

def evaluate (frame : Frame) (stage : Stage) : Operand → Nat
  | .literal n => n
  | .variable name => (stage.numbers.get? name).getD 0
  | .parameter index => ((frame.words[index]?.bind Word.toUInt32?).map UInt32.toNat).getD 0

def value (frame : Frame) (n : Operand) : Scene Nat :=
  return n.evaluate frame (← get)

def handle (frame : Frame) (n : Operand) : Scene Handle :=
  return ⟨← n.value frame⟩

def word (frame : Frame) (n : Operand) : Scene UInt32 :=
  return (← n.value frame).toUInt32

end Operand

def newFunction (name : String) (code : Code) : Scene Value := do
  let key := (← get).code.size
  modify fun stage => { stage with code := stage.code.push code }
  make (.newHosted name key)

def nest (wrap : Value → Scene Value) : Nat → Value → Scene Value
  | 0, value => return value
  | count + 1, value => do nest wrap count (← wrap value)

def wrapInObject (key : String) (value : Value) : Scene Value := do
  let outer ← make (.newObject ["Object"])
  if let .object id := outer then
    change (.put id key value)
  return outer

mutual

def Recipe.evaluate (frame : Frame) (recipe : Recipe Code) : Scene Value := do
  match recipe with
  | .undefined => return .undefined
  | .null => return .null
  | .bool b => return .bool b
  | .number x => return .number x
  | .text s => return .string s
  | .handle n => orTrap ((← machine).table.get (← n.handle frame))
  | .variable name => return ((← get).values.get? name).getD .undefined
  | .global => return .object (← machine).global
  | .argument index => return frame.args.getD index .undefined
  | .arguments => make (.newArray frame.args)
  | .argumentCount => return .number (Float.ofNat frame.args.length)
  | .currentReceiver => return frame.receiver
  | .array items => make (.newArray (← evaluateItems frame items))
  | .arrayOfLength length => make (.newArray (.replicate length .undefined))
  | .object classes properties elements =>
    let made ← make (.newObject classes)
    if let .object id := made then
      evaluateProperties frame id properties
      let elements ← evaluateItems frame elements
      for (element, index) in elements.zipIdx do
        change (.setElement id (.ofUInt32 index.toUInt32) element)
    return made
  | .nestedArrays count inner =>
    nest (fun value => make (.newArray [value])) count (← inner.evaluate frame)
  | .nestedObjects key count inner => nest (wrapInObject key) count (← inner.evaluate frame)
  | .error name message => make (.newError name message)
  | .storage quota => make (.newStorage quota)
  | .eventTarget => make .newEventTarget
  | .window quota => make (.newWindow quota)
  | .closure word environment invoke destructor =>
    return .function (← ask (.newClosure (← word.word frame) (← environment.word frame)
      (← invoke.word frame) (← destructor.word frame)))
  | .function name code => newFunction name code

def evaluateItems (frame : Frame) (recipes : List (Recipe Code)) : Scene (List Value) := do
  match recipes with
  | [] => return []
  | recipe :: rest => do
    let value ← recipe.evaluate frame
    return value :: (← evaluateItems frame rest)

def evaluateProperties (frame : Frame) (id : ObjectId) (recipes : List (String × Recipe Code)) :
    Scene Unit := do
  match recipes with
  | [] => return ()
  | (key, recipe) :: rest => do
    let value ← recipe.evaluate frame
    change (.put id key value)
    evaluateProperties frame id rest

end

def evaluateWords (frame : Frame) : List WordRecipe → Scene (List Word)
  | [] => return []
  | .operand n :: rest => do
    let word ← n.word frame
    return .i32 word :: (← evaluateWords frame rest)
  | .word w :: rest => return w :: (← evaluateWords frame rest)
  | .parameter index :: rest => do
    return frame.words[index]?.toList ++ (← evaluateWords frame rest)
  | .placed text :: rest => do
    let (start, length) ← orTrap (← ask (.place text.toUTF8))
    return .ofNat start :: .ofNat length :: (← evaluateWords frame rest)

end SandboxBridge.Scenario

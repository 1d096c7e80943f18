import SandboxBridge.Store.Facilities

/-!
What an embedder can do to the store on its own account: make values and change objects. Listener
lists, stored items and closure states are beyond its reach.
-/

namespace SandboxBridge.Store

inductive Edit where
  | newObject (classes : List String)
  | newArray (elements : List Value)
  | newError (name message : String)
  /-- A function of the embedder, known to it by `key`. -/
  | newHosted (name : String) (key : Nat)
  | newStorage (quota : Nat)
  | newEventTarget
  | newWindow (quota : Nat)
  | put (id : ObjectId) (key : String) (value : Value)
  | erase (id : ObjectId) (key : String)
  | setElement (id : ObjectId) (index : Position) (value : Value)

namespace Edit

def perform : Edit → Build (Option Value)
  | .newObject classes => do return some (.object (← Store.newObject { classes }))
  | .newArray elements => do return some (.object (← Store.newArray elements.toArray))
  | .newError name message => do return some (← Store.newError name message)
  | .newHosted name key => do return some (.function (← newNative name (.hosted key)))
  | .newStorage quota => do return some (.object (← Store.newStorage quota))
  | .newEventTarget => do return some (.object (← Store.newEventTarget))
  | .newWindow quota => do return some (.object (← Store.newWindow quota))
  | .put id key value => do
    modify (·.put id key value)
    return none
  | .erase id key =>
    modifyGet fun s => ((s.object id).get? key, s.modifyObject id (·.erase key))
  | .setElement id index value => do
    modify (·.setElement id index value)
    return none

end Edit

end SandboxBridge.Store

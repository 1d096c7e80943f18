import SandboxBridge.Scenario.Conduct
import SandboxBridge.Scenario.Stage

/-!
Running the steps of a scenario: each action asks the bridge for what it needs and yields a report.
-/

namespace SandboxBridge.Scenario

open Scene

def yieldValue (value : Value) : Scene Yield := do
  return { report := .value (← store) value, value := some value }

def yieldHandle (handle : Handle) : Yield :=
  .ofNumber handle.index

def yieldWords (words : List Word) : Yield :=
  { report := .words words, number := (words.head?.bind Word.toUInt32?).map UInt32.toNat }

def kindsReport (s : Store) (value : Value) : Report :=
  .fields [
    ("undefined", .flag value.isUndefined),
    ("null", .flag value.isNull),
    ("nullish", .flag value.isNullish),
    ("str", .option .text value.asString?),
    ("number", .option .float value.asNumber?),
    ("bool", .option .flag value.asBool?),
    ("object", .flag value.asObject?.isSome),
    ("function", .flag value.asFunction?.isSome),
    ("name", .option .text (value.asFunction?.bind s.functionName?))]

def aspectReport (s : Store) (value : Value) : Aspect → String × Report
  | .type => ("type", .text value.typeName)
  | .display => ("display", .text ((s.display? value).getD ""))
  | .debug => ("debug", .text ((s.render? value).getD ""))
  | .description => ("fmt", .text (s.describe value))
  | .kinds => ("is", kindsReport s value)

def settingsReport (settings : Settings) (threshold : Except Error Level) : Report :=
  .fields [
    ("import_module", .text settings.importModule),
    ("max_handles", .option (fun n => .count n.toNat) settings.maxHandles),
    ("ascii_fast_path", .flag settings.asciiFastPath),
    ("log_target", .text settings.logTarget),
    ("component_id", .option .text settings.componentId),
    ("min_log_level", .text settings.minLogLevel),
    ("threshold", match threshold with
      | .ok level => .text level.name
      | .error e => .fields (Report.error e))]

def tableReport (t : HandleTable) : Report :=
  .fields [
    ("len", .count t.size), ("live", .count t.live),
    ("free", .list (t.freeHandles.map fun handle => .count handle.index))]

def closureReport (c : Closure) : Report :=
  let context := match c.context with
    | .owned word => Report.fields [("owned", .count word.toNat)]
    | .borrowed => .text "borrowed"
    | .released => .text "released"
  .list [context, .count c.references, .flag c.isReleased]

def asFunction (value : Value) : Scene FunctionId :=
  match value with
  | .function id => return id
  | _ => throw (.trap ⟨.typeMismatch, "driver: not a function"⟩)

def asObject (value : Value) : Scene ObjectId :=
  match value with
  | .object id => return id
  | _ => throw (.trap ⟨.typeMismatch, "driver: not an object"⟩)

def asClosure (value : Value) : Scene Nat :=
  match value with
  | .function (.closure index) => return index
  | _ => throw (.trap ⟨.typeMismatch, "driver: not a closure"⟩)

def yieldOption : Option Value → Scene Yield
  | none => return .only (.text "none")
  | some value => yieldValue value

def performOnObject (frame : Frame) (target : Value) : ObjectAction Code → Scene Yield
  | .get key => do
    let o := (← store).object (← asObject target)
    yieldOption (o.get? key)
  | .remove key => do
    let id ← asObject target
    yieldOption (← ask (.store (.erase id key)))
  | .element index => do
    let o := (← store).object (← asObject target)
    yieldOption o.elements[(← index.value frame)]?
  | .put key value => do
    let id ← asObject target
    change (.put id key (← value.evaluate frame))
    return .done
  | .keys => do
    let o := (← store).object (← asObject target)
    return .only (.list (o.properties.keys.map .text))
  | .size => do
    let o := (← store).object (← asObject target)
    return .only (.list [.count o.elements.size, .flag o.elements.isEmpty])
  | .setElement index value => do
    let id ← asObject target
    let index := Position.ofUInt32 (← index.word frame)
    change (.setElement id index (← value.evaluate frame))
    return .done
  | .elements => do
    let s ← store
    let o := s.object (← asObject target)
    return .only (.list (o.elements.toList.map (.value s)))
  | .className => do
    let o := (← store).object (← asObject target)
    return .only (.list [.text o.className, .flag o.isArray])
  | .isInstance className => do
    let o := (← store).object (← asObject target)
    return .only (.flag (o.isInstanceOf className))
  | .same other => do
    let id ← asObject target
    let same := Report.flag ((← asObject (← other.evaluate frame)) == id)
    return .only (.list [same, same])
  | .defineMethod key code => do
    let id ← asObject target
    let f ← newFunction key code
    change (.put id key f)
    return .done

def Action.perform (frame : Frame) : Action → Scene Yield
  | .callImport name args => do
    let args ← evaluateWords frame args
    return yieldWords (← orTrap (← ask (.callImport name args)))
  | .callExport index args => do
    let index ← index.value frame
    let args ← evaluateWords frame args
    return yieldWords (← orTrap (← ask (.callExport index args)))
  | .place data => do
    let (start, length) ← orTrap (← ask (.place data))
    return .extent start length
  | .malloc size => do return .ofNumber (← orTrap (← ask (.malloc (← size.value frame))))
  | .realloc start oldSize newSize => do
    let start ← start.value frame
    let oldSize ← oldSize.value frame
    return .ofNumber (← orTrap (← ask (.realloc start oldSize (← newSize.value frame))))
  | .free start size => do
    orTrap (← ask (.free (← start.value frame) (← size.value frame)))
    return .done
  | .offersRealloc => return .only (.flag (← machine).guest.offersRealloc)
  | .describeGuest => return .only (.text (← machine).describeGuest)
  | .encode text => do
    let extent ← orTrap (← ask (.encode text))
    return .extent extent.start extent.length
  | .decode start length => do
    return .only (.text (← orTrap (← ask (.decode (← start.value frame) (← length.value frame)))))
  | .writeResult slot text => do
    orTrap (← ask (.writeResult (← slot.value frame) text))
    return .done
  | .readResult slot => do
    let (start, length) ← askMemory (.readPair (← slot.value frame))
    if start = 0 then return .only (.pair 0 length.toNat)
    let text ← orTrap (← ask (.decode start.toNat length.toNat))
    return .only (.list [.count start.toNat, .count length.toNat, .text text])
  | .allocate value => do
    return yieldHandle (← orTrap (← ask (.allocate (← value.evaluate frame))))
  | .allocateOptional value => do
    return yieldHandle (← orTrap (← ask (.allocateOptional (← value.evaluate frame))))
  | .object handle => do yieldValue (← orTrap ((← machine).table.get (← handle.handle frame)))
  | .take handle => do yieldValue (← orTrap (← ask (.take (← handle.handle frame))))
  | .release handle => do
    orTrap (← ask (.release (← handle.handle frame)))
    return .done
  | .duplicate handle => do
    return yieldHandle (← orTrap (← ask (.duplicate (← handle.handle frame))))
  | .isLive handle => do
    return .only (.flag ((← machine).table.isLive (← handle.handle frame)))
  | .table => return .only (tableReport (← machine).table)
  | .describeTable => return .only (.text (← machine).table.describe)
  | .describeBridge => return .only (.text (← machine).describe)
  | .isPending => return .only (.flag (← machine).pending.isSet)
  | .takePending => do
    match ← ask .takePending with
    | some handle => return yieldHandle handle
    | none => return .done
  | .park exception => do
    orTrap (← ask (.park (← exception.evaluate frame)))
    return .done
  | .lastThrow => return .only (.option .text (← machine).lastThrow)
  | .guarded ending => do
    let result : Except Fault Nat ← match ending with
      | .answer n => pure (.ok (← n.value frame))
      | .throw exception => pure (.error (.thrown (← exception.evaluate frame)))
      | .trap error => pure (.error (.trap error))
    return .ofNumber (← orTrap (← ask (.guarded "guarded" result)))
  | .setUp => do
    orTrap (← ask .setUp)
    return .done
  | .isInitialized => return .only (.flag (← machine).initialized)
  | .reset => do
    ask .reset
    return .done
  | .log level text => do
    ask (.log level text)
    return .done
  | .settings => do
    let threshold ← ask .readThreshold
    return .only (settingsReport (← machine).settings threshold)
  | .hasImport module name =>
    return .only (.flag ((← machine).imports.contains module name))
  | .bind value => return { report := .null, value := some (← value.evaluate frame) }
  | .view value aspects => do
    let value ← value.evaluate frame
    return .only (.fields (aspects.map (aspectReport (← store) value)))
  | .compare first second => do
    let first ← first.evaluate frame
    let same := Report.flag (first.strictEquals (← second.evaluate frame))
    return .only (.list [same, same])
  | .onObject target action => do performOnObject frame (← target.evaluate frame) action
  | .call target receiver args => do
    let target ← target.evaluate frame
    let receiver ← receiver.evaluate frame
    let args ← evaluateItems frame args
    yieldValue (← orFault (← ask (.callFunction (← asFunction target) receiver args)))
  | .method target name args => do
    let target ← target.evaluate frame
    let args ← evaluateItems frame args
    yieldValue (← orFault (← ask (.invokeMethod target name args)))
  | .customEvent type init => do
    yieldValue (← orFault (← ask (.newCustomEvent type (← init.evaluate frame))))
  | .closure target => do
    let index ← asClosure (← target.evaluate frame)
    return .only (closureReport ((← machine).closure index))
  | .closureDrop target => do
    let index ← asClosure (← target.evaluate frame)
    return .only (.flag (← orTrap (← ask (.dropClosure index))))
  | .closureInvoke target args => do
    let index ← asClosure (← target.evaluate frame)
    let args ← evaluateItems frame args
    yieldValue (← orFault (← ask (.callFunction (.closure index) .undefined args)))
  | .memory step => do
    let stage ← get
    let (result, held) ← desk.run stage.held (step.map (·.evaluate frame stage))
    modify ({ · with held })
    return result

def bindYield (name : String) (y : Yield) : Scene Unit :=
  modify fun stage =>
    let stage := match y.number with
      | some n => { stage with numbers := stage.numbers.insert name (n % UInt32.size) }
      | none => stage
    let stage := match y.length with
      | some n => { stage with numbers := stage.numbers.insert (name ++ ".len") (n % UInt32.size) }
      | none => stage
    match y.value with
    | some value => { stage with values := stage.values.insert name value }
    | none => stage

/-- Runs a step. Nothing is named after a fault. -/
def Step.perform (frame : Frame) (step : Step Action) : Scene Report := do
  let y ← step.action.perform frame
  if let some name := step.name then
    bindYield name y
  return y.report

/-- Whether a step is to run now. A step that runs once only is marked when it is reached. -/
def Step.isDue (step : Step Action) : Scene Bool := do
  match step.once with
  | none => return true
  | some mark =>
    if mark ∈ (← get).marks then return false
    modify fun stage => { stage with marks := mark :: stage.marks }
    return true

def Scene.settle {α : Type} (scene : Scene α) : Scene (Except Fault α) :=
  .mk (Except.ok <$> scene.run)

/-- Runs the steps of scripted code from position `index` on. -/
def performBody (frame : Frame) (label : String) : Nat → List (Step Action) → Scene Unit
  | _, [] => return ()
  | index, step :: rest => do
    if ← step.isDue then
      let result ← (step.perform frame).settle
      let outcome := Report.outcome (← store) result
      modify fun stage => { stage with inner := stage.inner.push ⟨label, index, outcome⟩ }
      if let .error fault := result then
        if !step.tolerated then throw fault
    performBody frame label (index + 1) rest

def Code.perform (frame : Frame) : Code → Scene Value
  | .mk label body ending => do
    performBody frame ("n:" ++ label) 0 body
    match ending with
    | .trap error => throw (.trap error)
    | .throw exception => throw (.thrown (← exception.evaluate frame))
    | .answer value => value.evaluate frame

/-- Runs the code of a module function, out of which no host exception may come. -/
def ModuleFunction.perform (f : ModuleFunction) (label : String) (words : List Word) :
    Play Stage (Except Error (List Word)) := do
  let frame : Frame := { words }
  let scene : Scene (List Word) := do
    performBody frame label 0 f.body
    match f.trap with
    | some error => throw (.trap error)
    | none => evaluateWords frame f.results
  match ← scene.run with
  | .ok results => return .ok results
  | .error (.trap error) => return .error error
  | .error (.thrown _) => return .error ⟨.moduleTrap, "driver: uncaught host exception"⟩

/-- The embedder whose code is scripted. Its import functions never find a number to be called on. -/
def embedding (table : Array ModuleFunction) (start : Option ModuleFunction)
    (conducts : Array Conduct) : Embedding Stage where
  exported index words :=
    match table[index]? with
    | some f => f.perform s!"f{index}" words
    | none => return .error .unknownExport
  start :=
    match start with
    | some f => f.perform "start" []
    | none => return .ok []
  hosted key receiver args := do
    match (← get).code[key]? with
    | some code => (code.perform { receiver, args }).run
    | none => return .ok .undefined
  imported key args := return (conducts.getD key .echo).run args .nothing

end SandboxBridge.Scenario

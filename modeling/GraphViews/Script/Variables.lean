import GraphViews.Script.Values
/-!
Scripts over named model values: the `model` request.

A script names values and works on them step by step. A name holds a value, so a name bound
to a list, a set, a map or an object shares that cell with every other place that holds it.
A step that binds a name answers the new value; the other steps look the name up and work on
its value by its shape. A failed step answers its fault and changes no binding; what it made
in the store before failing stays there.
-/

namespace GraphViews.Script

/-- The named values of a script, in the order the names were first bound. -/
abbrev Vars := List (String × Value)

namespace Vars

def get? (vs : Vars) (name : String) : Option Value := vs.lookup name

/-- Binds a name: a bound name keeps its place, a new one goes last. -/
def set (vs : Vars) (name : String) (v : Value) : Vars :=
  if vs.any (·.1 == name) then vs.map fun p => if p.1 == name then (name, v) else p
  else vs ++ [(name, v)]

end Vars

/-- The answer for an optional value: `{"some": V}` or null. -/
def Setup.some? (v : Option Value) : Setup Doc := do
  match v with
  | some v => return .obj [("some", ← Setup.show v)]
  | none => return .null

/-- The length of a container and whether it is empty. -/
def lengthDoc (n : Nat) : Doc := .obj [("len", .nat n), ("empty", .bool (n == 0))]

/-- The elements of a value written as one answer, an object written once in full. -/
def Setup.showAll (xs : List Value) : Setup Doc := do
  match ← Setup.show (.array xs) with
  | .obj [(_, items)] => return items
  | d => return d

/-- An index argument. -/
def readIndex (op : List Doc) (i : Nat) : Setup Nat :=
  match (arg op i).asNat? with
  | some n => pure n
  | none => Setup.refuse "missing argument index"

/-- The steps on a list. -/
def listStep (types : Types) (vars : Vars) (name : String) (op : List Doc) (h : Handle) :
    Setup Doc := do
  let value (i : Nat) : Setup Value := readValue types (arg op i) vars.get?
  let items := (← get).store.items h
  let outOfRange : Setup Doc := Setup.refuse "index out of range"
  let write (xs : List Value) : Setup Unit := Setup.onStore fun st => (st.setItems h xs, ())
  match name with
  | "push" =>
    let v ← value 2
    write (items ++ [v])
    Setup.show (.list h)
  | "insert" =>
    let i ← readIndex op 2
    let v ← value 3
    if i > items.length then outOfRange
    else
      write (items.insertIdx i v)
      Setup.show (.list h)
  | "remove" =>
    let i ← readIndex op 2
    match items[i]? with
    | some old =>
      write (items.eraseIdx i)
      Setup.show old
    | none => outOfRange
  | "replace" =>
    let i ← readIndex op 2
    let v ← value 3
    match items[i]? with
    | some old =>
      write (items.set i v)
      Setup.show old
    | none => outOfRange
  | "at" => Setup.some? items[(← readIndex op 2)]?
  | "len" => return lengthDoc items.length
  | "snapshot" => Setup.showAll items
  | "clear" =>
    write []
    Setup.show (.list h)
  | other => Setup.refuse ("unknown list step " ++ q other)

/-- The steps on a set; membership is identity. -/
def setStep (types : Types) (vars : Vars) (name : String) (op : List Doc) (h : Handle) :
    Setup Doc := do
  let value (i : Nat) : Setup Value := readValue types (arg op i) vars.get?
  match name with
  | "insert" =>
    let v ← value 2
    return .bool (← Setup.onStore (·.setInsert h v))
  | "remove" =>
    let v ← value 2
    return .bool (← Setup.onStore (·.setRemove h v))
  | "contains" =>
    let v ← value 2
    return .bool (((← get).store.items h).any (·.isSame v))
  | "len" => return lengthDoc ((← get).store.items h).length
  | "snapshot" => Setup.showAll ((← get).store.items h)
  | "clear" =>
    Setup.onStore fun st => (st.setItems h [], ())
    Setup.show (.set h)
  | other => Setup.refuse ("unknown set step " ++ q other)

/-- The steps on a map; keys match by scalar equality. -/
def mapStep (types : Types) (vars : Vars) (name : String) (op : List Doc) (h : Handle) :
    Setup Doc := do
  let key : Setup Scalar := Setup.ofOutcome (readScalar (arg op 2))
  match name with
  | "put" =>
    let k ← key
    let v ← readValue types (arg op 3) vars.get?
    Setup.some? (← Setup.onStore (·.mapPut h k v))
  | "at" =>
    let k ← key
    Setup.some? ((← get).store.mapGet? h k)
  | "remove" =>
    let k ← key
    Setup.some? (← Setup.onStore (·.mapRemove h k))
  | "entries" =>
    match ← Setup.show (.map h) with
    | .obj [(_, items)] => return items
    | d => return d
  | "len" => return lengthDoc ((← get).store.entries h).length
  | "clear" =>
    Setup.onStore fun st => (st.setEntries h [], ())
    Setup.show (.map h)
  | other => Setup.refuse ("unknown map step " ++ q other)

/-- The steps on an object. -/
def objectStep (types : Types) (vars : Vars) (name : String) (op : List Doc) (h : Handle) :
    Setup Doc := do
  let fieldName : Setup String := Setup.ofOutcome (argStr op 2 "field")
  let st := (← get).store
  match name with
  | "with" | "set" =>
    let f ← fieldName
    let v ← readValue types (arg op 3) vars.get?
    Setup.onStore fun st => (st.setField h f v, ())
    Setup.show (.object h)
  | "get" => Setup.show (st.field h (← fieldName))
  | "scalar" =>
    match st.slot? h (← fieldName) with
    | some (.scalar s) => return scalarDoc s
    | _ => return .null
  | "field" => Setup.some? (st.slot? h (← fieldName))
  | "fields" => return Doc.strs (sortNames ((st.instance? h).map (·.slots.map (·.1)) |>.getD []))
  | "type" => return .str (st.typeOf h).name
  | _ =>
    let t ← Setup.ofOutcome (argStr op 2 "type" >>= findType types)
    return .bool (st.isInstanceOf h t)

/-- The steps that any value answers. -/
def valueStep (types : Types) (vars : Vars) (name : String) (op : List Doc) (v : Value) :
    Setup Doc := do
  let st := (← get).store
  match name with
  | "debug" => return .str (st.debugText v)
  | "show" => Setup.show v
  | "info" =>
    return .obj [("shape", .str v.shapeName), ("null", .bool v.isNull),
                 ("scalar", scalarOptDoc v.scalar?), ("object", .bool v.object?.isSome)]
  | _ =>
    let w ← readValue types (arg op 2) vars.get?
    return .obj [("eq", .bool ((← get).store.equal v w)), ("same", .bool (v.isSame w))]

/-- The steps that work on an object. -/
def objectSteps : List String := ["with", "set", "get", "scalar", "field", "fields", "type", "instance_of"]

/-- One step of a script: the answer and the bindings after it. -/
def scriptStep (types : Types) (vars : Vars) (step : Doc) : Setup (Doc × Vars) := do
  let op := step.items
  let name ← Setup.ofOutcome (argStr op 0 "step")
  let target ← Setup.ofOutcome (argStr op 1 "var")
  let bind (v : Value) : Setup (Doc × Vars) := do return (← Setup.show v, vars.set target v)
  match name with
  | "let" => bind (← readValue types (arg op 2) vars.get?)
  | "new" =>
    let t ← Setup.ofOutcome (argStr op 2 "type" >>= findType types)
    bind (.object (← Setup.onStore (·.newObject t)))
  | "list" =>
    let vs ← (arg op 2).items.mapM fun d => readValue types d vars.get?
    bind (← Setup.onStore (·.newList vs))
  | "set_new" =>
    let vs ← (arg op 2).items.mapM fun d => readValue types d vars.get?
    bind (← Setup.onStore (·.newSet vs))
  | "map_new" =>
    let es ← (arg op 2).items.mapM fun e => do
      let k ← Setup.ofOutcome (readScalar (arg e.items 0))
      pure (k, ← readValue types (arg e.items 1) vars.get?)
    bind (← Setup.onStore (·.newMap es))
  | _ =>
    let some v := vars.get? target | Setup.refuse ("unknown var " ++ q target)
    let answer ←
      if ["debug", "show", "info", "eq"].contains name then valueStep types vars name op v
      else if objectSteps.contains name then
        match v with
        | .object h => objectStep types vars name op h
        | _ => Setup.refuse (target ++ " is not an object")
      else
        match v with
        | .list h => listStep types vars name op h
        | .set h => setStep types vars name op h
        | .map h => mapStep types vars name op h
        | _ => Setup.refuse ("step " ++ q name ++ " does not apply to a " ++ v.shapeName)
    return (answer, vars)

/-- Runs the steps of a script in order; a failed step answers its fault and the script goes
on. -/
def runScript (types : Types) : List Doc → RunState → Vars → List Doc
  | [], _, _ => []
  | d :: ds, s, vars =>
    match scriptStep types vars d s with
    | .ok (r, vars') s' => .obj [("r", r)] :: runScript types ds s' vars'
    | .error f s' => f.toDoc :: runScript types ds s' vars

/-- `model`: a script over named model values. -/
def modelRequest (req : Doc) : Outcome Doc := do
  let types ← readTypes (req.field "types")
  return .obj [("results", .arr (runScript types (req.field "steps").items {} []))]

end GraphViews.Script

import GraphViews.Script.Variables
import GraphViews.Access.Multi
/-!
Property accessors driven step by step: the `accessor` request.

The accessor of a declared property, optionally wrapped to convert its scalars and then to
read and write a delimited text as an array, is driven through its plain operations and
through the collection operations of the shape asked for. Every step answers with the owner
as it stands after the step; a failed step answers its access error and the steps go on.
-/

namespace GraphViews.Script

/-- The fault of an access error. -/
def accessFault (e : AccessError) : Fault := .ofKind "AccessError" e.kindName e.message

/-- Runs store access inside a setup; its error is a result. -/
def Setup.access {α : Type} (m : Access α) : Setup (Except AccessError α) := fun s =>
  match m s.store with
  | .ok a st => .ok (.ok a) { s with store := st }
  | .error e st => .ok (.error e) { s with store := st }

/-- The collection view of an accessor a request asks for: `list`, `set`, `array`, `map`,
`plain` for none, or `auto`, which takes an array for a coerced accessor and otherwise
follows the data type, a list for every type that is not a set, an array or a map. -/
def readShape (d : Doc) (a : Accessor) (coerced : Bool) : Outcome (Option Multi) :=
  match d with
  | .null | .str "auto" =>
    if coerced then .ok (some (.array a))
    else match a.dataType with
      | .set => .ok (some (.set a))
      | .array => .ok (some (.array a))
      | .map _ => .ok (some (.map a))
      | _ => .ok (some (.list a))
  | .str "list" => .ok (some (.list a))
  | .str "set" => .ok (some (.set a))
  | .str "array" => .ok (some (.array a))
  | .str "map" => .ok (some (.map a))
  | .str "plain" => .ok none
  | .str s => refuse ("unknown shape " ++ q s)
  | _ => refuse "missing argument shape"

/-- One step on an accessor: its answer, or the fault of the access. -/
def accessorStep (types : Types) (a : Accessor) (multi : Option Multi) (owner : Value)
    (step : Doc) : Setup Doc := do
  let op := step.items
  let value (i : Nat) : Setup Value := readValue types (arg op i)
  let key (i : Nat) : Setup Scalar := Setup.ofOutcome (readScalar (arg op i))
  let name ← Setup.ofOutcome (argStr op 0 "step")
  let run {α : Type} (m : Access α) (k : α → Setup Doc) : Setup Doc := do
    match ← Setup.access m with
    | .ok x => k x
    | .error e => throw (accessFault e)
  let unit (_ : Unit) : Setup Doc := pure .null
  match name with
  | "get" => run (a.get owner) Setup.show
  | "set" =>
    let v ← value 1
    run (a.set owner v) unit
  | "info" =>
    return .obj [("name", .str a.name), ("data_type", .str a.dataType.debugText),
                 ("modes", .str a.modes.text),
                 ("capability", Doc.opt (multi.map (.str ·.capability.text)))]
  | "debug" => return .str a.debugText
  | _ =>
    let some m := multi | Setup.refuse ("step " ++ q name ++ " needs a collection accessor")
    match name with
    | "iterate" => run (m.iterate owner) Setup.showAll
    | "size" => run (m.size owner) fun n => pure (.nat n)
    | "add" =>
      let v ← value 1
      run (m.add owner v) unit
    | "remove" =>
      let v ← value 1
      run (m.remove owner v) fun b => pure (.bool b)
    | "clear" => run (m.clear owner) unit
    | "get_at" => run (m.getAt owner (← readIndex op 1)) Setup.show
    | "remove_at" => run (m.removeAt owner (← readIndex op 1)) Setup.show
    | "set_at" =>
      let i ← readIndex op 1
      let v ← value 2
      run (m.setAt owner i v) unit
    | "insert_at" =>
      let i ← readIndex op 1
      let v ← value 2
      run (m.insertAt owner i v) unit
    | "index_of" =>
      let v ← value 1
      run (m.indexOf owner v) fun i => pure (Doc.opt (i.map .nat))
    | "entries" =>
      run (m.entries owner) fun es => do
        let vs ← Setup.showAll (es.map (·.2))
        return .arr ((es.map (·.1)).zipWith (fun k v => Doc.arr [scalarDoc k, v]) vs.items)
    | "get_key" => run (m.getKey owner (← key 1)) Setup.some?
    | "put" =>
      let k ← key 1
      let v ← value 2
      run (m.put owner k v) Setup.some?
    | "remove_key" => run (m.removeKey owner (← key 1)) Setup.some?
    | other => Setup.refuse ("unknown accessor step " ++ q other)

/-- Runs the steps on an accessor; each answer carries the owner after the step. -/
def runAccessorSteps (types : Types) (a : Accessor) (multi : Option Multi) (owner : Value) :
    List Doc → RunState → List Doc
  | [], _ => []
  | d :: ds, s =>
    let (answer, s) := match accessorStep types a multi owner d s with
      | .ok r s => ([("r", r)], s)
      | .error f s => (f.fields, s)
    let (state, s) := (showValue owner).run s
    .obj (answer ++ [("state", state)]) :: runAccessorSteps types a multi owner ds s

/-- `accessor`: a declared property's accessor, wrapped as asked, driven step by step. -/
def accessorRequest (req : Doc) : Outcome Doc := do
  let types ← readTypes (req.field "types")
  let t ← findType types ((req.str? "type").getD "")
  let property := (req.str? "property").getD ""
  let some decl := t.property? property
    | .error (templateFault (.unknownProperty t.name property))
  let base := Accessor.ofDecl decl
  let converted ← match req.get? "converter" with
    | some d => (Accessor.converting base ·) <$> readConverter d
    | none => pure base
  let (a, coerced) ← match req.get? "coerce" with
    | some d => (fun c => (Accessor.coercing converted c, true)) <$> readSeparator d
    | none => pure (converted, false)
  let multi ← readShape (req.field "shape") a coerced
  Setup.outcome do
    let owner ← readValue types (req.field "owner")
    let s ← get
    return .obj [("results", .arr (runAccessorSteps types a multi owner (req.field "ops").items s))]

end GraphViews.Script

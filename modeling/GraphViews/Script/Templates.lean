import GraphViews.Script.Types
import GraphViews.Script.Scalars
import GraphViews.Template.Validate
import GraphViews.Binding.Run
/-!
Templates in requests, their collaborators, and the `template_info` request.

A template is `{"root": R, "type": T | "kind": K, "ops": [op…]}`: the root, then one builder
call per op, then `build`. Reading one may make manager factories, which take fresh
identities from the run state, so reading runs in `Setup`.
-/

namespace GraphViews.Script

/-- Reading a request that may make collaborators with identities. -/
abbrev Setup := EStateM Fault RunState

/-- Lifts an outcome into a setup. -/
def Setup.ofOutcome {α : Type} (r : Outcome α) : Setup α := fun s =>
  match r with
  | .ok a => .ok a s
  | .error e => .error e s

/-- Fails with a malformed-request fault. -/
def Setup.refuse {α : Type} (message : String) : Setup α := Setup.ofOutcome (Script.refuse message)

/-- The outcome of a setup run from a state, the empty one unless given. -/
def Setup.outcome {α : Type} (m : Setup α) (s : RunState := {}) : Outcome α :=
  match m s with
  | .ok a _ => .ok a
  | .error e _ => .error e

/-- The fault of a template error. -/
def templateFault (e : TemplateError) : Fault := .ofKind "TemplateError" e.kindName e.message

def readStrategy (d : Doc) : Outcome Strategy :=
  match d with
  | .str "simple" => .ok .simple
  | .str "lower" => .ok .lower
  | .str "constant" => .ok .constant
  | .str "length" => .ok .length
  | .str s => refuse ("unknown strategy " ++ q s)
  | _ => refuse "missing argument strategy"

def readMetaHandler (d : Doc) : Outcome MetaHandler := do
  match d.str? "kind" with
  | some "type" => pure .typeName
  | some "const" => .const <$> readScalar (d.field "value")
  | some "fail" => pure .refuse
  | some "store" =>
    match d.str? "field" with
    | some f => pure (.store f)
    | none => refuse "missing argument field"
  | some "plain" => .plain <$> readScalar (d.field "value")
  | some k => refuse ("unknown meta handler " ++ q k)
  | none => refuse "missing argument kind"

def readCapability (d : Doc) : Outcome ManagerCapability :=
  match d with
  | .null | .str "indexed" => .ok .indexed
  | .str "unordered" => .ok .unordered
  | .str "keyed" => .ok .keyed
  | .str "to_one" => .ok .toOne
  | .str s => refuse ("unknown capability " ++ q s)
  | _ => refuse "missing argument cap"

def readSupport (d : Doc) : Support :=
  match d with
  | .bool false => .none
  | .str s => .only [s]
  | .arr xs => .only (xs.filterMap Doc.asStr?)
  | _ => .all

/-- A manager factory, with a fresh identity. -/
def readManager (d : Doc) : Setup ManagerFactory := do
  let capability ← Setup.ofOutcome (readCapability (d.field "cap"))
  let id ← modifyGet RunState.freshId
  return { id, label := (d.str? "label").getD "m", capability, support := readSupport (d.field "supports"),
           key := d.str? "key", failBegin := d.flag "fail_begin", failEnd := d.flag "fail_end",
           describe := d.flag "describe" }

/-- The first character of a separator text. -/
def readSeparator (d : Doc) : Outcome Char :=
  match d with
  | .str s => match s.toList with
    | c :: _ => .ok c
    | [] => refuse "missing argument separator"
  | _ => refuse "missing argument separator"

/-- Reads and builds a template; nested templates are read the same way, so the depth of the
document bounds the recursion. -/
def readTemplateWith (types : Types) : Nat → Doc → Setup Template
  | 0, _ => Setup.ofOutcome (refuse "template nested too deeply")
  | fuel + 1, spec => do
    let start ← Setup.ofOutcome <| match spec.str? "root" with
      | some "object" => Builder.forObject <$> findType types ((spec.str? "type").getD "")
      | some "array_of_objects" => Builder.forArrayOfObjects <$> findType types ((spec.str? "type").getD "")
      | some "array_of_values" => Builder.forArrayOfValues <$> readKind (spec.field "kind")
      | some r => refuse ("unknown root " ++ q r)
      | none => refuse "missing argument root"
    if let some f := spec.str? "factory" then
      unless f == "declared" do Setup.ofOutcome (refuse ("unknown accessor factory " ++ q f))
    let nested (d : Doc) : Setup Template := readTemplateWith types fuel d
    let step (b : Builder) (op : Doc) : Setup Builder := do
      let xs := op.items
      let ty (i : Nat) : Setup ModelType := Setup.ofOutcome (argStr xs i "type" >>= findType types)
      let name (i : Nat) : Setup String := Setup.ofOutcome (argStr xs i "name")
      match xs.head? with
      | some (.str "value") => return b.value (← name 1)
      | some (.str "object") => return b.object (← name 1) (← ty 2)
      | some (.str "reference") => return b.reference (← name 1) (← ty 2)
      | some (.str "array_of_objects") => return b.arrayOfObjects (← name 1) (← ty 2)
      | some (.str "array_of_references") => return b.arrayOfReferences (← name 1) (← ty 2)
      | some (.str "array_of_values") =>
        return b.arrayOfValues (← name 1) (← Setup.ofOutcome (readKind (arg xs 2)))
      | some (.str "map_of_values") =>
        return b.mapOfValues (← name 1) (← Setup.ofOutcome (readKind (arg xs 2)))
      | some (.str "map_of_objects") => return b.mapOfObjects (← name 1) (← ty 2)
      | some (.str "map_of_references") => return b.mapOfReferences (← name 1) (← ty 2)
      | some (.str "envelope") => return b.envelope (← name 1)
      | some (.str "subtype") => return b.subtype (← ty 1)
      | some (.str "end") => return b.close
      | some (.str "discriminator") => return b.discriminator
      | some (.str "discriminator_with") =>
        return b.discriminatorWith (← name 1) (← Setup.ofOutcome (readStrategy (arg xs 2)))
      | some (.str "meta") => return b.metaNode (← name 1) (← Setup.ofOutcome (readMetaHandler (arg xs 2)))
      | some (.str "splice") =>
        let n ← name 1
        let t ← nested ((arg xs 2).field "template")
        return b.splice n t ((arg xs 2).str? "property")
      | some (.str "object_template") => return b.objectTemplate (← name 1) (← nested (arg xs 2))
      | some (.str "reference_template") => return b.referenceTemplate (← name 1) (← nested (arg xs 2))
      | some (.str "array_template") => return b.arrayTemplate (← name 1) (← nested (arg xs 2))
      | some (.str "map_template") => return b.mapTemplate (← name 1) (← nested (arg xs 2))
      | some (.str "converter") => return b.converter (← Setup.ofOutcome (readConverter (arg xs 1)))
      | some (.str "key_converter") => return b.keyConverter (← Setup.ofOutcome (readConverter (arg xs 1)))
      | some (.str "identity") => return b.identity ((arg xs 1).items.filterMap Doc.asStr?)
      | some (.str "namespace") => return b.namespace_ (← Setup.ofOutcome (argStr xs 1 "namespace"))
      | some (.str "access_mode") => return b.accessMode (← Setup.ofOutcome (readModes (arg xs 1)))
      | some (.str "manager") => return b.manager (← readManager (arg xs 1))
      | some (.str "coerce") => return b.coerce (← Setup.ofOutcome (readSeparator (arg xs 1)))
      | some (.str "factory") =>
        let f ← Setup.ofOutcome (argStr xs 1 "factory")
        if f == "declared" then return b
        else Setup.ofOutcome (refuse ("unknown accessor factory " ++ q f))
      | some (.str other) => Setup.ofOutcome (refuse ("unknown template op " ++ q other))
      | _ => Setup.ofOutcome (refuse "template op must be an array")
    let b ← (spec.field "ops").items.foldlM step start
    Setup.ofOutcome (b.build.mapError templateFault)

/-- Reads and builds the template of a request. -/
def readTemplate (types : Types) (spec : Doc) : Setup Template :=
  readTemplateWith types (spec.depth + 1) spec

/-- The document of a node. -/
def nodeDoc (n : Node) : Doc :=
  let i := n.info
  .obj [("kind", .str n.kind.debugText), ("name", Doc.opt (i.name.map .str)),
        ("ns", Doc.opt (i.ns.map .str)), ("type", Doc.opt (i.modelType.map (.str ·.name))),
        ("scalar_kind", Doc.opt (i.scalarKind.map (.str ·.text))),
        ("key_kind", Doc.opt (i.keyKind.map (.str ·.text))),
        ("string_keys", .bool i.stringKeys), ("modes", .str n.modes.text),
        ("reference", .bool i.reference), ("identity", Doc.strs (i.identity.map (·.name))),
        ("children", .nat n.children.length),
        ("accessor", Doc.opt (i.accessor.map (.str ·.dataType.debugText))),
        ("multi", Doc.opt (i.multi.map (.str ·.capability.text)))]

/-- The debug document of a node. -/
def nodeDebugDoc (n : Node) : Doc :=
  .obj [("node", .str n.debugText), ("accessor", Doc.opt (n.accessor.map (.str ·.debugText))),
        ("accessor_name", Doc.opt (n.accessor.map (.str ·.name))),
        ("identity_empty", .bool n.info.identity.isEmpty)]

/-- `template_info`: every node breadth first, and the nodes found by name. -/
def templateInfoRequest (req : Doc) : Outcome Doc := do
  let types ← readTypes (req.field "types")
  let t ← (readTemplate types (req.field "template")).outcome
  let nodes := t.nodes
  let found := (req.field "find").items.filterMap Doc.asStr? |>.map fun n =>
    (n, Doc.opt ((t.find? n).map nodeDoc))
  let base := [("nodes", Doc.arr (nodes.map nodeDoc)), ("find", Doc.obj found)]
  let extra := if req.flag "debug" then
      [("template", Doc.str t.debugText), ("debug", Doc.arr (nodes.map nodeDebugDoc))]
    else []
  return .obj (base ++ extra)

/-- The fault of an error kind, with its code. -/
def kindFault (k : ViewErrorKind) : Fault :=
  ⟨(Fault.ofKind "ViewErrorKind" k.kindName k.message).fields ++ [("code", .str k.code.code)]⟩

/-- `discriminator`: how a strategy classifies candidates, and which one a value names. -/
def discriminatorRequest (req : Doc) : Outcome Doc := do
  let types ← readTypes (req.field "types")
  let s ← readStrategy (req.field "strategy")
  let v ← readScalar (req.field "value")
  let candidates ← ((req.field "candidates").items.filterMap Doc.asStr?).mapM (findType types)
  match s.resolve v candidates with
  | .ok t => return .obj [("resolved", .str t.name),
      ("classified", .arr (candidates.map fun c => scalarDoc (s.classify c)))]
  | .error k => return (kindFault k).toDoc

end GraphViews.Script

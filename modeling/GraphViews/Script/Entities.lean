import GraphViews.Script.Events
import GraphViews.Script.Types
import GraphViews.Binding.Staged
/-!
Staged values and entities in requests: the `entity` request.

A staged value is `{"value": s}`, `{"meta": s}`, `{"entity": E}`, `"null"`, `"unchanged"`,
`{"elements": […]}`, `{"entries": [[key, S], …]}` or `{"spliced": [events]}`; an entity
`E` is `{"type": T, "props": [[name, S], …]}`, its properties put in order. Written back, a
staged value takes the same form.
-/

namespace GraphViews.Script

/-- Reads a staged value; the depth of the document bounds the recursion. -/
def readStagedWith (types : Types) : Nat → Doc → Outcome Staged
  | 0, _ => refuse "staged value nested too deeply"
  | fuel + 1, d =>
    match d with
    | .str "null" => .ok .null
    | .str "unchanged" => .ok .unchanged
    | .obj _ =>
      if let some s := d.get? "value" then .value <$> readScalar s
      else if let some s := d.get? "meta" then .metaValue <$> readScalar s
      else if let some e := d.get? "entity" then
        (fun (e : Entity) => e.toStaged) <$> readEntityWith types fuel e
      else if let some xs := d.get? "elements" then
        .elements <$> xs.items.mapM (readStagedWith types fuel)
      else if let some xs := d.get? "entries" then
        .entries <$> xs.items.mapM fun e =>
          match e with
          | .arr [k, v] => do return (← readScalar k, ← readStagedWith types fuel v)
          | _ => refuse "entry must be [key, staged]"
      else if let some evs := d.get? "spliced" then .spliced <$> readEvents evs
      else refuse "unknown staged value"
    | _ => refuse "staged value must be an object, \"null\" or \"unchanged\""
where
  /-- Reads an entity, its properties put in order. -/
  readEntityWith (types : Types) : Nat → Doc → Outcome Entity
    | 0, _ => refuse "staged value nested too deeply"
    | fuel + 1, d => do
      let t ← findType types (← argStr [d.field "type"] 0 "type")
      let props ← (d.field "props").items.mapM fun p =>
        match p with
        | .arr [.str n, v] => do return (n, ← readStagedWith types fuel v)
        | _ => refuse "prop must be [name, staged]"
      return props.foldl (fun (e : Entity) (n, v) => e.put n v) { type := t }

/-- Reads a staged value. -/
def readStaged (types : Types) (d : Doc) : Outcome Staged := readStagedWith types (d.depth + 2) d

/-- Reads an entity. -/
def readEntity (types : Types) (d : Doc) : Outcome Entity :=
  readStagedWith.readEntityWith types (d.depth + 2) d

/-- The document of a staged value. -/
def stagedDoc : Staged → Doc
  | .value s => .obj [("value", scalarDoc s)]
  | .metaValue s => .obj [("meta", scalarDoc s)]
  | .null => .str "null"
  | .unchanged => .str "unchanged"
  | .entity t ps => .obj [("entity", .obj [("type", .str t.name), ("props", .arr (propsDoc ps))])]
  | .elements xs => .obj [("elements", .arr (itemsDoc xs))]
  | .entries xs => .obj [("entries", .arr (entriesDoc xs))]
  | .spliced v => .obj [("spliced", viewDoc v)]
where
  propsDoc : List (String × Staged) → List Doc
    | [] => []
    | (n, v) :: ps => .arr [.str n, stagedDoc v] :: propsDoc ps
  itemsDoc : List Staged → List Doc
    | [] => []
    | v :: vs => stagedDoc v :: itemsDoc vs
  entriesDoc : List (Scalar × Staged) → List Doc
    | [] => []
    | (k, v) :: es => .arr [scalarDoc k, stagedDoc v] :: entriesDoc es

/-- The document of an entity. -/
def entityDoc (e : Entity) : Doc :=
  .obj [("type", .str e.type.name), ("props", .arr (stagedDoc.propsDoc e.props))]

/-- What a request sees of a property: its shape, scalar, entity size and value. -/
def propertyDoc (v : Staged) : Doc :=
  .obj [("shape", .str v.shapeName), ("scalar", scalarOptDoc v.scalar?),
        ("entity_len", Doc.opt (v.entity?.map (.nat ·.size))), ("staged", stagedDoc v)]

/-- One step on an entity: the answer and the entity after it. -/
def entityStep (types : Types) (e : Entity) (step : Doc) : Outcome (Doc × Entity) := do
  let op := step.items
  let name (i : Nat) : Outcome String := argStr op i "name"
  match ← argStr op 0 "step" with
  | "put" => return (.null, e.put (← name 1) (← readStaged types (arg op 2)))
  | "get" => return (Doc.opt ((e.get? (← name 1)).map propertyDoc), e)
  | "take" =>
    let (v, e) := e.take (← name 1)
    return (Doc.opt (v.map propertyDoc), e)
  | "scalar" => return (Doc.opt ((e.scalar? (← name 1)).map fun s => .obj [("some", scalarDoc s)]), e)
  | "names" => return (Doc.strs e.names, e)
  | "len" => return (.obj [("len", .nat e.size), ("empty", .bool e.isEmpty)], e)
  | "type" => return (.str e.type.name, e)
  | "eq" => return (.bool (e.beq (← readEntity types (arg op 1))), e)
  | "show" => return (entityDoc e, e)
  | other => refuse ("unknown entity step " ++ q other)

/-- Runs the steps on an entity; a failed step answers its fault and leaves the entity. -/
def runEntitySteps (types : Types) : List Doc → Entity → List Doc
  | [], _ => []
  | d :: ds, e =>
    match entityStep types e d with
    | .ok (r, e') => .obj [("r", r)] :: runEntitySteps types ds e'
    | .error f => f.toDoc :: runEntitySteps types ds e

/-- `entity`: steps on a staged object. -/
def entityRequest (req : Doc) : Outcome Doc := do
  let types ← readTypes (req.field "types")
  let e ← readEntity types (req.field "entity")
  return .obj [("results", .arr (runEntitySteps types (req.field "steps").items e))]

end GraphViews.Script

import GraphViews.Script.Templates
import GraphViews.Model.Debug
/-!
Model values in requests and answers.

A value is a scalar, `{"obj": T, "id": L?, "f": {…}}` for a new object, `{"ref": L}` for an
object read before, or `{"list" | "set" | "array": […]}` and `{"map": [[k, v], …]}`.
An object gets its label before its fields are read, and its fields are read in sorted
order; objects without `id` are labelled `o1`, `o2`, … in reading order.

In answers an object is written in full once per answer field and as `{"ref": L}` after
that; an object without a label gets `x1`, `x2`, … when first written.
-/

namespace GraphViews.Script

/-- Runs a store change in a setup. -/
def Setup.onStore {α : Type} (f : Store → Store × α) : Setup α :=
  modifyGet fun s => let (st, a) := f s.store; (a, { s with store := st })

/-- Names a handle with the label, or with the next `o` label. -/
def Setup.label (h : Handle) (given : Option String) : Setup Unit :=
  modify fun s => match given with
    | some l => { s with labels := s.labels.set h l }
    | none => let (l, labels) := s.labels.fresh "o"; { s with labels := labels.set h l }

/-- The fields of an object document, sorted by name. -/
def sortedFields (d : Doc) : List (String × Doc) :=
  match d with
  | .obj fs => fs.mergeSort (fun a b => decide (a.1 ≤ b.1))
  | _ => []

/-- Reads a model value; `vars` names values of earlier steps. The depth of the document
bounds the recursion. -/
def readValueWith (types : Types) (vars : String → Option Value) : Nat → Doc → Setup Value
  | 0, _ => Setup.ofOutcome (refuse "value nested too deeply")
  | fuel + 1, d => do
    let sub := readValueWith types vars fuel
    match d with
    | .obj fs =>
      match fs.head?.map (·.1) with
      | some "var" =>
        let name := (d.str? "var").getD ""
        match vars name with
        | some v => pure v
        | none => Setup.ofOutcome (refuse ("unknown var " ++ q name))
      | _ =>
      if let some t := d.str? "obj" then
        let t ← Setup.ofOutcome (findType types t)
        let h ← Setup.onStore (·.newObject t)
        Setup.label h (d.str? "id")
        for (k, fd) in sortedFields (d.field "f") do
          let v ← sub fd
          Setup.onStore fun st => (st.setField h k v, ())
        return .object h
      else if let some l := d.str? "ref" then
        match (← get).labels.handle? l with
        | some h => return .object h
        | none => Setup.ofOutcome (refuse ("unknown label " ++ q l))
      else if let some xs := d.get? "list" then
        let vs ← xs.items.mapM sub
        Setup.onStore (·.newList vs)
      else if let some xs := d.get? "set" then
        let vs ← xs.items.mapM sub
        Setup.onStore (·.newSet vs)
      else if let some xs := d.get? "array" then
        return .array (← xs.items.mapM sub)
      else if let some xs := d.get? "map" then
        let es ← xs.items.mapM fun e => do
          let k ← Setup.ofOutcome (readScalar (arg e.items 0))
          let v ← sub (arg e.items 1)
          pure (k, v)
        Setup.onStore (·.newMap es)
      else .scalar <$> Setup.ofOutcome (readScalar d)
    | _ => .scalar <$> Setup.ofOutcome (readScalar d)

/-- Reads a model value. -/
def readValue (types : Types) (d : Doc) (vars : String → Option Value := fun _ => none) :
    Setup Value :=
  readValueWith types vars (d.depth + 2) d

/-- The label of an object, naming it `x<n>` if it has none. -/
def labelOf (h : Handle) : StateM RunState String :=
  modifyGet fun s => let (l, labels) := s.labels.ensure h "x"; (l, { s with labels })

/-- Writes a value; `seen` holds the objects written in full so far. -/
def showWith (fuel : Nat) (v : Value) : StateT (List Handle) (StateM RunState) Doc :=
  match fuel with
  | 0 => pure .null
  | fuel + 1 => do
    let st := (← getThe RunState).store
    match v with
    | .scalar s => pure (scalarDoc s)
    | .object h =>
      if (← get).contains h then
        return .obj [("ref", .str (← labelOf h))]
      modify (h :: ·)
      let label ← labelOf h
      let names := sortNames ((st.instance? h).map (·.slots.map (·.1)) |>.getD [])
      let fields ← names.mapM fun n => do pure (n, ← showWith fuel (st.field h n))
      return .obj [("obj", .str (st.typeOf h).name), ("id", .str label), ("f", .obj fields)]
    | .list h => return .obj [("list", .arr (← (st.items h).mapM (showWith fuel)))]
    | .set h => return .obj [("set", .arr (← (st.items h).mapM (showWith fuel)))]
    | .array xs => return .obj [("array", .arr (← xs.mapM (showWith fuel)))]
    | .map h =>
      let es ← (st.entries h).mapM fun (k, x) => do pure (Doc.arr [scalarDoc k, ← showWith fuel x])
      return .obj [("map", .arr es)]

/-- Writes a value for one answer field. -/
def showValue (v : Value) : StateM RunState Doc := do
  let s ← get
  let fuel := s.store.size + s.store.weight + v.weight + 1
  return (← (showWith fuel v).run []).1

/-- Writes a value inside a setup. -/
def Setup.show (v : Value) : Setup Doc := fun s =>
  let (d, s) := (showValue v).run s
  .ok d s

/-- `equals`: structural equality and identity of two values. -/
def equalsRequest (req : Doc) : Outcome Doc := do
  let types ← readTypes (req.field "types")
  Setup.outcome do
    let a ← readValue types (req.field "a")
    let b ← readValue types (req.field "b")
    return .obj [("eq", .bool ((← get).store.equal a b)), ("same", .bool (a.isSame b)),
                 ("shape_a", .str a.shapeName), ("shape_b", .str b.shapeName)]

end GraphViews.Script

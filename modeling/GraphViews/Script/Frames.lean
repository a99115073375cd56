import GraphViews.Script.Engine
/-!
A context driven step by step: the `context` request.

The steps push and pop frames, set and look up scoped attributes, change the options, and
call the context's services: errors placed at the current frame, new instances, reference
resolution and converter lookup. Every step answers what it sees; a failed step answers its
fault and the steps go on with the context as it was.

A frame is `{}`, `{"named": n}`, `{"indexed": i}` or `{"keyed": scalar}`, with an optional
`"type"` and `"model"`; the paths a step sees are the view path, the model path and the
depth.
-/

namespace GraphViews.Script

/-- Options from a base, `new` when absent, with the null and depth settings applied. -/
def readContextOptions (d : Doc) : Outcome Options := do
  let base ← match d.str? "base" with
    | none | some "default" | some "new" => pure ({} : Options)
    | some "lenient" => pure Options.lenient
    | some b => refuse ("unknown options base " ++ q b)
  let o := match d.get? "omit_nulls" with
    | some (.bool b) => { base with omitNulls := b }
    | _ => base
  return match (d.field "max_depth").asNat? with
    | some n => { o with maxDepth := n }
    | none => o

/-- The document of options. -/
def optionsDoc (o : Options) : Doc :=
  .obj [("ignore_unknown", .bool o.ignoreUnknown), ("omit_nulls", .bool o.omitNulls),
        ("max_depth", .nat o.maxDepth)]

/-- Writes the option fields a document gives. -/
def updateOptions (o : Options) (d : Doc) : Options :=
  let o := match d.get? "ignore_unknown" with
    | some (.bool b) => { o with ignoreUnknown := b }
    | _ => o
  let o := match d.get? "omit_nulls" with
    | some (.bool b) => { o with omitNulls := b }
    | _ => o
  match (d.field "max_depth").asNat? with
  | some n => { o with maxDepth := n }
  | none => o

/-- The paths of a context. -/
def pathsDoc (ctx : Context) : Doc :=
  .obj [("view", .str ctx.viewPath), ("model", Doc.strs ctx.modelPath), ("depth", .nat ctx.depth)]

/-- The document of a frame. -/
def Setup.frameDoc (f : Frame) : Setup Doc := do
  return .obj [("name", Doc.opt (f.name.map .str)), ("type", Doc.opt (f.modelType.map (.str ·.name))),
               ("model", ← Setup.show f.model)]

/-- Reads a frame. -/
def readFrame (types : Types) (d : Doc) : Setup Frame := do
  let .obj _ := d | Setup.refuse "missing argument frame"
  let t ← match d.get? "type" with
    | some (.str n) => some <$> Setup.ofOutcome (findType types n)
    | _ => pure none
  let f ← match d.get? "named", d.get? "indexed", d.get? "keyed" with
    | some n, _, _ => pure (Frame.named n.asStr? t)
    | none, some i, _ =>
      match i.asNat? with
      | some i => pure (Frame.indexed i t)
      | none => Setup.refuse "indexed must be a non-negative integer"
    | none, none, some k => (Frame.keyed · t) <$> Setup.ofOutcome (readScalar k)
    | none, none, none => pure { modelType := t }
  match d.get? "model" with
  | some m => return { f with model := ← readValue types m }
  | none => return f

/-- The staged entity of a type with the given scalar properties, in the order written. -/
def readProbe (t : ModelType) (d : Doc) : Outcome Entity := do
  let .obj fields := d | return { type := t }
  fields.foldlM (fun (e : Entity) (n, v) => do return e.put n (.value (← readScalar v))) { type := t }

/-- One step on a context: the answer and the context after it. -/
def contextStep (types : Types) (ctx : Context) (step : Doc) : Setup (Doc × Context) := do
  let op := step.items
  let name ← Setup.ofOutcome (argStr op 0 "step")
  let text (i : Nat) (what : String) : Setup String := Setup.ofOutcome (argStr op i what)
  let engine {α : Type} (m : Run α) (k : α → Setup Doc) : Setup Doc := do
    match ← Setup.engine m with
    | .ok a => k a
    | .error e => throw (viewFault e)
  match name with
  | "push" =>
    let ctx := ctx.push (← readFrame types (arg op 1))
    return (pathsDoc ctx, ctx)
  | "pop" =>
    let (f, ctx) := ctx.pop
    let popped ← match f with
      | some f => Setup.frameDoc f
      | none => pure .null
    return (.obj [("popped", popped), ("paths", pathsDoc ctx)], ctx)
  | "frame" =>
    match ctx.frames with
    | f :: _ => return (← Setup.frameDoc f, ctx)
    | [] => return (.null, ctx)
  | "paths" => return (pathsDoc ctx, ctx)
  | "put" =>
    let n ← text 1 "name"
    let some d := op[2]? | Setup.refuse "missing argument value"
    let v ← readValue types d
    return (.null, ctx.putAttribute n v)
  | "attr" =>
    match ctx.attribute? (← text 1 "name") with
    | some v => return (.obj [("found", .bool true), ("value", ← Setup.show v)], ctx)
    | none => return (.obj [("found", .bool false)], ctx)
  | "options" => return (optionsDoc ctx.options, ctx)
  | "set_options" =>
    let ctx := { ctx with options := updateOptions ctx.options (arg op 1) }
    return (optionsDoc ctx.options, ctx)
  | "debug" => return (.str ctx.debugText, ctx)
  | "error" => throw (viewFault (ctx.error (.handler (← text 1 "message"))))
  | "new_instance" =>
    let t ← Setup.ofOutcome (argStr op 1 "type" >>= findType types)
    return (← engine (ctx.newInstance t) fun h => Setup.show (.object h), ctx)
  | "resolve" =>
    let t ← Setup.ofOutcome (argStr op 1 "type" >>= findType types)
    let e ← Setup.ofOutcome (readProbe t (arg op 2))
    return (← engine (ctx.resolveReference t e) fun h => Setup.show (.object h), ctx)
  | "converter_for" =>
    let k ← Setup.ofOutcome (readKind (arg op 1))
    let v ← Setup.ofOutcome (readScalar (arg op 2))
    match ctx.converterFor k with
    | none => return (.obj [("found", .bool false)], ctx)
    | some c =>
      let shown := match c.toViewValue v with
        | .ok s => scalarDoc s
        | .error e => (conversionFault e).toDoc
      return (.obj [("found", .bool true), ("to_view", shown)], ctx)
  | "scoped" =>
    let inner := ctx.push (← readFrame types (arg op 1))
    let failing := (← text 2 "outcome") == "fail"
    let fields := [("inside", pathsDoc inner), ("after", pathsDoc ctx)]
    let fault := if failing then (viewFault (inner.error (.handler "scoped step failed"))).fields else []
    return (.obj (fields ++ fault), ctx)
  | other => Setup.refuse ("unknown context step " ++ q other)

/-- Runs the steps on a context; a failed step answers its fault and leaves the context. -/
def runContextSteps (types : Types) : List Doc → Context → RunState → List Doc × RunState
  | [], _, s => ([], s)
  | d :: ds, ctx, s =>
    let (answer, ctx, s) := match contextStep types ctx d s with
      | .ok (r, ctx') s' => (Doc.obj [("r", r)], ctx', s')
      | .error f s' => (f.toDoc, ctx, s')
    let (rest, s) := runContextSteps types ds ctx s
    (answer :: rest, s)

/-- `context`: a context built from options and an optional spec, driven step by step. -/
def contextRequest (req : Doc) : Outcome Doc := do
  let types ← readTypes (req.field "types")
  let options ← readContextOptions (req.field "options")
  Setup.outcome do
    let ctx ← match req.get? "context" with
      | some d => readContextWith types options d
      | none => pure { options }
    let (results, s) := runContextSteps types (req.field "steps").items ctx (← get)
    return .obj [("results", .arr results), ("journal", .strs s.journal.toList)]

end GraphViews.Script

import GraphViews.Script.Variables
import GraphViews.Script.Engine
/-!
Sessions: several engine calls over one shared state, the `session` request.

A session builds its named templates first and reads its named models in order; then each
step generates, applies, round-trips or transfers with a fresh context, shows a model or
writes a raw field. The store, the labels and the managers of pinned factories outlive the
steps, so a later step sees what an earlier one did; the journal of a step holds only its
own entries. A template that failed to build answers every step that uses it with its
fault.
-/

namespace GraphViews.Script

/-- Runs a setup and keeps its fault as a result. -/
def Setup.attempt {α : Type} (m : Setup α) : Setup (Outcome α) := fun s =>
  match m s with
  | .ok a s => .ok (.ok a) s
  | .error e s => .ok (.error e) s

/-- The templates of a session by name, each built or with the fault of its build. -/
abbrev Templates := List (String × Outcome Template)

/-- The model a step names, or the value it gives in place. -/
def Setup.stepModel (types : Types) (models : Vars) (d : Doc) : Setup Value :=
  match d with
  | .str n =>
    match models.get? n with
    | some v => pure v
    | none => Setup.refuse ("unknown model " ++ q n)
  | d => readValue types d models.get?

/-- One step of a session: its answer and the named models after it. -/
def sessionStep (types : Types) (templates : Templates) (models : Vars) (step : Doc) :
    Setup (Doc × Vars) := do
  let template : Setup Template := do
    let n ← Setup.ofOutcome (argStr [step.field "template"] 0 "template")
    match templates.lookup n with
    | some r => Setup.ofOutcome r
    | none => Setup.refuse ("unknown template " ++ q n)
  let model (key : String) : Setup Value := Setup.stepModel types models (step.field key)
  let spec := step.field "context"
  match step.str? "do" with
  | some "generate" =>
    let t ← template
    let m ← model "model"
    return (← Setup.generate types t m spec, models)
  | some "apply" =>
    let t ← template
    let m ← model "model"
    return (← Setup.apply types t m (step.field "view") spec, models)
  | some "roundtrip" =>
    let t ← template
    let m ← model "model"
    return (← Setup.roundtrip types t m spec, models)
  | some "apply_new" =>
    let t ← template
    let (answer, result) ← Setup.applyNew types t (step.field "view") spec
    match step.str? "as", result with
    | some n, some v => return (answer, models.set n v)
    | _, _ => return (answer, models)
  | some "transfer" =>
    let t ← template
    let source ← model "from"
    let target ← model "to"
    return (← Setup.transfer types t source target spec, models)
  | some "show" =>
    let m ← model "model"
    return (.obj [("state", ← Setup.show m)], models)
  | some "set" =>
    let label ← Setup.ofOutcome (argStr [step.field "object"] 0 "object")
    let some h := (← get).labels.handle? label | Setup.refuse ("unknown label " ++ q label)
    let f ← Setup.ofOutcome (argStr [step.field "field"] 0 "field")
    let v ← readValue types (step.field "value") models.get?
    Setup.onStore fun st => (st.setField h f v, ())
    return (.obj [("state", ← Setup.show (.object h))], models)
  | some other => Setup.refuse ("unknown session step " ++ q other)
  | none => Setup.refuse "missing argument do"

/-- Runs the steps of a session; a failed step answers its fault and the session goes on. -/
def runSession (types : Types) (templates : Templates) :
    List Doc → Vars → RunState → List Doc × RunState
  | [], _, s => ([], s)
  | d :: ds, models, s =>
    let (answer, models, s) := match sessionStep types templates models d s with
      | .ok (r, models') s' => (r, models', s')
      | .error f s' => (f.toDoc, models, s')
    let (rest, s) := runSession types templates ds models s
    (answer :: rest, s)

/-- `session`: engine calls over shared templates and models. -/
def sessionRequest (req : Doc) : Outcome Doc := Setup.outcome do
  let types ← Setup.ofOutcome (readTypes (req.field "types"))
  let templates ← (req.field "templates").items.mapM fun e => do
    let n ← Setup.ofOutcome (argStr e.items 0 "name")
    return (n, ← Setup.attempt (readTemplate types (arg e.items 1)))
  let readModel (vs : Vars) (e : Doc) : Setup Vars := do
    let n ← Setup.ofOutcome (argStr e.items 0 "name")
    return vs.set n (← readValue types (arg e.items 1) vs.get?)
  let models ← (req.field "models").items.foldlM readModel []
  let (answers, s) := runSession types templates (req.field "steps").items models (← get)
  set s
  return .obj [("steps", .arr answers)]

end GraphViews.Script

import GraphViews.Script.Context
import GraphViews.Script.Events
import GraphViews.Binding.Generate
import GraphViews.Binding.Apply
/-!
Requests that run the engine: generation and application, alone, in sequence, and in
sessions. Every answer carries the recorder's log and the journal; an error adds its fields
to the answer.
-/

namespace GraphViews.Script

/-- The fault of a view error. -/
def viewFault (e : ViewError) : Fault :=
  ⟨(Fault.ofKind "ViewError" e.kind.kindName e.message).fields ++
    [("code", .str e.kind.code.code), ("path", .str e.path), ("model_path", Doc.strs e.modelPath)]⟩

def logEntryDoc : LogEntry → Doc
  | .vetoed p => .strs ["vetoed", p]
  | .visited p k => .strs ["visited", p, k]
  | .created p t l => .strs ["created", p, t, l]
  | .discarded p t l => .strs ["discarded", p, t, l]

/-- Runs the engine inside a setup; its error is a result. -/
def Setup.engine {α : Type} (m : Run α) : Setup (Except ViewError α) := fun s =>
  match m s with
  | .ok a s' => .ok (.ok a) s'
  | .error e s' => .ok (.error e) s'

/-- The log entries from `start` on. -/
def Setup.logSince (start : Nat) : Setup Doc := do
  return .arr (((← get).log.toList.drop start).map logEntryDoc)

/-- The counts of the context's counter under `key`, read and then reset; nothing without a
counter. -/
def Setup.counter (ctx : Context) (key : String) : Setup (List (String × Doc)) := do
  match counterOf ctx with
  | some id =>
    let (c, d) := (← get).counts? id
    modify fun (s : RunState) => s.setCounts id (0, 0)
    return [(key, Doc.obj [("counts", .arr [.nat c, .nat d]), ("after_reset", .arr [.nat 0, .nat 0])])]
  | none => return []

/-- The fields every engine answer ends with: the log since `logStart`, the journal since
`journalStart`, and the counts of the context's counter if it has one. -/
def Setup.trailer (ctx : Context) (logStart journalStart : Nat) : Setup (List (String × Doc)) := do
  let s ← get
  let base : List (String × Doc) :=
    [("log", ← Setup.logSince logStart), ("journal", .strs (s.journal.toList.drop journalStart))]
  return base ++ (← Setup.counter ctx "counter")

/-- The answer of a request whose template fails to build is that error alone. -/
def answerSetup (m : Setup Doc) : Outcome Doc := m.outcome

/-- The journal entries from `start` on. -/
def Setup.journalSince (start : Nat) : Setup Doc := do
  return .strs ((← get).journal.toList.drop start)

/-- Generates the view of a model with a context read from its spec: the view, the log and
the journal of the call. -/
def Setup.generate (types : Types) (t : Template) (model : Value) (spec : Doc) : Setup Doc := do
  let s ← get
  let ctx ← readContext types spec
  let main := match ← Setup.engine (t.generate ctx model) with
    | .ok v => [("view", viewDoc v)]
    | .error e => (viewFault e).fields
  return .obj (main ++ (← Setup.trailer ctx s.log.size s.journal.size))

/-- Applies a view to a model with a context read from its spec: the state of the model
afterwards, also after an error, with the log and the journal of the call. -/
def Setup.apply (types : Types) (t : Template) (model : Value) (view : Doc) (spec : Doc) :
    Setup Doc := do
  let s ← get
  let ctx ← readContext types spec
  let view ← Setup.ofOutcome (readEvents view)
  let r ← Setup.engine (t.apply ctx view model)
  let state ← Setup.show model
  let main := [("state", state)] ++ match r with
    | .ok _ => []
    | .error e => (viewFault e).fields
  return .obj (main ++ (← Setup.trailer ctx s.log.size s.journal.size))

/-- Applies a view to a new target with a context read from its spec: the answer and the
new value, if there is one. -/
def Setup.applyNew (types : Types) (t : Template) (view : Doc) (spec : Doc) :
    Setup (Doc × Option Value) := do
  let s ← get
  let ctx ← readContext types spec
  let view ← Setup.ofOutcome (readEvents view)
  let (main, result) ← match ← Setup.engine (t.applyNew ctx view) with
    | .ok v => do pure ([("result", ← Setup.show v)], some v)
    | .error e => pure ((viewFault e).fields, none)
  return (.obj (main ++ (← Setup.trailer ctx s.log.size s.journal.size)), result)

/-- Two views are the same: equal events in the same order. -/
def sameView (a b : View) : Bool := a.toList == b.toList

/-- A model's view, applied to a new target, compared with the model, and generated again;
each call with a fresh context from the one spec. An error ends the sequence and keeps what
was gathered. -/
def Setup.roundtrip (types : Types) (t : Template) (model : Value) (spec : Doc) : Setup Doc := do
  let start ← get
  let ctx ← readContext types spec
  let r ← Setup.engine (t.generate ctx model)
  let genLog ← Setup.logSince start.log.size
  let first ← Setup.counter ctx "counter"
  let finish (fields : List (String × Doc)) : Setup Doc := do
    return .obj (fields ++ [("log", genLog), ("journal", ← Setup.journalSince start.journal.size)] ++ first)
  match r with
  | .error e => finish (viewFault e).fields
  | .ok view =>
    let applyStart := (← get).log.size
    let ctx2 ← readContext types spec
    let r2 ← Setup.engine (t.applyNew ctx2 view)
    let applyLog ← Setup.logSince applyStart
    let second ← Setup.counter ctx2 "apply_counter"
    let base := [("view", viewDoc view), ("apply_log", applyLog)] ++ second
    match r2 with
    | .error e => finish (base ++ (viewFault e).fields)
    | .ok copy =>
      let copyDoc ← Setup.show copy
      let equal := (← get).store.equal copy model
      let ctx3 ← readContext types spec
      let r3 ← Setup.engine (t.generate ctx3 copy)
      let base := base ++ [("copy", copyDoc), ("equal", .bool equal)]
      match r3 with
      | .error e => finish (base ++ (viewFault e).fields)
      | .ok again => finish (base ++ [("same_view", .bool (sameView view again))])

/-- The view of one model applied to another, each call with a fresh context from the one
spec. -/
def Setup.transfer (types : Types) (t : Template) (source target : Value) (spec : Doc) :
    Setup Doc := do
  let start ← get
  let ctx ← readContext types spec
  let r ← Setup.engine (t.generate ctx source)
  let genLog ← Setup.logSince start.log.size
  let first ← Setup.counter ctx "counter"
  let finish (fields : List (String × Doc)) : Setup Doc := do
    return .obj (fields ++ [("log", genLog), ("journal", ← Setup.journalSince start.journal.size)] ++ first)
  match r with
  | .error e => finish (viewFault e).fields
  | .ok view =>
    let applyStart := (← get).log.size
    let ctx2 ← readContext types spec
    let r2 ← Setup.engine (t.apply ctx2 view target)
    let applyLog ← Setup.logSince applyStart
    let second ← Setup.counter ctx2 "apply_counter"
    let state ← Setup.show target
    let base := [("view", viewDoc view), ("apply_log", applyLog), ("state", state)] ++ second
    match r2 with
    | .error e => finish (base ++ (viewFault e).fields)
    | .ok _ => finish base

/-- `generate`: the view of a model. -/
def generateRequest (req : Doc) : Outcome Doc := answerSetup do
  let types ← Setup.ofOutcome (readTypes (req.field "types"))
  let t ← readTemplate types (req.field "template")
  let model ← readValue types (req.field "model")
  Setup.generate types t model (req.field "context")

/-- `apply`: a view applied to a model. -/
def applyRequest (req : Doc) : Outcome Doc := answerSetup do
  let types ← Setup.ofOutcome (readTypes (req.field "types"))
  let t ← readTemplate types (req.field "template")
  let model ← readValue types (req.field "model")
  Setup.apply types t model (req.field "view") (req.field "context")

/-- `apply_new`: a view applied to a new target. -/
def applyNewRequest (req : Doc) : Outcome Doc := answerSetup do
  let types ← Setup.ofOutcome (readTypes (req.field "types"))
  let t ← readTemplate types (req.field "template")
  return (← Setup.applyNew types t (req.field "view") (req.field "context")).1

/-- `roundtrip`: a model's view applied to a new target and generated again. -/
def roundtripRequest (req : Doc) : Outcome Doc := answerSetup do
  let types ← Setup.ofOutcome (readTypes (req.field "types"))
  let t ← readTemplate types (req.field "template")
  let model ← readValue types (req.field "model")
  Setup.roundtrip types t model (req.field "context")

/-- `transfer`: the view of one model applied to another. -/
def transferRequest (req : Doc) : Outcome Doc := answerSetup do
  let types ← Setup.ofOutcome (readTypes (req.field "types"))
  let t ← readTemplate types (req.field "template")
  let source ← readValue types (req.field "from")
  let target ← readValue types (req.field "to")
  Setup.transfer types t source target (req.field "context")

end GraphViews.Script

import GraphViews.Script.Fault
import GraphViews.Event.Stream
/-!
Scripted requests about events: texts of events and views, and driving a reader or a writer
step by step.

An event travels as `[kind, name, value, namespace]` with the kinds `BO`, `EO`, `BA`, `EA`,
`V`, `M` and `D`; only the last three carry a scalar, null when absent. Answers leave out
trailing nulls.
-/

namespace GraphViews.Script

/-- The short code of an event kind. -/
def EventKind.code : EventKind → String
  | .beginObject => "BO"
  | .endObject => "EO"
  | .beginArray => "BA"
  | .endArray => "EA"
  | .value => "V"
  | .metadata => "M"
  | .discriminator => "D"

/-- The event kind of a short code. -/
def readEventKind (d : Doc) : Outcome EventKind :=
  match d with
  | .str "BO" => .ok .beginObject
  | .str "EO" => .ok .endObject
  | .str "BA" => .ok .beginArray
  | .str "EA" => .ok .endArray
  | .str "V" => .ok .value
  | .str "M" => .ok .metadata
  | .str "D" => .ok .discriminator
  | .str s => refuse ("unknown event kind " ++ q s)
  | _ => refuse "event kind must be a string"

/-- An optional text: a text or null. -/
def readOptStr (d : Doc) : Option String :=
  match d with
  | .str s => some s
  | _ => none

/-- Reads an event. -/
def readEvent (d : Doc) : Outcome Event := do
  let kind ← readEventKind (d.at? 0 |>.getD .null)
  let name := readOptStr (d.at? 1 |>.getD .null)
  let ns := readOptStr (d.at? 3 |>.getD .null)
  let value ← match kind with
    | .value | .metadata | .discriminator => some <$> readScalar (d.at? 2 |>.getD .null)
    | _ => pure none
  return ⟨kind, name, ns, value⟩

/-- Reads the events of a request field. -/
def readEvents (d : Doc) : Outcome View :=
  match d with
  | .arr xs => (xs.mapM readEvent).map List.toArray
  | _ => refuse "missing events"

/-- Drops trailing nulls of an array. -/
def dropTrailingNulls (xs : List Doc) : List Doc :=
  (xs.reverse.dropWhile (fun d => match d with | .null => true | _ => false)).reverse

/-- The document of an event. -/
def eventDoc (e : Event) : Doc :=
  .arr (dropTrailingNulls [.str (EventKind.code e.kind), Doc.opt (e.name.map .str),
    scalarOptDoc e.value, Doc.opt (e.ns.map .str)])

/-- The document of a view. -/
def viewDoc (v : View) : Doc := .arr (v.toList.map eventDoc)

/-- The fault of a stream error. -/
def streamFault (e : StreamError) : Fault := .ofKind "StreamError" e.kindName e.message

/-- `view_text`: the text of a view and of each of its events. -/
def viewTextRequest (req : Doc) : Outcome Doc := do
  let v ← readEvents (req.field "events")
  return .obj [("text", .str (viewText v)), ("events", .strs (v.toList.map Event.text))]

/-- `events`: what each event reports about itself. -/
def eventsRequest (req : Doc) : Outcome Doc := do
  let v ← readEvents (req.field "events")
  let info (e : Event) : Doc := .obj [
    ("kind", .str e.kind.text), ("begin", .bool e.kind.isBegin), ("end", .bool e.kind.isEnd),
    ("complement", Doc.opt (e.kind.complement.map (.str ·.text))),
    ("null_value", .bool e.isNullValue), ("name", Doc.opt (e.name.map .str)),
    ("ns", Doc.opt (e.ns.map .str)), ("text", .str e.text)]
  return .obj [("events", .arr (v.toList.map info)), ("len", .nat v.size),
    ("empty", .bool v.isEmpty), ("same", .bool true)]

/-- The nesting limit of a request, 256 when absent. -/
def readMaxDepth (req : Doc) : Nat := ((req.get? "max_depth").bind Doc.asNat?).getD 256

/-- Runs one reader step: the fields it answers, or its error. -/
def readerStep (op : Doc) : Outcome (Reading (List (String × Doc))) := do
  match op.at? 0 with
  | some (.str "next") => return do
      let e ← Reading.next "next"
      let c ← get
      return [("event", eventDoc e), ("ns", Doc.opt ((c.effectiveNamespace e).map .str))]
  | some (.str "peek") => return do
      return [("event", Doc.opt ((← get).peek.map eventDoc))]
  | some (.str "expect") =>
    let k ← readEventKind (op.at? 1 |>.getD .null)
    return do
      let e ← Reading.expect k k.text
      return [("event", eventDoc e)]
  | some (.str "skip") => return do
      Reading.skip "skip"
      return []
  | some (.str "subtree") => return do
      let v ← Reading.subtree "subtree"
      return [("view", viewDoc v)]
  | some (.str "finish") => return do
      Reading.finish
      return []
  | some (.str "namespace") => return do
      return [("ns", Doc.opt ((← get).innerNamespace.map .str))]
  | some (.str s) => refuse ("unknown reader step " ++ q s)
  | _ => refuse "missing argument step"

/-- `reader`: a cursor driven step by step; errors do not stop it. -/
def readerRequest (req : Doc) : Outcome Doc := do
  let v ← readEvents (req.field "events")
  let start : Cursor := { events := v, maxDepth := readMaxDepth req }
  let (results, _) := (req.field "ops").items.foldl (fun (acc : List Doc × Cursor) op =>
    let (done, c) := acc
    let after (c : Cursor) (fields : List (String × Doc)) : Doc :=
      .obj (fields ++ [("pos", .nat c.pos), ("depth", .nat c.depth), ("empty", .bool c.isEmpty)])
    match readerStep op with
    | .error f => (done ++ [f.toDoc], c)
    | .ok step =>
      match step.run c with
      | .ok fields c' => (done ++ [after c' fields], c')
      | .error e c' => (done ++ [after c' (streamFault e).fields], c')) ([], start)
  return .obj [("results", .arr results)]

/-- `writer`: events pushed one by one; errors do not stop the pushes. -/
def writerRequest (req : Doc) : Outcome Doc := do
  let v ← readEvents (req.field "events")
  let detail := req.flag "detail"
  let (pushes, w) := v.toList.foldl (fun (acc : List Doc × Writer) e =>
    let (done, w) := acc
    let (w', r) := w.step e
    match r with
    | .ok () => (done ++ [.obj ([("depth", .nat w'.depth), ("len", .nat w'.events.size)] ++
        (if detail then [("empty", .bool w'.events.isEmpty)] else []))], w')
    | .error err => (done ++ [(streamFault err).toDoc], w')) ([], { maxDepth := readMaxDepth req })
  let finish := match w.finish with
    | .ok view => .obj [("view", viewDoc view)]
    | .error err => (streamFault err).toDoc
  return .obj [("pushes", .arr pushes), ("finish", finish)]

end GraphViews.Script

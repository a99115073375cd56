import GraphViews.Script.Scalars
import GraphViews.Script.Events
import GraphViews.Script.Engine
import GraphViews.Script.Variables
import GraphViews.Script.Json
import GraphViews.Script.Entities
import GraphViews.Script.Accessors
import GraphViews.Script.Frames
import GraphViews.Script.Session
/-!
Answers to scripted requests.

`answer` reads the operation named by a request and answers it with a document; a malformed
request is answered by its fault.
-/

namespace GraphViews.Script

/-- The answer to one request. -/
def answer (req : Doc) : Doc :=
  let outcome : Outcome Doc :=
    match req.str? "op" with
    | some "coerce" => coerceRequest req
    | some "convert" => convertRequest req
    | some "datetime" => datetimeRequest req
    | some "display" => displayRequest req
    | some "scalar" => scalarRequest req
    | some "error_codes" => .ok errorCodesAnswer
    | some "view_text" => viewTextRequest req
    | some "events" => eventsRequest req
    | some "reader" => readerRequest req
    | some "writer" => writerRequest req
    | some "type_info" => typeInfoRequest req
    | some "template_info" => templateInfoRequest req
    | some "discriminator" => discriminatorRequest req
    | some "equals" => equalsRequest req
    | some "generate" => generateRequest req
    | some "apply" => applyRequest req
    | some "apply_new" => applyNewRequest req
    | some "roundtrip" => roundtripRequest req
    | some "transfer" => transferRequest req
    | some "model" => modelRequest req
    | some "entity" => entityRequest req
    | some "accessor" => accessorRequest req
    | some "context" => contextRequest req
    | some "session" => sessionRequest req
    | some other => refuse ("unknown op " ++ q other)
    | none => refuse "missing op"
  match outcome with
  | .ok d => d
  | .error f => f.toDoc

/-- The answer to one request line, both as JSON text; a line that is not JSON is answered
by a request fault. -/
def answerText (line : String) : String :=
  match Doc.parse line with
  | .ok req => (answer req).render
  | .error e => (Fault.request e).toDoc.render

end GraphViews.Script

import GraphViews.Script.Fault
import GraphViews.ErrorCode
/-!
Scripted requests about scalars: coercion, conversion, instants, display texts, the ways of
building a scalar, and the table of error codes.
-/

namespace GraphViews.Script

/-- The converter of a name in a request. -/
def readConverter (d : Doc) : Outcome Converter :=
  match d with
  | .str "datetime" => .ok .instant
  | .str "cents" => .ok .cents
  | .str "upper" => .ok .upper
  | .str "text" => .ok .text
  | .str "fail" => .ok .refuse
  | .str s => refuse ("unknown converter " ++ q s)
  | _ => refuse "missing argument converter"

/-- The answer of a conversion outcome: the value, or the error. -/
def conversionAnswer (r : Except ConversionError Scalar) (extra : List (String × Doc)) : Doc :=
  match r with
  | .ok v => .obj ([("value", scalarDoc v)] ++ extra)
  | .error e => (conversionFault e).toDoc

/-- `coerce`: a scalar coerced to a kind. -/
def coerceRequest (req : Doc) : Outcome Doc := do
  let v ← readScalar (req.field "value")
  let k ← readKind (req.field "to")
  return conversionAnswer (coerce v k) []

/-- `convert`: a scalar through a named converter, in either direction. -/
def convertRequest (req : Doc) : Outcome Doc := do
  let c ← readConverter (req.field "converter")
  let v ← readScalar (req.field "value")
  let r := if req.str? "dir" == some "to_model" then c.toModelValue v else c.toViewValue v
  let supports := Doc.strs ((ScalarKind.all.filter c.supports).map ScalarKind.text)
  let extra := [("supports", supports)] ++
    (if req.flag "debug" then [("debug", .str c.debugText)] else [])
  return match r with
    | .ok v => .obj ([("value", scalarDoc v)] ++ extra)
    | .error e => (conversionFault e).toDoc

/-- `datetime`: an RFC 3339 text read and written back, or microseconds written. -/
def datetimeRequest (req : Doc) : Outcome Doc := do
  match req.str? "text" with
  | some t =>
    match Time.parseInstant t with
    | .ok m => return .obj [("micros", .int m), ("text", .str (Time.formatInstant m))]
    | .error e => return (conversionFault (.dateTime e)).toDoc
  | none =>
    match (req.field "micros").asInt? with
    | some m => return .obj [("text", .str (Time.formatInstant m))]
    | none => refuse "missing argument micros"

/-- `display`: the display text and kind of a scalar. -/
def displayRequest (req : Doc) : Outcome Doc := do
  let v ← readScalar (req.field "value")
  return .obj [("text", .str v.text), ("kind", Doc.opt (v.kind.map (.str ·.text)))]

/-- Builds a scalar the way a request names. -/
def buildScalar (via : String) (d : Doc) : Outcome Scalar :=
  match via with
  | "scalar" => readScalar d
  | "bool" => match d with
    | .bool b => .ok (.bool b)
    | _ => refuse "not a bool"
  | "i64" => int64 d
  | "i32" => match d.asInt? with
    | some i => if -2147483648 ≤ i && i ≤ 2147483647 then .ok (.int (Int64.ofInt i))
                else refuse "not an i32"
    | none => refuse "not an i64"
  | "f64" => match d with
    | .int _ | .real .. => .ok (.float d.toFloat)
    | .str s => match Number.readFloat s with
      | some x => .ok (.float x)
      | none => refuse ("bad float text " ++ q s)
    | other => readScalar other
  | "str" | "string" => match d with
    | .str s => .ok (.string s)
    | _ => refuse "value must be a string"
  | "option" => match d with
    | .null => .ok .null
    | .str s => .ok (.string s)
    | .bool b => .ok (.bool b)
    | other => int64 other
  | other => refuse ("unknown via " ++ q other)
where
  int64 (d : Doc) : Outcome Scalar :=
    match d with
    | .int m =>
      if Number.int64Min ≤ m && m ≤ Number.int64Max then .ok (.int (Int64.ofInt m))
      else refuse "not an i64"
    | _ => refuse "not an i64"

/-- `scalar`: a scalar built one way, with what its helpers report. -/
def scalarRequest (req : Doc) : Outcome Doc := do
  let via := (req.str? "via").getD "scalar"
  let s ← buildScalar via (req.field "value")
  return .obj [
    ("scalar", scalarDoc s),
    ("kind", Doc.opt (s.kind.map (.str ·.text))),
    ("null", .bool s.isNull),
    ("as_str", Doc.opt (s.asString?.map .str)),
    ("as_int", Doc.opt (s.asInt?.map (.int ·.toInt))),
    ("as_float", Doc.opt (s.asFloat?.map (scalarDoc ∘ .float))),
    ("as_bool", Doc.opt (s.asBool?.map .bool)),
    ("text", .str s.text),
    ("value_shape", .str (if s.isNull then "null" else "scalar")),
    ("value_null", .bool s.isNull),
    ("value_scalar", scalarDoc s)]

/-- `error_codes`: every family with its code. -/
def errorCodesAnswer : Doc :=
  .arr (ErrorCode.all.map fun c => .arr [.str c.name, .str c.code])

end GraphViews.Script

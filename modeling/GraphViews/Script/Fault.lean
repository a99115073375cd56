import GraphViews.Script.Doc
import GraphViews.Convert
/-!
Faults of scripted requests.

A request that cannot be answered normally is answered by the fields of a fault: the family
of the error, the name of its kind, its message, and for some families more fields. A
malformed request is its own family, with a message only.
-/

namespace GraphViews.Script

/-- The fields of an error answer. -/
structure Fault where
  fields : List (String × Doc)
deriving Inhabited

namespace Fault

/-- A request that does not fit the scripting interface. -/
def request (message : String) : Fault :=
  ⟨[("error", .str "DriverError"), ("message", .str message)]⟩

/-- An error of a family, with the name of its kind and its message. -/
def ofKind (family kind message : String) : Fault :=
  ⟨[("error", .str family), ("kind", .str kind), ("message", .str message)]⟩

/-- The answer of a fault. -/
def toDoc (f : Fault) : Doc := .obj f.fields

end Fault

/-- The fault of a conversion error. -/
def conversionFault (e : ConversionError) : Fault :=
  .ofKind "ConversionError" e.kindName e.message

/-- The outcome of a scripted step. -/
abbrev Outcome := Except Fault

/-- Fails with a malformed-request fault. -/
def refuse {α : Type} (message : String) : Outcome α := .error (.request message)

/-- A quoted name inside a request message. -/
def q (s : String) : String := Text.quoted s

def argStr (op : List Doc) (i : Nat) (what : String) : Outcome String :=
  match op[i]? with
  | some (.str s) => .ok s
  | _ => refuse ("missing argument " ++ what)

def arg (op : List Doc) (i : Nat) : Doc := op[i]?.getD .null

/-- Reads a document as a scalar. -/
def readScalar (d : Doc) : Outcome Scalar :=
  match d with
  | .null => .ok .null
  | .bool b => .ok (.bool b)
  | .int m =>
    if Number.int64Min ≤ m && m ≤ Number.int64Max then .ok (.int (Int64.ofInt m))
    else .ok (.float d.toFloat)
  | .real .. => .ok (.float d.toFloat)
  | .str s => .ok (.string s)
  | .obj [("float", x)] => Scalar.float <$> readFloatDoc x
  | .obj [("date", n)] =>
    match n.asInt? with
    | some i => if Number.int64Min ≤ i && i ≤ Number.int64Max then .ok (.date (Int64.ofInt i))
                else refuse "not an i64"
    | none => refuse "not an i64"
  | _ => refuse "value must be a scalar"
where
  /-- A double given as a number or in the reading grammar. -/
  readFloatDoc : Doc → Outcome Float
    | d@(.int _) | d@(.real ..) => .ok d.toFloat
    | .str s =>
      match Number.readFloat s with
      | some x => .ok x
      | none => refuse ("bad float text " ++ q s)
    | _ => refuse "not a float"

/-- A scalar kind named in a request. -/
def readKind (d : Doc) : Outcome ScalarKind :=
  match d with
  | .str s =>
    match ScalarKind.ofText? s with
    | some k => .ok k
    | none => refuse ("unknown scalar kind " ++ q s)
  | _ => refuse "missing argument kind"

end GraphViews.Script

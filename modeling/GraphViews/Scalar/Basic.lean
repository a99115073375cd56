import GraphViews.Time.Rfc3339
/-!
Scalars.

A scalar is the primitive carried by view events and stored in object fields: null, a
boolean, a 64-bit integer, a double, a text, or an instant (microseconds since the epoch).

Equality of scalars is by kind and payload, with doubles compared as numbers: NaN differs
from itself and the two zeros are equal. `Scalar.text` is the display form (null is `null`,
doubles in the plain style, instants in RFC 3339); `Scalar.debugText` names the kind around
the payload (`Int(5)`, `String("s")`, `Float(1.0)`).
-/

namespace GraphViews

open GraphViews.Number

/-- Kinds of scalar values. -/
inductive ScalarKind where
  | bool
  | int
  | float
  | string
  | date
deriving Repr, DecidableEq, Inhabited

/-- Every kind, in declaration order. -/
def ScalarKind.all : List ScalarKind := [.bool, .int, .float, .string, .date]

/-- The name of a kind: `bool`, `int`, `float`, `string`, `date`. -/
def ScalarKind.text : ScalarKind → String
  | .bool => "bool"
  | .int => "int"
  | .float => "float"
  | .string => "string"
  | .date => "date"

/-- The constructor name of a kind: `Bool`, `Int`, `Float`, `String`, `Date`. -/
def ScalarKind.debugText : ScalarKind → String
  | .bool => "Bool"
  | .int => "Int"
  | .float => "Float"
  | .string => "String"
  | .date => "Date"

/-- The kind with a given name. -/
def ScalarKind.ofText? (s : String) : Option ScalarKind :=
  ScalarKind.all.find? (·.text == s)

/-- A primitive value. -/
inductive Scalar where
  | null
  | bool (b : Bool)
  | int (i : Int64)
  | float (x : Float)
  | string (s : String)
  | date (micros : Int64)
deriving Inhabited

namespace Scalar

/-- The kind of a scalar; none for null. -/
def kind : Scalar → Option ScalarKind
  | null => none
  | bool _ => some .bool
  | int _ => some .int
  | float _ => some .float
  | string _ => some .string
  | date _ => some .date

/-- Equality by kind and payload; doubles compare as numbers. -/
def beq : Scalar → Scalar → Bool
  | null, null => true
  | bool a, bool b => a == b
  | int a, int b => a == b
  | float a, float b => a == b
  | string a, string b => a == b
  | date a, date b => a == b
  | _, _ => false

instance : BEq Scalar := ⟨Scalar.beq⟩

def isNull : Scalar → Bool
  | null => true
  | _ => false

def asString? : Scalar → Option String
  | string s => some s
  | _ => none

def asInt? : Scalar → Option Int64
  | int i => some i
  | _ => none

def asBool? : Scalar → Option Bool
  | bool b => some b
  | _ => none

end Scalar

/-- The double nearest to an integer. -/
def floatOfInt (i : Int) : Float := nearest (i < 0) i.natAbs 0

/-- The integer value of a finite double without a fraction. -/
def intOfFloat? (x : Float) : Option Int :=
  if x.isNaN || x.isInf then none
  else
    let bits := x.toBits
    let b := Binary.ofBits bits
    let neg := bits >>> 63 == 1
    let magnitude : Option Nat :=
      if b.q ≥ 0 then some (b.m * Nat.pow 2 b.q.toNat)
      else if b.m % Nat.pow 2 (-b.q).toNat == 0 then some (b.m / Nat.pow 2 (-b.q).toNat) else none
    magnitude.map (fun n => if neg then -(n : Int) else n)

namespace Scalar

/-- The number of a numeric scalar: a double as it is, an integer rounded to the nearest
double. -/
def asFloat? : Scalar → Option Float
  | float x => some x
  | int i => some (floatOfInt i.toInt)
  | _ => none

/-- The display text of a scalar. -/
def text : Scalar → String
  | null => "null"
  | bool b => if b then "true" else "false"
  | int i => intText i.toInt
  | float x => FloatStyle.plain.render x
  | string s => s
  | date m => Time.formatInstant m.toInt

/-- The debug text of a scalar: the kind's constructor around the payload. -/
def debugText : Scalar → String
  | null => "Null"
  | bool b => "Bool(" ++ (if b then "true" else "false") ++ ")"
  | int i => "Int(" ++ intText i.toInt ++ ")"
  | float x => "Float(" ++ FloatStyle.detailed.render x ++ ")"
  | string s => "String(" ++ Text.quoted s ++ ")"
  | date m => "Date(" ++ intText m.toInt ++ ")"

end Scalar

end GraphViews

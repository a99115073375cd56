import GraphViews.Scalar.Basic
/-!
Coercion between scalar kinds.

`coerce v k` bridges the common kinds without any converter. Null and a value of kind `k`
pass unchanged. Integers become doubles (nearest); doubles become integers only when they
are whole and within the 64-bit range; instants and integers trade their number; texts are
read, after trimming white space, as integers, doubles or `true`/`false`, and untrimmed as
RFC 3339 instants; and every scalar becomes a text through its display form. Anything else
fails with `ConversionError.unconvertible`.
-/

namespace GraphViews

/-- A value that could not be converted. -/
inductive ConversionError where
  /-- the display text of the value, and the kind asked for -/
  | unconvertible (value : String) (target : ScalarKind)
  | dateTime (e : Time.DateTimeError)
  /-- a coercion of one property shape into another did not apply -/
  | coercion (coercion : String) (found : String)
  | custom (message : String)
deriving Repr

namespace ConversionError

/-- The message of a conversion error. -/
def message : ConversionError → String
  | unconvertible v t => "cannot convert " ++ Text.quoted v ++ " to " ++ t.text
  | dateTime e => e.message
  | coercion c f => "cannot coerce " ++ f ++ " through " ++ c
  | custom m => m

/-- The name of the kind of error. -/
def kindName : ConversionError → String
  | unconvertible .. => "Unconvertible"
  | dateTime _ => "DateTime"
  | coercion .. => "Coercion"
  | custom _ => "Custom"

end ConversionError

/-- A text without white space at either end. -/
def trimWhiteSpace (s : String) : String :=
  String.ofList ((s.toList.dropWhile Text.isWhiteSpace).reverse.dropWhile Text.isWhiteSpace).reverse

/-- The range of doubles that convert to 64-bit integers: `[-2^63, 2^63)`. -/
def fitsInt64 (i : Int) : Bool := Number.int64Min ≤ i && i ≤ Number.int64Max

/-- Coerces a scalar to a kind by the default rules. -/
def coerce (value : Scalar) (target : ScalarKind) : Except ConversionError Scalar :=
  let fail : Except ConversionError Scalar := .error (.unconvertible value.text target)
  if value.kind.all (· == target) then .ok value
  else match value, target with
    | .int v, .float => .ok (.float (floatOfInt v.toInt))
    | .float x, .int =>
      match intOfFloat? x with
      | some i => if fitsInt64 i then .ok (.int (Int64.ofInt i)) else fail
      | none => fail
    | .date v, .int => .ok (.int v)
    | .int v, .date => .ok (.date v)
    | .string s, .int =>
      match Number.readInt64 (trimWhiteSpace s) with
      | some i => .ok (.int i)
      | none => fail
    | .string s, .float =>
      match Number.readFloat (trimWhiteSpace s) with
      | some x => .ok (.float x)
      | none => fail
    | .string s, .bool =>
      let t := trimWhiteSpace s
      if t == "true" then .ok (.bool true)
      else if t == "false" then .ok (.bool false)
      else fail
    | .string s, .date =>
      match Time.parseInstant s with
      | .ok m => .ok (.date (Int64.ofInt m))
      | .error e => .error (.dateTime e)
    | other, .string => .ok (.string other.text)
    | _, _ => fail

end GraphViews

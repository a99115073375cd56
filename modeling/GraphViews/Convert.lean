import GraphViews.Scalar.Coerce
import GraphViews.Text.Case
/-!
Converters.

A converter maps between the scalar stored in the model and the scalar carried by the view,
for the model kinds it supports. The library knows five:

* `instant`: instants become RFC 3339 texts in the view, and texts are read back;
* `cents`: integers are scaled by one hundred toward the view (wrapping) and divided,
  truncating, toward the model; other scalars are refused;
* `upper`: texts are upper case in the view and lower case in the model;
* `text`: any scalar is shown by its display text, and taken back as it is;
* `refuse`: every value is refused.

`toView` and `toModel` apply an optional converter and leave null alone; `toModel` then
coerces to the target kind when one is given.
-/

namespace GraphViews

/-- The converters of the library. -/
inductive Converter where
  | instant
  | cents
  | upper
  | text
  | refuse
deriving Repr, DecidableEq, Inhabited

namespace Converter

/-- The single model kind a converter is for; none means every kind. -/
def kind? : Converter → Option ScalarKind
  | instant => some .date
  | cents => some .int
  | upper => some .string
  | text => none
  | refuse => none

/-- The converter handles model values of this kind. -/
def supports (c : Converter) (k : ScalarKind) : Bool :=
  match c.kind? with
  | none => true
  | some k' => k' == k

/-- The debug text of a converter. -/
def debugText : Converter → String
  | instant => "DateTimeConverter"
  | c => "FnConverter \x7b kind: " ++
      (match c.kind? with | some k => "Some(" ++ k.debugText ++ ")" | none => "None") ++ " \x7d"

/-- Refusal of the `cents` converter. -/
def notAnInt (v : Scalar) : ConversionError := .custom ("cents: not an int: " ++ v.text)

/-- Model scalar to view scalar. -/
def toViewValue : Converter → Scalar → Except ConversionError Scalar
  | instant, .date m => .ok (.string (Time.formatInstant m.toInt))
  | instant, v => .ok v
  | cents, .int i => .ok (.int (i * 100))
  | cents, v => .error (notAnInt v)
  | upper, .string s => .ok (.string (Text.upperText s))
  | upper, v => .ok v
  | text, v => .ok (.string v.text)
  | refuse, _ => .error (.custom "converter refused")

/-- View scalar to model scalar. -/
def toModelValue : Converter → Scalar → Except ConversionError Scalar
  | instant, .string s =>
    match Time.parseInstant s with
    | .ok m => .ok (.date (Int64.ofInt m))
    | .error e => .error (.dateTime e)
  | instant, v => .ok v
  | cents, .int i => .ok (.int (i / 100))
  | cents, v => .error (notAnInt v)
  | upper, .string s => .ok (.string (Text.lowerText s))
  | upper, v => .ok v
  | text, v => .ok v
  | refuse, _ => .error (.custom "converter refused")

end Converter

/-- Applies a converter toward the view; null and an absent converter leave the value. -/
def toView (c : Option Converter) (v : Scalar) : Except ConversionError Scalar :=
  match c with
  | some c => if v.isNull then .ok v else c.toViewValue v
  | none => .ok v

/-- Applies a converter toward the model, then coerces to the target kind if one is given. -/
def toModel (c : Option Converter) (v : Scalar) (target : Option ScalarKind) :
    Except ConversionError Scalar := do
  let v ← match c with
    | some c => if v.isNull then pure v else c.toModelValue v
    | none => pure v
  match target with
  | some k => coerce v k
  | none => pure v

end GraphViews

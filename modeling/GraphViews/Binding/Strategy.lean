import GraphViews.Binding.Error
import GraphViews.Text.Case
import GraphViews.Model.Type
/-!
Discriminator strategies.

A discriminator event tells which subtype an object of a polymorphic node is. A strategy
classifies each type by a scalar; reading the view, the scalar is resolved back among the
candidate types: the one type it classifies, or an error when none or several match.
-/

namespace GraphViews

/-- How types are classified. -/
inductive Strategy where
  /-- by the type name -/
  | simple
  /-- by the type name in lower case -/
  | lower
  /-- every type as the text `x` -/
  | constant
  /-- by the number of characters of the type name -/
  | length
deriving DecidableEq, Inhabited

namespace Strategy

/-- The name of the discriminator property a template uses when none is given. -/
def defaultName : String := "type"

def classify (s : Strategy) (t : ModelType) : Scalar :=
  match s with
  | simple => .string t.name
  | lower => .string (Text.lowerText t.name)
  | constant => .string "x"
  | length => .int (Int64.ofNat t.name.length)

/-- The one candidate that the value classifies. The first candidate names the base type in
errors. -/
def resolve (s : Strategy) (value : Scalar) (candidates : List ModelType) :
    Except ViewErrorKind ModelType :=
  let base := (candidates.head?.map (·.name)).getD ""
  match candidates.filter (fun c => s.classify c == value) with
  | [t] => .ok t
  | [] => .error (.undefinedDiscriminator base value.text)
  | _ => .error (.ambiguousDiscriminator base value.text)

end Strategy

end GraphViews

/-!
Kinds of template nodes.

A node binds one part of a view to one part of a model. Property nodes read and write a
property of their owner; the others shape the view (envelopes, subtype branches) or carry
data that is no property (discriminators, meta values, spliced views).
-/

namespace GraphViews

/-- The kinds of template nodes. -/
inductive NodeKind where
  | value
  | object
  | arrayOfValues
  | arrayOfObjects
  | mapOfValues
  | mapOfObjects
  | reference
  | subtype
  | envelope
  | discriminator
  | metadata
  | splice
deriving DecidableEq, Inhabited, Repr

namespace NodeKind

/-- The debug text of a kind. -/
def debugText : NodeKind → String
  | value => "Value"
  | object => "Object"
  | arrayOfValues => "ArrayOfValues"
  | arrayOfObjects => "ArrayOfObjects"
  | mapOfValues => "MapOfValues"
  | mapOfObjects => "MapOfObjects"
  | reference => "Reference"
  | subtype => "Subtype"
  | envelope => "Envelope"
  | discriminator => "Discriminator"
  | metadata => "Meta"
  | splice => "Splice"

/-- Kinds whose view is an object or a collection of objects. -/
def isObjectShaped : NodeKind → Bool
  | object | reference | arrayOfObjects | mapOfObjects | envelope | subtype => true
  | _ => false

/-- Kinds bound to a property of their owner. -/
def isProperty : NodeKind → Bool
  | value | object | reference | arrayOfValues | arrayOfObjects | mapOfValues | mapOfObjects =>
    true
  | _ => false

/-- Kinds bound to a collection property. -/
def isMultiValued : NodeKind → Bool
  | arrayOfValues | arrayOfObjects | mapOfValues | mapOfObjects => true
  | _ => false

end NodeKind

end GraphViews

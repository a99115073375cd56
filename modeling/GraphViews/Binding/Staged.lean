import GraphViews.Model.Type
import GraphViews.Event.Basic
/-!
Staged values: what reading a view produces before anything touches the model.

Applying a view runs in two phases. Staging reads the events into staged values, checking
the stream and converting scalars; injection then writes them into the live graph. A staged
object is an entity: a type and its staged properties in the order first read, a property
read again taking the place of the first.
-/

namespace GraphViews

/-- A value read from a view. -/
inductive Staged where
  | value (s : Scalar)
  | entity (type : ModelType) (props : List (String × Staged))
  | null
  | unchanged
  | elements (xs : List Staged)
  | entries (xs : List (Scalar × Staged))
  | metaValue (s : Scalar)
  | spliced (v : View)
deriving Inhabited

/-- A staged object: its type and its properties. -/
structure Entity where
  type : ModelType
  props : List (String × Staged) := []
deriving Inhabited

namespace Staged

def scalar? : Staged → Option Scalar
  | value s => some s
  | _ => none

def entity? : Staged → Option Entity
  | entity t ps => some ⟨t, ps⟩
  | _ => none

def shapeName : Staged → String
  | value _ => "value"
  | entity .. => "object"
  | null => "null"
  | unchanged => "unchanged"
  | elements _ => "array"
  | entries _ => "map"
  | metaValue _ => "meta"
  | spliced _ => "splice"

/-- Equality of staged values: types by name, scalars and events by their equality. -/
def beq : Staged → Staged → Bool
  | value a, value b => a == b
  | entity t ps, entity u qs => t.name == u.name && props ps qs
  | null, null => true
  | unchanged, unchanged => true
  | elements xs, elements ys => items xs ys
  | entries xs, entries ys => keyed xs ys
  | metaValue a, metaValue b => a == b
  | spliced v, spliced w => v.toList == w.toList
  | _, _ => false
where
  props : List (String × Staged) → List (String × Staged) → Bool
    | [], [] => true
    | (n, a) :: ps, (m, b) :: qs => n == m && beq a b && props ps qs
    | _, _ => false
  items : List Staged → List Staged → Bool
    | [], [] => true
    | a :: xs, b :: ys => beq a b && items xs ys
    | _, _ => false
  keyed : List (Scalar × Staged) → List (Scalar × Staged) → Bool
    | [], [] => true
    | (k, a) :: xs, (l, b) :: ys => k == l && beq a b && keyed xs ys
    | _, _ => false

end Staged

namespace Entity

def toStaged (e : Entity) : Staged := .entity e.type e.props

/-- Puts a property: in the place of one of the same name, else at the end. -/
def put (e : Entity) (name : String) (v : Staged) : Entity :=
  if e.props.any (·.1 == name) then
    { e with props := e.props.map fun p => if p.1 == name then (name, v) else p }
  else { e with props := e.props ++ [(name, v)] }

def get? (e : Entity) (name : String) : Option Staged := (e.props.find? (·.1 == name)).map (·.2)

/-- The scalar of a staged value property. -/
def scalar? (e : Entity) (name : String) : Option Scalar := (e.get? name).bind Staged.scalar?

/-- Removes a property and returns it. -/
def take (e : Entity) (name : String) : Option Staged × Entity :=
  match e.props.findIdx? (·.1 == name) with
  | some i => ((e.props[i]?).map (·.2), { e with props := e.props.eraseIdx i })
  | none => (none, e)

def names (e : Entity) : List String := e.props.map (·.1)

def size (e : Entity) : Nat := e.props.length

def isEmpty (e : Entity) : Bool := e.props.isEmpty

def beq (a b : Entity) : Bool := Staged.beq a.toStaged b.toStaged

end Entity

end GraphViews

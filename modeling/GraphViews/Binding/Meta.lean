import GraphViews.Binding.Error
import GraphViews.Model.Store
/-!
Meta handlers.

A meta node writes a value that is no property of the model, computed by its handler, and on
reading hands the value back to the handler.
-/

namespace GraphViews

/-- The meta handlers. -/
inductive MetaHandler where
  /-- the type name of an object model, null otherwise; reading ignores the value -/
  | typeName
  /-- a fixed value; reading ignores the value -/
  | const (v : Scalar)
  /-- refuses both ways -/
  | refuse
  /-- the scalar of a slot of the model object; reading writes the slot -/
  | store (field : String)
  /-- a fixed value, read back by the default, which ignores it -/
  | plain (v : Scalar)
deriving Inhabited

namespace MetaHandler

/-- The value written for a model. -/
def produce (m : MetaHandler) (s : Store) (model : Value) : Except ViewErrorKind Scalar :=
  match m, model with
  | typeName, .object h => .ok (.string (s.typeOf h).name)
  | typeName, _ => .ok .null
  | const v, _ => .ok v
  | refuse, _ => .error (.handler "meta refused")
  | store f, .object h => .ok (s.fieldScalar h f)
  | store _, _ => .ok .null
  | plain v, _ => .ok v

/-- Takes a value read from a view. -/
def consume (m : MetaHandler) (s : Store) (model : Value) (v : Scalar) :
    Except ViewErrorKind Store :=
  match m, model with
  | refuse, _ => .error (.handler "meta refused")
  | store f, .object h => .ok (s.setField h f (.scalar v))
  | _, _ => .ok s

end MetaHandler

end GraphViews

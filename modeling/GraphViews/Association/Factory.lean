import GraphViews.Model.Type
/-!
Association descriptors and manager factories.

An association is named by its descriptor, `Owner.name -> Associate`; a collection at the
root of a template is `Elem. -> Elem`. A manager factory says which descriptors it supports
and makes managers of one capability. Every factory has an identity, under which its count of
managers made is kept, and a label that its journal entries begin with.
-/

namespace GraphViews

/-- What an association manager offers. -/
inductive ManagerCapability where
  | toOne
  | indexed
  | unordered
  | keyed
deriving DecidableEq, Inhabited

def ManagerCapability.text : ManagerCapability → String
  | .toOne => "to-one"
  | .indexed => "indexed"
  | .unordered => "unordered"
  | .keyed => "keyed"

/-- An association: the owner type, the property name and the associate type. -/
structure Descriptor where
  owner : ModelType
  name : String
  associate : ModelType
deriving Inhabited

namespace Descriptor

/-- The descriptor of a collection at the root of a template. -/
def root (t : ModelType) : Descriptor := ⟨t, "", t⟩

def text (d : Descriptor) : String := d.owner.name ++ "." ++ d.name ++ " -> " ++ d.associate.name

end Descriptor

/-- Which descriptors a factory supports. -/
inductive Support where
  | all
  | none
  | only (texts : List String)
deriving Inhabited

/-- A manager factory that journals every call of its managers. -/
structure ManagerFactory where
  id : Nat
  label : String
  capability : ManagerCapability
  support : Support
  key : Option String
  failBegin : Bool
  failEnd : Bool
  describe : Bool
deriving Inhabited

def ManagerFactory.supports (f : ManagerFactory) (d : Descriptor) : Bool :=
  match f.support with
  | .all => true
  | .none => false
  | .only texts => texts.contains d.text

end GraphViews

import GraphViews.Scalar.Basic
/-!
Model types.

A model type has a name, an optional supertype, an abstract flag and the properties it
declares. A property has a name, a data type, the access modes it supports, and a storage:
a plain field of the object, or a computed property read by a getter and written by a setter.

Types are the same when their names are. `properties` lists what an instance of a type sees:
the declarations of the root supertype first, a redeclaration taking the place of the one it
shadows; `property?` finds the most specific declaration of a name.
-/

namespace GraphViews

/-- The declared shape of a property. -/
inductive DataType where
  | scalar (k : ScalarKind)
  | object
  | list
  | set
  | array
  | map (key : ScalarKind)
  | any
deriving Repr, DecidableEq, Inhabited

namespace DataType

/-- Shapes that can back a collection node. -/
def isCollection : DataType → Bool
  | list | set | array => true
  | _ => false

def scalarKind? : DataType → Option ScalarKind
  | scalar k => some k
  | _ => none

/-- The debug text of a data type: `Scalar(Int)`, `Map(String)`, `List`. -/
def debugText : DataType → String
  | scalar k => "Scalar(" ++ k.debugText ++ ")"
  | object => "Object"
  | list => "List"
  | set => "Set"
  | array => "Array"
  | map k => "Map(" ++ k.debugText ++ ")"
  | any => "Any"

end DataType

/-- Which of reading and writing a property supports, or a node asks for. -/
structure AccessModes where
  read : Bool
  write : Bool
deriving Repr, DecidableEq, Inhabited

namespace AccessModes

def none : AccessModes := ⟨false, false⟩
def readOnly : AccessModes := ⟨true, false⟩
def writeOnly : AccessModes := ⟨false, true⟩
def readWrite : AccessModes := ⟨true, true⟩

/-- Every mode of `other` is also a mode of `m`. -/
def contains (m other : AccessModes) : Bool :=
  (m.read || !other.read) && (m.write || !other.write)

/-- `read-write`, `read`, `write` or `no`. -/
def text (m : AccessModes) : String :=
  match m.read, m.write with
  | true, true => "read-write"
  | true, false => "read"
  | false, true => "write"
  | false, false => "no"

/-- The debug text, `AccessModes { read: true, write: false }`. -/
def debugText (m : AccessModes) : String :=
  "AccessModes \x7b read: " ++ (if m.read then "true" else "false") ++ ", write: " ++
    (if m.write then "true" else "false") ++ " \x7d"

end AccessModes

/-- How a computed property is read. -/
inductive Getter where
  /-- the raw field of that name -/
  | field (name : String)
  /-- the field, upper-cased when it holds a text -/
  | upper (name : String)
  /-- the number of elements of a collection field, zero otherwise -/
  | count (name : String)
  /-- the wrapping sum of an integer field over the objects of a collection field -/
  | sum (collection field : String)
deriving Repr, DecidableEq, Inhabited

/-- How a computed property is written. -/
inductive Setter where
  /-- sets the raw field of that name -/
  | field (name : String)
  /-- sets the field, upper-casing a text -/
  | upper (name : String)
  /-- drops the value -/
  | ignore
deriving Repr, DecidableEq, Inhabited

/-- Where a property's value lives. -/
inductive Storage where
  | field
  | computed (getter : Option Getter) (setter : Option Setter)
deriving Repr, DecidableEq, Inhabited

/-- A property declared by a model type. -/
structure PropertyDecl where
  name : String
  dataType : DataType
  modes : AccessModes
  storage : Storage
deriving Repr, DecidableEq, Inhabited

namespace PropertyDecl

/-- A read-write field. -/
def field (name : String) (dataType : DataType) : PropertyDecl :=
  ⟨name, dataType, .readWrite, .field⟩

/-- A computed property; it can be read when it has a getter and written when it has a
setter. -/
def computed (name : String) (dataType : DataType) (g : Option Getter) (s : Option Setter) :
    PropertyDecl :=
  ⟨name, dataType, ⟨g.isSome, s.isSome⟩, .computed g s⟩

def isField (p : PropertyDecl) : Bool :=
  match p.storage with
  | .field => true
  | .computed .. => false

/-- The debug text of a declaration. -/
def debugText (p : PropertyDecl) : String :=
  "PropertyDecl \x7b name: " ++ Text.quoted p.name ++ ", data_type: " ++ p.dataType.debugText ++
    ", modes: " ++ p.modes.debugText ++ ", computed: " ++
    (if p.isField then "false" else "true") ++ " \x7d"

end PropertyDecl

/-- A model type. -/
structure ModelType where
  name : String
  supertype : Option ModelType := none
  isAbstract : Bool := false
  props : List PropertyDecl := []
deriving Inhabited

namespace ModelType

/-- Types are the same when their names are. -/
instance : BEq ModelType := ⟨fun a b => a.name == b.name⟩

/-- The type is `other` or extends it, directly or through its supertypes. -/
def isSubtypeOf (t other : ModelType) : Bool :=
  match t with
  | ⟨name, sup, _, _⟩ =>
    name == other.name ||
      match sup with
      | some s => s.isSubtypeOf other
      | none => false

/-- The names of a type and its supertypes, most specific first. -/
def lineage : ModelType → List String
  | ⟨name, none, _, _⟩ => [name]
  | ⟨name, some s, _, _⟩ => name :: s.lineage

/-- The types of the chain from a type up to its root supertype, most specific first. -/
def chain : ModelType → List ModelType
  | t@⟨_, none, _, _⟩ => [t]
  | t@⟨_, some s, _, _⟩ => t :: s.chain

/-- The most specific declaration of a name: the type's own, else its supertypes'. -/
def property? (t : ModelType) (name : String) : Option PropertyDecl :=
  t.chain.findSome? (fun ty => ty.props.find? (·.name == name))

/-- Adds a declaration to a visible list: it replaces one of the same name in place, or is
appended. -/
def shadow (out : List PropertyDecl) (d : PropertyDecl) : List PropertyDecl :=
  if out.any (·.name == d.name) then out.map (fun p => if p.name == d.name then d else p)
  else out ++ [d]

/-- The properties an instance sees, from the root supertype down, redeclarations in the
place of what they shadow. -/
def properties (t : ModelType) : List PropertyDecl :=
  t.chain.reverse.foldl (fun out ty => ty.props.foldl shadow out) []

/-- The debug text of a type, `ModelType(Name)`. -/
def debugText (t : ModelType) : String := "ModelType(" ++ t.name ++ ")"

end ModelType

end GraphViews

import GraphViews.Template.Error
import GraphViews.Access.Multi
import GraphViews.Binding.Strategy
import GraphViews.Binding.Meta
import GraphViews.Association.Factory
/-!
Template nodes and templates.

A node has its kind, its settings (`NodeInfo`), its children, and for a splice node the
template whose view it splices in. A template is its root node.

`Template.nodes` lists the nodes of a template breadth first: the root, then its children,
then their children, level by level, each level in order. Spliced templates are not part of
the listing.
-/

namespace GraphViews

/-- A property that identifies the associates of a collection, with the accessor that reads
it from a live object. -/
structure IdentityKey where
  name : String
  accessor : Accessor
deriving Inhabited

/-- The settings of a node. -/
structure NodeInfo where
  kind : NodeKind
  name : Option String := none
  ns : Option String := none
  modelType : Option ModelType := none
  accessor : Option Accessor := none
  multi : Option Multi := none
  scalarKind : Option ScalarKind := none
  keyKind : Option ScalarKind := none
  stringKeys : Bool := false
  converter : Option Converter := none
  keyConverter : Option Converter := none
  identity : List IdentityKey := []
  manager : Option ManagerFactory := none
  discriminator : Option Strategy := none
  metaHandler : Option MetaHandler := none
  modes : Option AccessModes := none
  reference : Bool := false
deriving Inhabited

/-- A template node: its settings, its children, and for a splice node the root of the
spliced template with the property it is spliced on (none: the node's own model). -/
structure Node where
  info : NodeInfo
  children : List Node := []
  splice : Option (Node × Option String) := none
deriving Inhabited

namespace Node

def kind (n : Node) : NodeKind := n.info.kind
def name (n : Node) : Option String := n.info.name
def modelType (n : Node) : Option ModelType := n.info.modelType
def accessor (n : Node) : Option Accessor := n.info.accessor
def multi (n : Node) : Option Multi := n.info.multi

/-- The modes of a node: the requested ones, else those of its collection access, else those
of its accessor, else reading and writing. -/
def modes (n : Node) : AccessModes :=
  match n.info.modes, n.info.multi, n.info.accessor with
  | some m, _, _ => m
  | none, some m, _ => m.modes
  | none, none, some a => a.modes
  | none, none, none => .readWrite

/-- Whether a node's name is the given one. -/
def named (n : Node) (s : String) : Bool := n.info.name == some s

/-- The debug text of a node. -/
def debugText (n : Node) : String :=
  "Node \x7b kind: " ++ n.kind.debugText ++ ", name: " ++
    (match n.name with | some s => "Some(" ++ Text.quoted s ++ ")" | none => "None") ++
    ", model_type: " ++
    (match n.modelType with | some t => "Some(" ++ t.debugText ++ ")" | none => "None") ++
    ", children: " ++ toString n.children.length ++ " \x7d"

/-- The nodes `k` levels below a node, in order. -/
def level : Nat → Node → List Node
  | 0, n => [n]
  | k + 1, n => n.children.flatMap (level k)

/-- The number of levels of a tree. -/
def height : Node → Nat
  | ⟨_, children, _⟩ => 1 + heights children
where
  heights : List Node → Nat
    | [] => 0
    | c :: cs => max (height c) (heights cs)

/-- The number of nodes of a tree, spliced templates included. -/
def size : Node → Nat
  | ⟨_, children, splice⟩ => 1 + sizes children + spliceSize splice
where
  sizes : List Node → Nat
    | [] => 0
    | c :: cs => size c + sizes cs
  spliceSize : Option (Node × Option String) → Nat
    | some (t, _) => size t
    | none => 0

/-- The nodes of a tree, breadth first. -/
def breadthFirst (n : Node) : List Node := (List.range n.height).flatMap (level · n)

end Node

/-- A built template. -/
structure Template where
  root : Node
deriving Inhabited

namespace Template

/-- Every node, breadth first. -/
def nodes (t : Template) : List Node := t.root.breadthFirst

/-- The first node, breadth first, with the name. -/
def find? (t : Template) (name : String) : Option Node := t.nodes.find? (·.named name)

def debugText (t : Template) : String := "Template \x7b root: " ++ t.root.debugText ++ " \x7d"

end Template

end GraphViews

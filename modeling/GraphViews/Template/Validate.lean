import GraphViews.Template.Builder
/-!
Validation of built templates.

Every node is checked, breadth first. Property nodes need their accessors and object-shaped
nodes their types. A container with a type checks its subtype branches: each direct branch
is a proper subtype of the container's type, no type has two branches, the discriminator
classifies the container's type and every branch type apart, and an abstract type with
branches has a discriminator. Last, no two children of a container, or of a container and
the branches below it, have the same name.
-/

namespace GraphViews

namespace Node

/-- The name of a node in validation errors: its name, else its type's name. -/
def label (n : Node) : String :=
  match n.name, n.modelType with
  | some s, _ => s
  | none, some t => t.name
  | none, none => "<root>"

/-- The subtype branches below a node, each followed by the branches below it. -/
def subtypes : Node → List Node
  | ⟨_, children, _⟩ => subtypesOf children
where
  subtypesOf : List Node → List Node
    | [] => []
    | c :: cs => (if c.kind == .subtype then c :: subtypes c else []) ++ subtypesOf cs

def checkAccessor (n : Node) : Except TemplateError Unit := do
  let k := n.kind
  if k.isProperty && (n.accessor.isNone || (k.isMultiValued && n.multi.isNone)) then
    throw (.missingAccessor n.label k)
  if k.isObjectShaped && k != .envelope && n.modelType.isNone then
    throw (.missingModelType n.label k)

/-- No name is used twice among the children of a node and of the branches below it. -/
def checkNames (parent : String) : List String → Node → Except TemplateError Unit
  | inherited, ⟨_, children, _⟩ => do
    let step (names : List String) (c : Node) : Except TemplateError (List String) :=
      match c.kind, c.name with
      | .subtype, _ | _, none => pure names
      | _, some s => if names.contains s then throw (.duplicateName parent s) else pure (s :: names)
    let names ← children.foldlM step inherited
    branches names children
where
  branches (names : List String) : List Node → Except TemplateError Unit
    | [] => pure ()
    | c :: cs => do
      if c.kind == .subtype then checkNames parent names c
      branches names cs

def checkContainer (n : Node) : Except TemplateError Unit := do
  let some base := n.modelType | pure ()
  for b in n.children do
    if b.kind == .subtype then
      if let some sub := b.modelType then
        if sub.name == base.name || !sub.isSubtypeOf base then
          throw (.notASubtype base.name sub.name)
  let branches := n.subtypes
  let addBranch (seen : List ModelType) (b : Node) : Except TemplateError (List ModelType) :=
    match b.modelType with
    | none => pure seen
    | some sub => match seen.find? (·.name == sub.name) with
      | some sibling => throw (.ambiguousSubtype base.name sub.name sibling.name)
      | none => pure (seen ++ [sub])
  let seen ← branches.foldlM addBranch []
  match (n.children.find? (·.kind == .discriminator)).bind (·.info.discriminator) with
  | some s =>
    let classify (classified : List (Scalar × ModelType)) (sub : ModelType) :
        Except TemplateError (List (Scalar × ModelType)) :=
      let v := s.classify sub
      match classified.find? (·.1 == v) with
      | some (_, sibling) => throw (.ambiguousSubtype base.name sub.name sibling.name)
      | none => pure (classified ++ [(v, sub)])
    let _ ← seen.foldlM classify [(s.classify base, base)]
  | none =>
    if base.isAbstract && !branches.isEmpty then throw (.missingDiscriminator base.name)
  checkNames n.label [] n

end Node

namespace Template

/-- Checks every node of a tree, breadth first. -/
def validate (root : Node) : Except TemplateError Unit :=
  root.breadthFirst.forM fun n => do
    n.checkAccessor
    if n.kind.isObjectShaped || n.name.isNone then n.checkContainer

end Template

/-- Builds the template: the first recorded error, else the drafts turned into nodes and
validated. -/
def Builder.build (b : Builder) : Except TemplateError Template := do
  if let some e := b.error then throw e
  let (root, _) ← Builder.finalize (b.drafts.size + 1) (b.drafts.map some) 0
  Template.validate root
  pure ⟨root⟩

end GraphViews

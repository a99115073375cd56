import GraphViews.Template.Node
/-!
Building templates.

A builder grows a tree of drafts. Each call adds a draft as a child of the innermost open
container, or changes the draft added or closed last; `build` turns the drafts into nodes,
children first, and validates the tree. A call that fails records the first error, and every
later call is then ignored; `build` reports that error.

Turning a draft into a node checks, in order: the requested access modes against those of
the accessor, that the property's shape fits the kind of node, and for maps that the key kind
is not `float`. It then wraps the accessor (a converter for values, a coercion for arrays),
picks the collection access by the property's shape, and resolves identity names to the
accessors of the value children of those names.
-/

namespace GraphViews

/-- A child of a draft: another draft, or a node of a template built before. -/
inductive Child where
  | draft (index : Nat)
  | built (node : Node)
deriving Inhabited

/-- A node under construction. `info.accessor` is the accessor of the property itself. -/
structure Draft where
  info : NodeInfo
  owner : Option ModelType := none
  children : List Child := []
  identity : List String := []
  inheritedIdentity : Option (List IdentityKey) := none
  splice : Option (Node × Option String) := none
  coercion : Option Char := none
deriving Inhabited

namespace Draft

def kind (d : Draft) : NodeKind := d.info.kind

/-- The name of a draft in errors; the root has none. -/
def label (d : Draft) : String := d.info.name.getD "<root>"

def named (kind : NodeKind) (name : String) : Draft := ⟨{ kind, name := some name }, none, [], [], none, none, none⟩

/-- The shape of the property fits the kind of node. -/
def fits (d : Draft) (t : DataType) : Bool :=
  match d.kind, t with
  | .value, .scalar _ | .value, .any => true
  | .value, _ => false
  | .object, .object | .object, .any | .reference, .object | .reference, .any => true
  | .object, _ | .reference, _ => false
  | .arrayOfValues, _ | .arrayOfObjects, _ => d.coercion.isSome || t.isCollection || t == .any
  | .mapOfValues, .map _ | .mapOfValues, .any | .mapOfObjects, .map _ | .mapOfObjects, .any => true
  | .mapOfValues, _ | .mapOfObjects, _ => false
  | _, _ => true

/-- The requested access modes are among those the accessor supports. -/
def checkModes (d : Draft) : Except TemplateError Unit := do
  if let (some requested, some a) := (d.info.modes, d.info.accessor) then
    let owner := (d.owner.map (·.name)).getD "<root>"
    unless a.modes.contains requested do
      throw (.unsupportedAccessMode owner a.name requested a.modes)

/-- The shape of the property fits the kind of node. -/
def checkShape (d : Draft) : Except TemplateError Unit := do
  if let some a := d.info.accessor then
    unless d.fits a.dataType do throw (.shapeMismatch d.label a.dataType d.kind)

/-- The draft's settings with the accessor wrapped (a converter for values, a coercion for
arrays) and the collection access picked by the property's shape; a map's key kind is not
`float`. -/
def shaped (d : Draft) : Except TemplateError NodeInfo :=
  let info := d.info
  match d.kind, info.accessor with
  | .value, some base =>
    let info := { info with scalarKind := base.dataType.scalarKind? }
    match info.converter with
    | some c => pure { info with accessor := some (.converting base c) }
    | none => pure info
  | .arrayOfValues, some base | .arrayOfObjects, some base =>
    match d.coercion with
    | some sep =>
      let coerced := Accessor.coercing base sep
      pure { info with accessor := some coerced, multi := some (.array coerced) }
    | none =>
      let m : Multi := match base.dataType with
        | .set => .set base
        | .array => .array base
        | _ => .list base
      pure { info with multi := some m }
  | .mapOfValues, some base | .mapOfObjects, some base =>
    let declared := match base.dataType with
      | .map k => k
      | _ => .string
    if declared == .float then throw (.unsupportedKeyKind declared d.kind)
    else pure { info with keyKind := some declared, multi := some (.map base) }
  | _, _ => pure info

/-- The identity keys: the draft's own names, each resolved to the accessor of the value child
of that name, else the identity inherited from a template grafted here. -/
def identityKeys (d : Draft) (info : NodeInfo) (children : List Node) :
    Except TemplateError (List IdentityKey) :=
  if d.identity.isEmpty then pure (d.inheritedIdentity.getD [])
  else d.identity.mapM fun name =>
    match children.find? (fun c => c.kind == .value && c.named name) |>.bind (·.accessor) with
    | some a => pure ⟨name, a⟩
    | none => throw (.unknownProperty ((info.modelType.map (·.name)).getD d.label) name)

/-- The node of a draft with its finished children. -/
def toNode (d : Draft) (children : List Node) : Except TemplateError Node := do
  d.checkModes
  d.checkShape
  let info ← d.shaped
  let identity ← d.identityKeys info children
  let stringKeys := info.keyKind == some .string || info.keyConverter.isSome
  pure ⟨{ info with identity, stringKeys }, children, d.splice⟩

end Draft

/-- A template under construction. -/
structure Builder where
  drafts : Array Draft
  /-- the open containers, innermost first -/
  containers : List Nat
  /-- the draft that modifiers change -/
  last : Nat := 0
  error : Option TemplateError := none
deriving Inhabited

namespace Builder

def rootDraft (kind : NodeKind) (t : DataType) : Draft :=
  { info := { kind, accessor := some (.root t) } }

/-- A template for an object of a type. -/
def forObject (t : ModelType) : Builder :=
  ⟨#[{ rootDraft .object .object with info.modelType := some t }], [0], 0, none⟩

/-- A template for a list of objects of a type. -/
def forArrayOfObjects (t : ModelType) : Builder :=
  ⟨#[{ rootDraft .arrayOfObjects .list with info.modelType := some t }], [0], 0, none⟩

/-- A template for a list of scalars of a kind; it has no container to add to. -/
def forArrayOfValues (k : ScalarKind) : Builder :=
  ⟨#[{ rootDraft .arrayOfValues .list with info.scalarKind := some k }], [], 0, none⟩

/-- Records an error unless one is recorded. -/
def fail (b : Builder) (e : TemplateError) : Builder :=
  if b.error.isSome then b else { b with error := some e }

def draftAt (b : Builder) (i : Nat) : Draft := b.drafts[i]?.getD default

/-- Adds a draft to the innermost open container, and opens it if `enter`. A property draft
gets the accessor of its owner's property of that name. -/
def add (b : Builder) (d : Draft) (enter : Bool) : Builder :=
  if b.error.isSome then b else
  match b.containers with
  | [] => b.fail (.invalidComposition
      ("no open container for " ++ d.kind.debugText ++ " node " ++ d.label))
  | parent :: _ =>
    let p := b.draftAt parent
    let owner := p.info.modelType
    let d := if d.kind == .envelope then { d with info.modelType := owner } else d
    let looked : Except TemplateError Draft :=
      if d.kind.isProperty && d.info.accessor.isNone then
        match owner with
        | none => .error (.missingModelType p.label p.kind)
        | some o =>
          let name := d.info.name.getD ""
          match o.property? name with
          | some decl => .ok { d with info.accessor := some (Accessor.ofDecl decl), owner := some o }
          | none => .error (.unknownProperty o.name name)
      else .ok d
    match looked with
    | .error e => b.fail e
    | .ok d =>
      let index := b.drafts.size
      let drafts := b.drafts.push d
      let drafts := drafts.modify parent fun p => { p with children := p.children ++ [.draft index] }
      { b with drafts, last := index, containers := if enter then index :: b.containers else b.containers }

/-- Changes the last draft, if its kind is among `allowed` (an empty list allows all). -/
def modifyLast (b : Builder) (what : String) (allowed : List NodeKind) (f : Draft → Draft) :
    Builder :=
  if b.error.isSome then b else
  let d := b.draftAt b.last
  if !allowed.isEmpty && !allowed.contains d.kind then
    b.fail (.invalidComposition (what ++ " does not apply to " ++ d.kind.debugText ++ " node " ++ d.label))
  else { b with drafts := b.drafts.modify b.last f }

def value (b : Builder) (name : String) : Builder := b.add (.named .value name) false

def object (b : Builder) (name : String) (t : ModelType) : Builder :=
  b.add { Draft.named .object name with info.modelType := some t } true

def reference (b : Builder) (name : String) (t : ModelType) : Builder :=
  b.add { Draft.named .reference name with info.modelType := some t, info.reference := true } true

def arrayOfObjects (b : Builder) (name : String) (t : ModelType) : Builder :=
  b.add { Draft.named .arrayOfObjects name with info.modelType := some t } true

def arrayOfReferences (b : Builder) (name : String) (t : ModelType) : Builder :=
  b.add { Draft.named .arrayOfObjects name with info.modelType := some t, info.reference := true } true

def arrayOfValues (b : Builder) (name : String) (k : ScalarKind) : Builder :=
  b.add { Draft.named .arrayOfValues name with info.scalarKind := some k } false

def mapOfValues (b : Builder) (name : String) (k : ScalarKind) : Builder :=
  b.add { Draft.named .mapOfValues name with info.scalarKind := some k } false

def mapOfObjects (b : Builder) (name : String) (t : ModelType) : Builder :=
  b.add { Draft.named .mapOfObjects name with info.modelType := some t } true

def mapOfReferences (b : Builder) (name : String) (t : ModelType) : Builder :=
  b.add { Draft.named .mapOfObjects name with info.modelType := some t, info.reference := true } true

def envelope (b : Builder) (name : String) : Builder := b.add (.named .envelope name) true

def subtype (b : Builder) (t : ModelType) : Builder :=
  b.add { info := { kind := .subtype, modelType := some t } } true

def discriminatorWith (b : Builder) (name : String) (s : Strategy) : Builder :=
  b.add { Draft.named .discriminator name with info.discriminator := some s } false

/-- A discriminator named `type` that classifies types by name. -/
def discriminator (b : Builder) : Builder := b.discriminatorWith Strategy.defaultName .simple

def metaNode (b : Builder) (name : String) (h : MetaHandler) : Builder :=
  b.add { Draft.named .metadata name with info.metaHandler := some h } false

/-- Splices the view of another template, generated from the node's model or from one of
its properties. -/
def splice (b : Builder) (name : String) (t : Template) (property : Option String) : Builder :=
  b.add { Draft.named .splice name with splice := some (t.root, property) } false

/-- Closes the innermost open container; the root cannot be closed. -/
def close (b : Builder) : Builder :=
  if b.error.isSome then b else
  match b.containers with
  | closed :: rest@(_ :: _) => { b with containers := rest, last := closed }
  | _ => b.fail (.invalidComposition "end() without an open container")

/-- Adds a node of a kind with the element type, children, namespace, manager and identity
of the root of a template built before. -/
def graft (b : Builder) (kind : NodeKind) (name : String) (t : Template) (reference : Bool) :
    Builder :=
  let root := t.root
  let element := if root.kind == .object || root.kind == .arrayOfObjects then root.modelType else none
  match element with
  | none => b.fail (.invalidComposition
      ("a " ++ root.kind.debugText ++ " template cannot be spliced as " ++ name))
  | some e =>
    b.add { info := { kind, name := some name, modelType := some e, reference,
                      ns := root.info.ns, manager := root.info.manager },
            inheritedIdentity := some root.info.identity,
            children := root.children.map .built } false

def objectTemplate (b : Builder) (name : String) (t : Template) : Builder := b.graft .object name t false
def referenceTemplate (b : Builder) (name : String) (t : Template) : Builder := b.graft .reference name t true
def arrayTemplate (b : Builder) (name : String) (t : Template) : Builder := b.graft .arrayOfObjects name t false
def mapTemplate (b : Builder) (name : String) (t : Template) : Builder := b.graft .mapOfObjects name t false

def converter (b : Builder) (c : Converter) : Builder :=
  b.modifyLast "converter" [.value, .arrayOfValues, .mapOfValues] fun d => { d with info.converter := some c }

def keyConverter (b : Builder) (c : Converter) : Builder :=
  b.modifyLast "key converter" [.mapOfValues, .mapOfObjects] fun d => { d with info.keyConverter := some c }

/-- Sets the identity properties of the innermost open container. -/
def identity (b : Builder) (names : List String) : Builder :=
  if b.error.isSome then b else
  match b.containers with
  | [] => b.fail (.invalidComposition "identity() without an open container")
  | current :: _ =>
    let d := b.draftAt current
    if d.kind == .envelope || d.kind == .subtype then
      b.fail (.invalidComposition ("identity does not apply to " ++ d.kind.debugText ++ " node " ++ d.label))
    else { b with drafts := b.drafts.modify current fun d => { d with identity := names } }

def namespace_ (b : Builder) (ns : String) : Builder :=
  b.modifyLast "namespace" [] fun d => { d with info.ns := some ns }

def manager (b : Builder) (f : ManagerFactory) : Builder :=
  b.modifyLast "manager" [.object, .reference, .arrayOfObjects, .mapOfObjects]
    fun d => { d with info.manager := some f }

def accessMode (b : Builder) (m : AccessModes) : Builder :=
  b.modifyLast "access mode" [] fun d => { d with info.modes := some m }

/-- Shows a text property as the array of its parts between a separator. -/
def coerce (b : Builder) (sep : Char) : Builder :=
  b.modifyLast "coercion" [.arrayOfValues, .arrayOfObjects] fun d => { d with coercion := some sep }

/-- Turns draft `i` and the drafts below it into nodes, children first. Each draft is taken
once; the fuel bounds the depth of the tree by the number of drafts. -/
def finalize : Nat → Array (Option Draft) → Nat → Except TemplateError (Node × Array (Option Draft))
  | 0, _, i => .error (.invalidComposition ("node " ++ toString i ++ " is referenced twice"))
  | fuel + 1, drafts, i =>
    match drafts[i]? with
    | some (some d) => do
      let drafts := drafts.set! i none
      let step (acc : List Node × Array (Option Draft)) (c : Child) :
          Except TemplateError (List Node × Array (Option Draft)) :=
        match c with
        | .draft j => do
          let (n, drafts) ← finalize fuel acc.2 j
          pure (acc.1 ++ [n], drafts)
        | .built n => pure (acc.1 ++ [n], acc.2)
      let (children, drafts) ← d.children.foldlM step ([], drafts)
      let node ← d.toNode children
      pure (node, drafts)
    | _ => .error (.invalidComposition ("node " ++ toString i ++ " is referenced twice"))

end Builder

end GraphViews

import GraphViews.Binding.Context
/-!
Staging: reading a view into staged values.

Staging walks the events with a cursor and the template side by side, checks the stream,
converts scalars toward the model and asks the listeners which values to leave unchanged.
It touches no model, so it is a computation over the cursor alone.

Inside an object, each named event routes to a node: a child of the container, or a child
of one of its subtype branches. A route through a branch applies only when the container has
a discriminator and the entity's type, as the discriminator resolved it, is the branch's
type or below it; a node with a namespace takes only events of that namespace. An event
that routes nowhere is an error, or with the ignore-unknown option is skipped with its
subtree.

Every loop step consumes at least one event, so the recursion is bounded by the size of the
view; it carries fuel of eight units per event.
-/

namespace GraphViews

namespace Node

/-- The routes of the named events of an object: the name, the node it reaches, and the
type of the innermost branch it passes through. -/
def routes : Node → List (String × Node × Option ModelType)
  | ⟨_, children, _⟩ => routesOf children
where
  routesOf : List Node → List (String × Node × Option ModelType)
    | [] => []
    | c :: cs =>
      (if c.kind == .subtype then
        (routes c).map fun (n, t, g) => (n, t, g <|> c.modelType)
      else match c.name with
        | some n => [(n, c, none)]
        | none => []) ++ routesOf cs

/-- The types an object of the node may have: its own, then those of its branches. -/
def candidates : Node → List ModelType
  | ⟨info, children, _⟩ => info.modelType.toList ++ candidatesOf children
where
  candidatesOf : List Node → List ModelType
    | [] => []
    | c :: cs => (if c.kind == .subtype then candidates c else []) ++ candidatesOf cs

/-- The node or one of its branches has a discriminator. -/
def discriminated : Node → Bool
  | ⟨_, children, _⟩ => discriminatedOf children
where
  discriminatedOf : List Node → Bool
    | [] => false
    | c :: cs =>
      (c.kind == .discriminator || (c.kind == .subtype && discriminated c)) || discriminatedOf cs

/-- The node a named event routes to, for an entity of a type. -/
def route? (n : Node) (name : String) (ns : Option String) (t : ModelType) : Option Node :=
  let disc := n.discriminated
  (n.routes.find? fun (m, target, guard) =>
    m == name && (target.info.ns.isNone || target.info.ns == ns) &&
      match guard with
      | some g => !disc || t.isSubtypeOf g
      | none => true).map (·.2.1)

end Node

/-- Staging: reading with a cursor, failing with an error placed in the view. -/
abbrev Stage := EStateM ViewError Cursor

namespace Stage

def fail {α : Type} (ctx : Context) (k : ViewErrorKind) : Stage α := throw (ctx.error k)

/-- Runs a reading step; a stream error is placed at the current frame. -/
def read {α : Type} (ctx : Context) (r : Reading α) : Stage α := fun c =>
  match r c with
  | .ok a c' => .ok a c'
  | .error e c' => .error (ctx.error (.stream e)) c'

def exhausted {α : Type} (ctx : Context) : Stage α := fail ctx (.handler "nesting too deep")

def unexpected {α : Type} (ctx : Context) (expected : String) (e : Event) : Stage α :=
  fail ctx (.stream (.unexpectedEvent expected e.kind))

def mismatch {α : Type} (ctx : Context) (expected found : String) : Stage α :=
  fail ctx (.typeMismatch expected found)

/-- The next event, not consumed; the end of the view is an error naming `context`. -/
def peek (ctx : Context) (context : String) : Stage Event := do
  match (← get).peek with
  | some e => pure e
  | none => fail ctx (.stream (.unexpectedEnd context))

def next (ctx : Context) (context : String) : Stage Event := read ctx (Reading.next context)

/-- A scalar toward the model: the node's converter, else the context's for the node's
kind, then coerced to that kind. -/
def scalarToModel (ctx : Context) (n : Node) (v : Scalar) : Stage Scalar :=
  let conv := n.info.converter <|> (n.info.scalarKind.bind ctx.converterFor)
  match toModel conv v n.info.scalarKind with
  | .ok v => pure v
  | .error e => fail ctx (.conversion e)

/-- A map key toward the model. -/
def keyToModel (ctx : Context) (n : Node) (k : Scalar) : Stage Scalar :=
  let conv := n.info.keyConverter <|> (n.info.keyKind.bind ctx.converterFor)
  match toModel conv k n.info.keyKind with
  | .ok v => pure v
  | .error e => fail ctx (.conversion e)

/-- The scalar of a value event, unless a listener keeps the property unchanged. A value
node with its own converter converts on injection, inside its accessor. -/
def scalar (ctx : Context) (n : Node) (e : Event) : Stage Staged := do
  match ctx.willInjectValue n (e.value.getD .null) with
  | none => pure .unchanged
  | some v =>
    if n.kind == .value && n.info.converter.isSome then pure (.value v)
    else .value <$> scalarToModel ctx n v

/-- A null, unless a listener keeps the property unchanged. -/
def null (ctx : Context) (n : Node) : Staged :=
  if (ctx.willInjectValue n .null).isSome then .null else .unchanged

/-- Skips an unknown property, or fails unless the options ignore unknown properties. -/
def unknown (ctx : Context) (name : String) : Stage Unit :=
  if ctx.options.ignoreUnknown then read ctx (Reading.skip "unknown property")
  else fail ctx (.unknownProperty name)

/-- A discriminator event resolved among the candidates. -/
def discriminator (ctx : Context) (d : Node) (candidates : List ModelType) : Stage ModelType := do
  let e ← next ctx "DISCRIMINATOR"
  unless e.kind == .discriminator || e.kind == .value do unexpected ctx "DISCRIMINATOR" e
  let some s := d.info.discriminator | mismatch ctx "discriminator strategy" "none"
  match s.resolve (e.value.getD .null) candidates with
  | .ok t => pure t
  | .error k => fail ctx k

mutual

/-- The staged value of a node. -/
def node (fuel : Nat) (ctx : Context) (n : Node) : Stage Staged :=
  match fuel with
  | 0 => exhausted ctx
  | fuel + 1 =>
    match n.kind with
    | .value => do
      let e ← next ctx "VALUE"
      if e.kind != .value then unexpected ctx "VALUE" e
      scalar ctx n e
    | .object | .reference =>
      match n.modelType with
      | some t => object fuel ctx n t
      | none => mismatch ctx "object" "untyped node"
    | .envelope => do
      let _ ← read ctx (Reading.expect .beginObject "BEGIN_OBJECT")
      let some t := n.modelType | mismatch ctx "object" "untyped envelope"
      Entity.toStaged <$> body fuel ctx n ⟨t, []⟩
    | .arrayOfObjects | .arrayOfValues => array fuel ctx n
    | .mapOfObjects | .mapOfValues => map fuel ctx n
    | .metadata => do
      let e ← next ctx "META"
      if e.kind == .metadata || e.kind == .value then pure (.metaValue (e.value.getD .null))
      else unexpected ctx "META" e
    | .splice => .spliced <$> read ctx (Reading.subtree "splice")
    | .discriminator | .subtype => do
      read ctx (Reading.skip "property")
      pure .unchanged

/-- An object of a type, or a null. -/
def object (fuel : Nat) (ctx : Context) (n : Node) (t : ModelType) : Stage Staged :=
  match fuel with
  | 0 => exhausted ctx
  | fuel + 1 => do
    let e ← next ctx "BEGIN_OBJECT"
    if e.kind == .beginObject then Entity.toStaged <$> body fuel ctx n ⟨t, []⟩
    else if e.isNullValue then pure (null ctx n)
    else unexpected ctx "BEGIN_OBJECT" e

/-- The properties of an object up to its end. -/
def body (fuel : Nat) (ctx : Context) (n : Node) (entity : Entity) : Stage Entity :=
  match fuel with
  | 0 => exhausted ctx
  | fuel + 1 => do
    let e ← peek ctx "END_OBJECT"
    if e.kind.isEnd then
      let _ ← next ctx "END_OBJECT"
      return entity
    let some name := e.name | Stage.fail ctx (.stream (.anonymousProperty e.kind))
    let ns := (← get).effectiveNamespace e
    match n.route? name ns entity.type with
    | none =>
      unknown ctx name
      body fuel ctx n entity
    | some child =>
      let cctx := ctx.push (Frame.named child.name child.modelType)
      if child.kind == .discriminator then
        let t ← discriminator cctx child n.candidates
        body fuel ctx n { entity with type := t }
      else
        let staged ← node fuel cctx child
        let entity := match child.name with
          | some nm => entity.put nm staged
          | none => entity
        body fuel ctx n entity

/-- A collection: its elements between begin and end, or a null. -/
def array (fuel : Nat) (ctx : Context) (n : Node) : Stage Staged :=
  match fuel with
  | 0 => exhausted ctx
  | fuel + 1 => do
    let e ← next ctx "BEGIN_ARRAY"
    if e.isNullValue then return null ctx n
    if e.kind != .beginArray then unexpected ctx "BEGIN_ARRAY" e
    .elements <$> elements fuel ctx n []

/-- The elements of a collection up to its end. -/
def elements (fuel : Nat) (ctx : Context) (n : Node) (acc : List Staged) : Stage (List Staged) :=
  match fuel with
  | 0 => exhausted ctx
  | fuel + 1 => do
    let e ← peek ctx "END_ARRAY"
    if e.kind.isEnd then
      let _ ← next ctx "END_ARRAY"
      return acc
    let staged ← element fuel (ctx.push (Frame.indexed acc.length n.modelType)) n
    elements fuel ctx n (acc ++ [staged])

/-- One element of a collection or value of a map. -/
def element (fuel : Nat) (ctx : Context) (n : Node) : Stage Staged :=
  match fuel with
  | 0 => exhausted ctx
  | fuel + 1 =>
    if n.kind == .arrayOfObjects || n.kind == .mapOfObjects then
      match n.modelType with
      | some t => object fuel ctx n t
      | none => mismatch ctx "object" "untyped node"
    else do
      let e ← next ctx "VALUE"
      if e.kind != .value then unexpected ctx "VALUE" e
      scalar ctx n e

/-- A map: an object keyed by property names when its keys are texts, else an array of
`{key, value}` objects; or a null. -/
def map (fuel : Nat) (ctx : Context) (n : Node) : Stage Staged :=
  match fuel with
  | 0 => exhausted ctx
  | fuel + 1 => do
    let e ← next ctx "BEGIN_OBJECT"
    if e.isNullValue then return null ctx n
    if n.info.stringKeys then
      if e.kind != .beginObject then unexpected ctx "BEGIN_OBJECT" e
      .entries <$> namedEntries fuel ctx n []
    else
      if e.kind != .beginArray then unexpected ctx "BEGIN_ARRAY" e
      .entries <$> entryList fuel ctx n []

/-- The entries of a map written as an object, up to its end. -/
def namedEntries (fuel : Nat) (ctx : Context) (n : Node) (acc : List (Scalar × Staged)) :
    Stage (List (Scalar × Staged)) :=
  match fuel with
  | 0 => exhausted ctx
  | fuel + 1 => do
    let e ← peek ctx "END_OBJECT"
    if e.kind.isEnd then
      let _ ← next ctx "END_OBJECT"
      return acc
    let some name := e.name | Stage.fail ctx (.stream (.anonymousProperty e.kind))
    let key ← keyToModel ctx n (.string name)
    let staged ← element fuel (ctx.push (Frame.keyed key n.modelType)) n
    namedEntries fuel ctx n (acc ++ [(key, staged)])

/-- The entries of a map written as an array, up to its end. -/
def entryList (fuel : Nat) (ctx : Context) (n : Node) (acc : List (Scalar × Staged)) :
    Stage (List (Scalar × Staged)) :=
  match fuel with
  | 0 => exhausted ctx
  | fuel + 1 => do
    let e ← peek ctx "END_ARRAY"
    if e.kind.isEnd then
      let _ ← next ctx "END_ARRAY"
      return acc
    let entry ← entry fuel (ctx.push (Frame.indexed acc.length n.modelType)) n
    entryList fuel ctx n (acc ++ [entry])

/-- One `{key, value}` object. -/
def entry (fuel : Nat) (ctx : Context) (n : Node) : Stage (Scalar × Staged) :=
  match fuel with
  | 0 => exhausted ctx
  | fuel + 1 => do
    let _ ← read ctx (Reading.expect .beginObject "BEGIN_OBJECT")
    let (key, value) ← entryFields fuel ctx n none .null
    match key with
    | some k => if k.isNull then mismatch ctx "map entry with a key" "entry without a key" else pure (k, value)
    | none => mismatch ctx "map entry with a key" "entry without a key"

/-- The fields of a `{key, value}` object up to its end. -/
def entryFields (fuel : Nat) (ctx : Context) (n : Node) (key : Option Scalar) (value : Staged) :
    Stage (Option Scalar × Staged) :=
  match fuel with
  | 0 => exhausted ctx
  | fuel + 1 => do
    let e ← peek ctx "END_OBJECT"
    if e.kind.isEnd then
      let _ ← next ctx "END_OBJECT"
      return (key, value)
    match e.name with
    | some "key" =>
      let e ← read ctx (Reading.expect .value "VALUE")
      let k ← keyToModel ctx n (e.value.getD .null)
      entryFields fuel ctx n (some k) value
    | some "value" =>
      let v ← element fuel ctx n
      entryFields fuel ctx n key v
    | some other =>
      unknown ctx other
      entryFields fuel ctx n key value
    | none => Stage.fail ctx (.stream (.anonymousProperty e.kind))

end

/-- The staged value of a template's root, in an anonymous frame. An object root is read as
`initial` when it is given. -/
def root (fuel : Nat) (ctx : Context) (r : Node) (initial : Option ModelType) : Stage Staged :=
  let ctx := ctx.push { modelType := r.modelType }
  match r.kind, initial with
  | .object, some t => object fuel ctx r t
  | _, _ => node fuel ctx r

end Stage

end GraphViews

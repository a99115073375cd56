import GraphViews.Binding.Run
/-!
Generation: from a model to a view.

Each node writes the part of the view for its property of the owner it is given: a value
writes one event, an object its begin, its children's parts and its end, a collection its
elements between begin and end. A null associate, collection or map is one null value event;
a null scalar is one too unless the options omit null values. Envelopes wrap their children
without a property of their own, subtype branches write their children only for instances of
their type, discriminators write the class of the owner's type, meta nodes what their handler
produces, and splice nodes the view of another template, renamed to the node.

Every node below the root is visited in a frame named for it; listeners may veto the visit,
and a property that cannot be read writes nothing. Maps with text keys are written as an
object with one property per key; other maps as an array of `{key, value}` objects.

The recursion carries fuel: each call takes one unit, and each level of the template costs
a bounded number of calls, so `Template.generate` gives eight units per node.
-/

namespace GraphViews

namespace Generate

/-- The error of a run out of fuel; the fuel given by `Template.generate` never runs out. -/
def exhausted {α : Type} (ctx : Context) : Run α := Run.fail ctx (.handler "nesting too deep")

def push (ctx : Context) (w : Writer) (e : Event) : Run Writer := Run.stream ctx (w.push e)

/-- An event of a node, with its name and namespace. -/
def nodeEvent (n : Node) (kind : EventKind) (v : Option Scalar) : Event := ⟨kind, n.name, n.info.ns, v⟩

/-- The property of a node in errors. -/
def property (n : Node) : String := n.name.getD "<root>"

def accessorOf (ctx : Context) (n : Node) : Run Accessor :=
  match n.accessor with
  | some a => pure a
  | none => Run.fail ctx (.access (.unsupported (property n) "get"))

def multiOf (ctx : Context) (n : Node) : Run Multi :=
  match n.multi with
  | some m => pure m
  | none => Run.fail ctx (.access (.unsupported (property n) "iterate"))

def wrongShape {α : Type} (ctx : Context) (n : Node) (expected : String) (found : Value) : Run α :=
  Run.fail ctx (.access (.wrongShape (property n) expected found.shapeName))

/-- A scalar toward the view: the node's converter, else the context's for the node's kind,
then the listeners. -/
def elementToView (ctx : Context) (n : Node) (v : Scalar) : Run Scalar := do
  let conv := n.info.converter <|> (n.info.scalarKind.bind ctx.converterFor)
  let v ← Run.convert ctx (toView conv v)
  pure (ctx.didExtractValue v)

/-- A map key toward the view. -/
def keyToView (ctx : Context) (n : Node) (k : Scalar) : Run Scalar :=
  let conv := n.info.keyConverter <|> (n.info.keyKind.bind ctx.converterFor)
  Run.convert ctx (toView conv k)

/-- The target of a splice: the model itself, or the raw property of a model object. -/
def spliceTarget (ctx : Context) (property : Option String) (model : Value) : Run Value := do
  match property, model with
  | none, _ => pure model
  | some p, .object h => return (← Run.store).field h p
  | some p, v => Run.fail ctx (.access (.wrongShape p "object" v.shapeName))

mutual

/-- The view of a template for a model. -/
def template (fuel : Nat) (ctx : Context) (root : Node) (model : Value) : Run View :=
  match fuel with
  | 0 => exhausted ctx
  | fuel + 1 => do
    if let (.object h, some t) := (model, root.modelType) then
      let st ← Run.store
      if root.kind == .object && !(st.isInstanceOf h t) then
        Run.fail ctx (.typeMismatch t.name (st.typeOf h).name)
    let w ← rootPart fuel ctx root model { maxDepth := ctx.options.maxDepth }
    Run.stream ctx w.finish

/-- The part of the root, in an anonymous frame. -/
def rootPart (fuel : Nat) (ctx : Context) (root : Node) (model : Value) (w : Writer) : Run Writer :=
  match fuel with
  | 0 => exhausted ctx
  | fuel + 1 => do
    let ctx := ctx.push { modelType := root.modelType, model }
    let w ← emit fuel ctx root model w
    ctx.nodeVisited root
    pure w

/-- The part of a child node for its owner, in a frame named for it. -/
def child (fuel : Nat) (ctx : Context) (n : Node) (owner : Value) (w : Writer) : Run Writer :=
  match fuel with
  | 0 => exhausted ctx
  | fuel + 1 => do
    let ctx := ctx.push { name := n.name, modelType := n.modelType, model := owner }
    if !(← ctx.shouldVisit n) then return w
    if n.kind.isProperty && !n.modes.read then return w
    let w ← emit fuel ctx n owner w
    ctx.nodeVisited n
    pure w

/-- The parts of the children of a node, in order. -/
def body (fuel : Nat) (ctx : Context) (n : Node) (model : Value) (w : Writer) : Run Writer :=
  match fuel with
  | 0 => exhausted ctx
  | fuel + 1 => n.children.foldlM (fun w c => child fuel ctx c model w) w

/-- The part of a node for its owner. -/
def emit (fuel : Nat) (ctx : Context) (n : Node) (owner : Value) (w : Writer) : Run Writer :=
  match fuel with
  | 0 => exhausted ctx
  | fuel + 1 =>
    match n.kind with
    | .value => do
      let a ← accessorOf ctx n
      let raw ← Run.access ctx (a.get owner)
      let .scalar v := raw | wrongShape ctx n "scalar" raw
      let v ← if n.info.converter.isSome then pure (ctx.didExtractValue v) else elementToView ctx n v
      if v.isNull && ctx.options.omitNulls then return w
      push ctx w (nodeEvent n .value (some v))
    | .object | .reference => do
      let a ← accessorOf ctx n
      let v ← Run.access ctx (a.get owner)
      associate fuel ctx n n.name v w
    | .arrayOfObjects | .arrayOfValues => do
      let a ← accessorOf ctx n
      let current ← Run.access ctx (a.get owner)
      if current.isNull then return ← push ctx w (nodeEvent n .value (some .null))
      let m ← multiOf ctx n
      let elements ← Run.access ctx (m.iterate owner)
      let w ← push ctx w (nodeEvent n .beginArray none)
      let w ← (elements.zipIdx).foldlM (fun w (e, i) =>
        element fuel (ctx.push { index := some i, modelType := n.modelType, model := e }) n none e w) w
      push ctx w .endArray
    | .mapOfObjects | .mapOfValues => do
      let a ← accessorOf ctx n
      let current ← Run.access ctx (a.get owner)
      if current.isNull then return ← push ctx w (nodeEvent n .value (some .null))
      let m ← multiOf ctx n
      let entries ← Run.access ctx (m.entries owner)
      if n.info.stringKeys then
        let w ← push ctx w (nodeEvent n .beginObject none)
        let w ← entries.foldlM (fun w (k, v) => do
          let ctx := ctx.push { (Frame.keyed k n.modelType) with model := v }
          let name := match ← keyToView ctx n k with
            | .string s => s
            | other => other.text
          element fuel ctx n (some name) v w) w
        push ctx w .endObject
      else
        let w ← push ctx w (nodeEvent n .beginArray none)
        let w ← entries.foldlM (fun w (k, v) => do
          let ctx := ctx.push { (Frame.keyed k n.modelType) with model := v }
          let key ← keyToView ctx n k
          let w ← push ctx w (.beginObject none)
          let w ← push ctx w (.valueOf (some "key") none key)
          let w ← element fuel ctx n (some "value") v w
          push ctx w .endObject) w
        push ctx w .endArray
    | .envelope => do
      let w ← push ctx w (nodeEvent n .beginObject none)
      let w ← body fuel ctx n owner w
      push ctx w .endObject
    | .subtype => do
      match owner, n.modelType with
      | .object h, some t => if (← Run.store).isInstanceOf h t then body fuel ctx n owner w else pure w
      | _, _ => pure w
    | .discriminator => do
      match owner, n.info.discriminator with
      | .object h, some s =>
        push ctx w (nodeEvent n .discriminator (some (s.classify ((← Run.store).typeOf h))))
      | _, _ => pure w
    | .metadata => do
      match n.info.metaHandler with
      | some m =>
        let v ← Run.lift ctx (m.produce (← Run.store) owner)
        push ctx w (nodeEvent n .metadata (some v))
      | none => pure w
    | .splice => do
      match n.splice with
      | some (root, p) =>
        let target ← spliceTarget ctx p owner
        let view ← if target.isNull then pure #[Event.valueOf none none .null]
          else template fuel ctx root target
        (view.toList.zipIdx).foldlM (fun w (e, i) =>
          push ctx w (if i == 0 then { e with name := n.name } else e)) w
      | none => pure w

/-- An associate: its object between begin and end, or a null value. -/
def associate (fuel : Nat) (ctx : Context) (n : Node) (name : Option String) (v : Value)
    (w : Writer) : Run Writer :=
  match fuel with
  | 0 => exhausted ctx
  | fuel + 1 =>
    match v with
    | .object _ => do
      let w ← push ctx w ⟨.beginObject, name, n.info.ns, none⟩
      let w ← body fuel ctx n v w
      push ctx w .endObject
    | v => if v.isNull then push ctx w ⟨.value, name, n.info.ns, some .null⟩
      else wrongShape ctx n "object" v

/-- An element of a collection or the value of a map entry. -/
def element (fuel : Nat) (ctx : Context) (n : Node) (name : Option String) (v : Value)
    (w : Writer) : Run Writer :=
  match fuel with
  | 0 => exhausted ctx
  | fuel + 1 =>
    if n.kind == .arrayOfObjects || n.kind == .mapOfObjects then associate fuel ctx n name v w
    else match v with
      | .scalar s => do
        let s ← elementToView ctx n s
        push ctx w (.valueOf name none s)
      | v => wrongShape ctx n "scalar" v

end

end Generate

/-- The view of a model. -/
def Template.generate (t : Template) (ctx : Context) (model : Value) : Run View :=
  Generate.template (8 * (t.root.size + 1)) ctx t.root model

end GraphViews

import GraphViews.Binding.Stage
import GraphViews.Association.Reconcile
/-!
Application: from a view to a model.

A view is first staged, then injected. Injection walks the template's children: each takes
its staged value from the entity by name and writes it, in a frame named for it, unless a
listener vetoes the node or the property cannot be written. Values are written through the
node's accessor; associations are reconciled through their managers; maps of values and
collections of values are replaced; meta values go to their handler; a spliced view is
applied with the spliced template, to the node's model or to one of its properties (created
when it is null).

The recursion carries fuel: eight units for each event of the view and each node of the
template bound every chain of calls.
-/

namespace GraphViews

namespace Apply

def exhausted {α : Type} (ctx : Context) : Run α := Run.fail ctx (.handler "nesting too deep")

def mismatch {α : Type} (ctx : Context) (expected found : String) : Run α :=
  Run.fail ctx (.typeMismatch expected found)

/-- Runs staging over a cursor inside a run. -/
def staging {α : Type} (m : Stage α) (c : Cursor) : Run (α × Cursor) := fun s =>
  match m c with
  | .ok a c' => .ok (a, c') s
  | .error e _ => .error e s

/-- The type an existing target is read as: the live type of an object root when it is the
root's type or below it, else the root's type. -/
def initialType (s : Store) (root : Node) (target : Value) : Option ModelType :=
  root.modelType.map fun declared =>
    match target with
    | .object h => if root.kind == .object && s.isInstanceOf h declared then s.typeOf h else declared
    | _ => declared

/-- The association of a node, owned by an object model. -/
def descriptor (ctx : Context) (n : Node) (model : Value) : Run Descriptor := do
  match model, n.modelType with
  | .object h, some assoc => return ⟨(← Run.store).typeOf h, n.name.getD "", assoc⟩
  | m, _ => mismatch ctx "object" m.shapeName

def multiOf (ctx : Context) (n : Node) : Run Multi :=
  match n.multi with
  | some m => pure m
  | none => Run.fail ctx (.access (.unsupported (n.name.getD "<root>") "add"))

/-- Replaces the values of a collection by the non-null staged values. -/
def replaceValues (ctx : Context) (n : Node) (model : Value) (elements : List Staged) : Run Unit := do
  let m ← multiOf ctx n
  Run.access ctx (m.clear model)
  for staged in elements do
    if let .value v := staged then
      unless v.isNull do Run.access ctx (m.add model (.scalar v))

/-- The view is a single null value. -/
def isNullView (v : View) : Bool :=
  match v.toList with
  | [e] => e.isNullValue
  | _ => false

mutual

/-- Applies a view to a target with a template. -/
def template (fuel : Nat) (ctx : Context) (root : Node) (view : View) (target : Value) : Run Unit :=
  match fuel with
  | 0 => exhausted ctx
  | fuel + 1 => do
    let initial := initialType (← Run.store) root target
    let cursor : Cursor := { events := view, maxDepth := ctx.options.maxDepth }
    let (staged, cursor) ← staging (Stage.root (8 * (view.size + 1)) ctx root initial) cursor
    let _ ← staging (Stage.read ctx Reading.finish) cursor
    injectRoot fuel ctx root staged target

/-- Injects the staged root into the target, in an anonymous frame. -/
def injectRoot (fuel : Nat) (ctx : Context) (root : Node) (staged : Staged) (target : Value) :
    Run Unit :=
  match fuel with
  | 0 => exhausted ctx
  | fuel + 1 => do
    let ctx := ctx.push { modelType := root.modelType, model := target }
    match root.kind, staged with
    | _, .unchanged | _, .null => pure ()
    | .object, .entity t ps =>
      match target with
      | .object h =>
        let s ← Run.store
        unless s.isInstanceOf h t do mismatch ctx t.name (s.typeOf h).name
        inject fuel ctx root ⟨t, ps⟩ h
      | v => mismatch ctx t.name v.shapeName
    | .arrayOfObjects, .elements xs =>
      match root.modelType with
      | some t => elements fuel ctx root target (Descriptor.root t) xs
      | none => mismatch ctx "object" target.shapeName
    | .arrayOfValues, .elements xs => replaceValues ctx root target xs
    | k, other => mismatch ctx k.debugText other.shapeName
    ctx.nodeVisited root

/-- Injects an entity into a live object through the children of a node. -/
def inject (fuel : Nat) (ctx : Context) (n : Node) (e : Entity) (h : Handle) : Run Unit :=
  match fuel with
  | 0 => exhausted ctx
  | fuel + 1 => do
    let _ ← children fuel ctx n e (.object h)
    pure ()

/-- Each child of a node takes its staged value from the entity; the rest is returned. -/
def children (fuel : Nat) (ctx : Context) (n : Node) (e : Entity) (model : Value) : Run Entity :=
  match fuel with
  | 0 => exhausted ctx
  | fuel + 1 => n.children.foldlM (fun e c => into fuel ctx c e model) e

/-- A child takes its staged value and writes it. -/
def into (fuel : Nat) (ctx : Context) (n : Node) (e : Entity) (model : Value) : Run Entity :=
  match fuel with
  | 0 => exhausted ctx
  | fuel + 1 =>
    match n.kind with
    | .subtype => do
      match model, n.modelType with
      | .object h, some t =>
        if (← Run.store).isInstanceOf h t then children fuel ctx n e model else pure e
      | _, _ => pure e
    | .discriminator => pure e
    | _ => do
      let some name := n.name | pure e
      let (some staged, e) := e.take name | pure e
      let ctx := ctx.push { name := n.name, modelType := n.modelType, model }
      if !(← ctx.shouldVisit n) then return e
      if n.kind.isProperty && !n.modes.write then return e
      staged_ fuel ctx n staged model
      ctx.nodeVisited n
      pure e

/-- Writes one staged value. -/
def staged_ (fuel : Nat) (ctx : Context) (n : Node) (staged : Staged) (model : Value) : Run Unit :=
  match fuel with
  | 0 => exhausted ctx
  | fuel + 1 =>
    match n.kind, staged with
    | _, .unchanged => pure ()
    | .value, .value v =>
      match n.accessor with
      | some a => Run.access ctx (a.set model (.scalar v))
      | none => pure ()
    | .object, s | .reference, s => do
      let d ← descriptor ctx n model
      let m ← n.manager ctx d
      unless m.capability == .toOne do Run.fail ctx (.managerCapability d.text "to-one")
      Reconciler.toOne (reconciler fuel n) m ctx model s
    | .envelope, .entity t ps => do
      let _ ← children fuel ctx n ⟨t, ps⟩ model
      pure ()
    | .arrayOfObjects, .null | .arrayOfValues, .null | .mapOfObjects, .null | .mapOfValues, .null =>
      match n.accessor with
      | some a => Run.access ctx (a.set model .null)
      | none => pure ()
    | .arrayOfObjects, .elements xs => do
      let d ← descriptor ctx n model
      elements fuel ctx n model d xs
    | .mapOfObjects, .entries xs => do
      let d ← descriptor ctx n model
      let m ← n.manager ctx d
      unless m.capability == .keyed do Run.fail ctx (.managerCapability d.text "keyed")
      Reconciler.keyed (reconciler fuel n) m ctx model xs
    | .arrayOfValues, .elements xs => replaceValues ctx n model xs
    | .mapOfValues, .entries xs => do
      let m ← multiOf ctx n
      Run.access ctx (m.clear model)
      for (k, s) in xs do
        if let .value v := s then
          let _ ← Run.access ctx (m.put model k (.scalar v))
    | .metadata, .metaValue v =>
      match n.info.metaHandler with
      | some h => do
        let st ← Run.lift ctx (h.consume (← Run.store) model v)
        Run.modifyStore fun _ => st
      | none => pure ()
    | .splice, .spliced view =>
      match n.splice with
      | some (root, p) => splice fuel ctx root p view model
      | none => pure ()
    | k, other => mismatch ctx k.debugText other.shapeName

/-- Reconciles a collection of associates with its manager. -/
def elements (fuel : Nat) (ctx : Context) (n : Node) (model : Value) (d : Descriptor)
    (xs : List Staged) : Run Unit :=
  match fuel with
  | 0 => exhausted ctx
  | fuel + 1 => do
    let m ← n.manager ctx d
    match m.capability with
    | .indexed => Reconciler.ordered (reconciler fuel n) m ctx model xs
    | .unordered => Reconciler.unordered (reconciler fuel n) m ctx model xs
    | _ => Run.fail ctx (.managerCapability d.text "indexed or unordered")

/-- The reconciler of a node: its associates take their entities through its children. -/
def reconciler (fuel : Nat) (n : Node) : Reconciler :=
  match fuel with
  | 0 => ⟨n.info.reference, fun ctx _ _ => exhausted ctx⟩
  | fuel + 1 => ⟨n.info.reference, fun ctx e h => inject fuel ctx n e h⟩

/-- Applies a spliced view, to the model or to one of its properties. -/
def splice (fuel : Nat) (ctx : Context) (root : Node) (property : Option String) (view : View)
    (model : Value) : Run Unit :=
  match fuel with
  | 0 => exhausted ctx
  | fuel + 1 =>
    match property with
    | none => if isNullView view then pure () else template fuel ctx root view model
    | some p => do
      let .object owner := model
        | Run.fail ctx (.access (.wrongShape p "object" model.shapeName))
      if isNullView view then
        Run.modifyStore (·.setField owner p .null)
        return
      let current := (← Run.store).field owner p
      let target ← if current.isNull then do
          let some t := root.modelType
            | Run.fail ctx (.handler ("spliced template for " ++ Text.quoted p ++ " has no root type"))
          let h ← ctx.newInstance t
          Run.modifyStore (·.setField owner p (.object h))
          ctx.entityCreated h
          pure (Value.object h)
        else pure current
      template fuel ctx root view target

end

end Apply

/-- The fuel of applying a view with a template. -/
def Template.applyFuel (t : Template) (view : View) : Nat := 8 * (view.size + t.root.size + 2)

/-- Applies a view to a target. -/
def Template.apply (t : Template) (ctx : Context) (view : View) (target : Value) : Run Unit :=
  Apply.template (t.applyFuel view) ctx t.root view target

/-- Applies a view to a new target: a new object for an object, a new list for a
collection, nothing for a null. -/
def Template.applyNew (t : Template) (ctx : Context) (view : View) : Run Value := do
  let root := t.root
  let cursor : Cursor := { events := view, maxDepth := ctx.options.maxDepth }
  let (staged, cursor) ← Apply.staging (Stage.root (8 * (view.size + 1)) ctx root root.modelType) cursor
  let _ ← Apply.staging (Stage.read ctx Reading.finish) cursor
  let target ← match staged with
    | .null | .unchanged => return .null
    | .entity ty _ => do
      let h ← ctx.newInstance ty
      ctx.entityCreated h
      pure (Value.object h)
    | _ => modifyGet fun s => let (st, v) := s.store.newList []; (v, { s with store := st })
  Apply.injectRoot (t.applyFuel view) ctx root staged target
  pure target

end GraphViews

import GraphViews.Association.Manager
/-!
Reconciliation: making a live association match the staged one.

Each strategy walks the staged associates in order. A staged entity either updates the live
object it is the same associate as, in place, or gets a new associate (a fresh object, or
for references the object a resolver finds), which is injected and added; live objects no
staged entity claimed are removed and reported discarded.

* ordered: the association becomes the staged entities in view order; a live match found at
  or after the current position moves forward to it;
* unordered: each live object is claimed at most once, and objects added during the call are
  never candidates;
* keyed: entries are matched by key; an unchanged entry keeps its live value, and live keys
  not staged are removed;
* to-one: the single associate is kept, replaced or cleared.

Null and unchanged elements of a collection take no place.
-/

namespace GraphViews

/-- How a reconciliation writes into the associates it keeps or makes. -/
structure Reconciler where
  /-- new associates are resolved references, not fresh objects -/
  reference : Bool
  /-- writes a staged entity into a live object -/
  inject : Context → Entity → Handle → Run Unit

namespace Reconciler

/-- A new associate for an entity. -/
def obtain (r : Reconciler) (ctx : Context) (e : Entity) : Run Handle :=
  if r.reference then ctx.resolveReference e.type e else ctx.newInstance e.type

/-- The entity of a staged element; null and unchanged elements are none. -/
def entityOf (ctx : Context) : Staged → Run (Option Entity)
  | .entity t ps => pure (some ⟨t, ps⟩)
  | .null | .unchanged => pure none
  | other => Run.fail ctx (.typeMismatch "object" other.shapeName)

/-- The first live object at or after `start` that is the entity's associate. -/
def findFrom (m : Manager) (ctx : Context) (owner : Value) (e : Entity) (start size : Nat) :
    Run (Option (Nat × Handle)) :=
  (List.range' start (size - start)).findSomeM? fun i => do
    match ← m.getAt ctx owner i with
    | .object h => if m.isSame (← Run.store) h e then pure (some (i, h)) else pure none
    | _ => pure none

/-- Removes every associate from an index on, reporting the objects discarded. -/
def discardFrom (m : Manager) (ctx : Context) (owner : Value) (from_ : Nat) : Nat → Run Unit
  | 0 => pure ()
  | fuel + 1 => do
    if (← m.size ctx owner) > from_ then
      if let .object h ← m.removeAt ctx owner from_ then ctx.entityDiscarded h
      discardFrom m ctx owner from_ fuel

/-- Ordered reconciliation. -/
def ordered (r : Reconciler) (m : Manager) (ctx : Context) (owner : Value) (elements : List Staged) :
    Run Unit := do
  m.begin ctx
  let step (viewIndex : Nat) (item : Staged × Nat) : Run Nat := do
    let (staged, position) := item
    let some e ← entityOf ctx staged | pure viewIndex
    let cctx := ctx.push (Frame.indexed position (some e.type))
    let size ← m.size cctx owner
    match ← findFrom m cctx owner e viewIndex size with
    | some (i, h) =>
      r.inject cctx e h
      if i > viewIndex then
        let v ← m.removeAt cctx owner i
        m.addAt cctx owner viewIndex v
    | none =>
      let h ← r.obtain cctx e
      r.inject cctx e h
      m.addAt cctx owner viewIndex (.object h)
      cctx.entityCreated h
    pure (viewIndex + 1)
  let kept ← elements.zipIdx.foldlM step 0
  discardFrom m ctx owner kept ((← m.size ctx owner) + 1)
  m.finish ctx

/-- Unordered reconciliation. -/
def unordered (r : Reconciler) (m : Manager) (ctx : Context) (owner : Value) (elements : List Staged) :
    Run Unit := do
  m.begin ctx
  let live ← m.iterate ctx owner
  let step (untouched : List Handle) (item : Staged × Nat) : Run (List Handle) := do
    let (staged, position) := item
    let some e ← entityOf ctx staged | pure untouched
    let cctx := ctx.push (Frame.indexed position (some e.type))
    let s ← Run.store
    match untouched.findIdx? (m.isSame s · e) with
    | some i =>
      r.inject cctx e (untouched[i]?.getD 0)
      pure (untouched.eraseIdx i)
    | none =>
      let h ← r.obtain cctx e
      r.inject cctx e h
      m.add cctx owner (.object h)
      cctx.entityCreated h
      pure untouched
  let untouched ← elements.zipIdx.foldlM step (live.filterMap Value.object?)
  for h in untouched do
    let _ ← m.remove ctx owner (.object h)
    ctx.entityDiscarded h
  m.finish ctx

/-- The identity of a key in the set of touched keys: its kind and display text. -/
def keyId (k : Scalar) : Option ScalarKind × String := (k.kind, k.text)

/-- Keyed reconciliation. -/
def keyed (r : Reconciler) (m : Manager) (ctx : Context) (owner : Value)
    (entries : List (Scalar × Staged)) : Run Unit := do
  m.begin ctx
  let step (touched : List (Option ScalarKind × String)) (item : Scalar × Staged) :
      Run (List (Option ScalarKind × String)) := do
    let (key, staged) := item
    match staged with
    | .unchanged => return keyId key :: touched
    | .null => return touched
    | .entity t ps =>
      let e : Entity := ⟨t, ps⟩
      let cctx := ctx.push (Frame.keyed key (some e.type))
      let current := (← m.getKey cctx owner key).bind Value.object?
      match current with
      | some live =>
        if m.isSame (← Run.store) live e then r.inject cctx e live
        else replace cctx e key current
      | none => replace cctx e key none
      return keyId key :: touched
    | other => Run.fail ctx (.typeMismatch "object" other.shapeName)
  let touched ← entries.foldlM step []
  let live ← m.entries ctx owner
  for (key, value) in live do
    unless touched.contains (keyId key) do
      m.removeKey ctx owner key
      if let .object h := value then (ctx.push (Frame.keyed key)).entityDiscarded h
  m.finish ctx
where
  replace (cctx : Context) (e : Entity) (key : Scalar) (current : Option Handle) : Run Unit := do
    let h ← r.obtain cctx e
    r.inject cctx e h
    m.put cctx owner key (.object h)
    if let some old := current then cctx.entityDiscarded old
    cctx.entityCreated h

/-- To-one reconciliation. -/
def toOne (r : Reconciler) (m : Manager) (ctx : Context) (owner : Value) (staged : Staged) :
    Run Unit := do
  if let .unchanged := staged then return
  m.begin ctx
  let current ← m.getOne ctx owner
  match staged with
  | .null =>
    m.setOne ctx owner none
    if let some old := current then ctx.entityDiscarded old
  | .entity t ps =>
    let e : Entity := ⟨t, ps⟩
    let st ← Run.store
    let same := match current with
      | some live => m.isSame st live e
      | none => false
    match current, same with
    | some live, true => r.inject ctx e live
    | _, _ =>
      let a ← r.obtain ctx e
      r.inject ctx e a
      m.setOne ctx owner (some a)
      if let some old := current then ctx.entityDiscarded old
      ctx.entityCreated a
  | other => Run.fail ctx (.typeMismatch "object" other.shapeName)
  m.finish ctx

end Reconciler

end GraphViews

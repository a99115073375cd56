import Mathlib
import GraphViews.Proofs.Staging
import GraphViews.Proofs.Routing
/-!
Lenient reading is strict reading of the pruned view.

With `ignoreUnknown` set, staging skips a property whose name routes nowhere: in an object
body, a property no child of the node answers to, in the namespace the property inherits; in
a `{key, value}` object of a map written as an array, a field that is neither the key nor the
value. `Lenient.pruneRoot sp` removes exactly those trees from the root tree of a view,
following the routing staging follows: the type an object is read as, the type a
discriminator moves it on to, and the namespaces inherited from the containers around. A
spliced subtree is kept as raw events by staging and read later, when the splice is applied,
with the spliced template; `sp` says how such a tree is pruned, and `pruneSpliced` prunes it as
the spliced template's root reads it, spliced template by spliced template (`pruneView`).

The main statement, `lenient_reading_resembles_pruned_view`, is about the reading phase: for a
view whose root is a well-formed tree within the nesting limit, reading it with the option set
(`Context.ignoring`) and reading the pruned view with the context as it is fail with the same
error or stage values that `Resembles`: equal, except that a spliced view on the strict side
is the lenient one pruned by its spliced template. Two conditions on the template make this
pruning static (`Node.prunable`): a route with a splice below it is the only route of its
name, so the node that reads a property is the one that later writes it; and a spliced object
root has no discriminator, so the type a spliced tree is read as does not depend on the
object it is applied to.

# How the proofs go

The option is read in one place, `Stage.unknown`; every other step of staging is the same
function of the context with the option set or not (the `_ignoring` lemmas). The two readers
walk different arrays, so the simulation relates their positions. `Before around cL cS t t'`
says that the lenient reader stands before the tree `t` and the strict one before `t'`, both
inside the containers `around` with the same open stack; `Closing` says the same of a forest
and the end event after it. `Agree R` relates two results: values `R` relates with each reader
past its tree, or the same error. `Skips sp fuel` is agreement for all eleven staging functions
at a lenient fuel, the strict fuel being any above the bound of `StageStable`; one step lemma
per function proves it at `fuel + 1` from `fuel`, and `skips` is the induction. A skipped tree
is read by `Reading.skip`, which reads exactly the tree's events (`Reading.skip_tree`); a
spliced tree is read whole on both sides, the strict reader reading its pruning, which
`Pruning` keeps in shape.
-/

namespace GraphViews

/-- The context with unknown properties ignored, everything else as it is. -/
def Context.ignoring (ctx : Context) : Context :=
  { ctx with options := { ctx.options with ignoreUnknown := true } }

namespace Context

@[simp] theorem ignoring_push (ctx : Context) (f : Frame) :
    ctx.ignoring.push f = (ctx.push f).ignoring := rfl

@[simp] theorem ignoring_error (ctx : Context) (k : ViewErrorKind) :
    ctx.ignoring.error k = ctx.error k := rfl

@[simp] theorem ignoring_maxDepth (ctx : Context) :
    ctx.ignoring.options.maxDepth = ctx.options.maxDepth := rfl

end Context

/-- Putting a property keeps the type of an entity. -/
@[simp] theorem Entity.type_put (e : Entity) (name : String) (v : Staged) :
    (e.put name v).type = e.type := by
  unfold Entity.put
  split <;> rfl

/-- A begin event is no null value. -/
theorem Event.isNullValue_of_isBegin {e : Event} (hb : e.kind.isBegin = true) :
    e.isNullValue = false := by
  simp only [Event.isNullValue, Bool.and_eq_false_iff]
  left
  cases hk : e.kind <;> simp_all [EventKind.isBegin]

namespace EventKind

/-- The begin kinds are the two that open a container. -/
theorem eq_of_isBegin {k : EventKind} (hb : k.isBegin = true) :
    k = .beginObject ∨ k = .beginArray := by
  cases k <;> simp_all [isBegin]

theorem bne_begin_of_isBegin_false {k : EventKind} (hb : k.isBegin = false) :
    (k != .beginObject) = true ∧ (k != .beginArray) = true := by
  cases k <;> simp_all [isBegin]

theorem bne_value_of_isBegin {k : EventKind} (hb : k.isBegin = true) : (k != .value) = true := by
  cases k <;> simp_all [isBegin]

end EventKind

namespace ViewTree

/-- The first event of a tree. -/
def head : ViewTree → Event
  | leaf e => e
  | node b _ _ => b

theorem events_eq_cons (t : ViewTree) : t.events = t.head :: t.events.tail := by
  cases t <;> simp [events, head]

theorem head_isEnd (t : ViewTree) (h : t.WellFormed) : t.head.kind.isEnd = false := by
  cases t with
  | leaf e => exact h.2
  | node b body e =>
    obtain ⟨hb, -, -⟩ := h
    cases hk : b.kind <;> simp_all [head, EventKind.isBegin, EventKind.isEnd]

end ViewTree

-- ============================================================ reading whole trees

namespace Reading

section Loop

variable (start : Nat) (context : String)

mutual

/-- The loop behind `skip`, inside more containers than it stops at, reads a tree and goes on
with the fuel it had beyond the tree's events. -/
theorem closeTo_tree : ∀ (t : ViewTree) (around : List Event) (c : Cursor) (f : Nat),
    t.WellFormed → t.depth + around.length ≤ c.maxDepth → c.stack = openStack around →
    start < around.length → t.events <+: c.events.toList.drop c.pos →
    (closeTo start context (t.events.length + f)).run c =
      (closeTo start context f).run { c with pos := c.pos + t.events.length }
  | .leaf e, around, c, f, hwf, _, hs, hstart, hnext => by
    obtain ⟨hb, hend⟩ := hwf
    rw [show (ViewTree.leaf e).events.length + f = f + 1 by simp [ViewTree.events]; omega,
      closeTo_succ f (by rw [hs, length_openStack]; exact hstart),
      next_leaf context ( peek_of_prefix (l := []) hnext) hb hend]
    simp [ViewTree.events]
  | .node b body e, around, c, f, hwf, hroom, hs, hstart, hnext => by
    obtain ⟨hb, hc, hwfs⟩ := hwf
    simp only [ViewTree.depth] at hroom
    have hroom₁ : c.stack.length < c.maxDepth := by rw [hs, length_openStack]; omega
    obtain ⟨hs₁, hrest, hclose⟩ := enter_container context hb hc hs hnext
    let inside : List (EventKind × Option String) := (b.kind, c.effectiveNamespace b) :: c.stack
    -- the body is read inside the container, then its end closes it
    have hbody := closeTo_forest body (b :: around)
      ⟨c.events, c.pos + 1, inside, c.maxDepth⟩ (f + 1) hwfs (by simp; omega) hs₁ (by simp; omega)
      ((List.prefix_append _ _).trans hrest)
    rw [show (ViewTree.node b body e).events.length + f =
        ((ViewTree.eventsOf body).length + (f + 1)) + 1 by simp [ViewTree.events]; omega,
      closeTo_succ _ (by rw [hs, length_openStack]; exact hstart),
      next_begin context ( peek_of_prefix hnext) hb hroom₁]
    dsimp only
    rw [hbody, closeTo_succ f (by simp [inside, hs, length_openStack]; omega)]
    rw [hclose]
    simp only [ViewTree.events, List.length_cons, List.length_append, List.length_nil,
      Nat.zero_add]
    rw [show c.pos + 1 + (ViewTree.eventsOf body).length + 1 =
      c.pos + ((ViewTree.eventsOf body).length + 1 + 1) by omega]

/-- The loop behind `skip` reads a forest the same way. -/
theorem closeTo_forest : ∀ (ts : List ViewTree) (around : List Event) (c : Cursor) (f : Nat),
    ViewTree.AllWellFormed ts → ViewTree.depthOf ts + around.length ≤ c.maxDepth →
    c.stack = openStack around → start < around.length →
    ViewTree.eventsOf ts <+: c.events.toList.drop c.pos →
    (closeTo start context ((ViewTree.eventsOf ts).length + f)).run c =
      (closeTo start context f).run { c with pos := c.pos + (ViewTree.eventsOf ts).length }
  | [], around, c, f, _, _, _, _, _ => by simp
  | t :: ts, around, c, f, hwf, hroom, hs, hstart, hnext => by
    rw [ViewTree.allWellFormed_cons] at hwf
    simp only [ViewTree.depthOf_cons] at hroom
    simp only [ViewTree.eventsOf_cons] at hnext ⊢
    rw [List.length_append, Nat.add_assoc,
      closeTo_tree t around c _ hwf.1 (by omega) hs hstart ((List.prefix_append _ _).trans hnext),
      closeTo_forest ts around _ f hwf.2 (by simp; omega) (by simpa using hs) hstart
        (by simpa using prefix_drop_append hnext)]
    simp [Nat.add_assoc]

end

end Loop

variable {context : String}

/-- **Skipping a tree.** With room for it, `skip` reads a well-formed tree whose events come
next, and leaves the open containers as they were. -/
theorem skip_tree {t : ViewTree} {around : List Event} {c : Cursor} (hwf : t.WellFormed)
    (hroom : t.depth + around.length ≤ c.maxDepth) (hs : c.stack = openStack around)
    (hnext : t.events <+: c.events.toList.drop c.pos) :
    (Reading.skip context).run c = .ok () { c with pos := c.pos + t.events.length } := by
  rw [skip_run]
  cases t with
  | leaf e =>
    obtain ⟨hb, hend⟩ := hwf
    rw [next_leaf context ( peek_of_prefix (l := []) hnext) hb hend]
    simp [hb, ViewTree.events]
  | node b body e =>
    obtain ⟨hb, hc, hwfs⟩ := hwf
    simp only [ViewTree.depth] at hroom
    have hroom₁ : c.stack.length < c.maxDepth := by rw [hs, length_openStack]; omega
    have hlen := hnext.length_le
    simp only [ViewTree.events, List.length_cons, List.length_append, List.length_drop,
      Array.length_toList] at hlen
    rw [next_begin context ( peek_of_prefix hnext) hb hroom₁]
    simp only [hb, if_true]
    -- the loop reads the body and the end that closes the container, then stops
    obtain ⟨hs₁, hrest, hclose⟩ := enter_container context hb hc hs hnext
    let inside : List (EventKind × Option String) := (b.kind, c.effectiveNamespace b) :: c.stack
    have hbody := closeTo_forest c.stack.length context body
      (b :: around) ⟨c.events, c.pos + 1, inside, c.maxDepth⟩
      (c.events.size - (ViewTree.eventsOf body).length) hwfs (by simp; omega) hs₁
      (by simp [hs, length_openStack]) ((List.prefix_append _ _).trans hrest)
    rw [show c.events.size = (ViewTree.eventsOf body).length +
        (c.events.size - (ViewTree.eventsOf body).length) by omega]
    rw [hbody, show c.events.size - (ViewTree.eventsOf body).length =
        (c.events.size - (ViewTree.eventsOf body).length - 1) + 1 by omega,
      closeTo_succ _ (by simp [inside])]
    rw [hclose]
    dsimp only
    rw [closeTo_done _ (show ({ c with pos := c.pos + 1 + (ViewTree.eventsOf body).length + 1 } :
      Cursor).stack.length ≤ c.stack.length from le_rfl)]
    simp only [ViewTree.events, List.length_cons, List.length_append, List.length_nil,
      Nat.zero_add]
    rw [show c.pos + 1 + (ViewTree.eventsOf body).length + 1 =
      c.pos + ((ViewTree.eventsOf body).length + 1 + 1) by omega]

/-- Reading a tree as a subtree returns its events. -/
theorem subtree_tree {t : ViewTree} {around : List Event} {c : Cursor} (hwf : t.WellFormed)
    (hroom : t.depth + around.length ≤ c.maxDepth) (hs : c.stack = openStack around)
    (hnext : t.events <+: c.events.toList.drop c.pos) :
    (Reading.subtree context).run c =
      .ok t.events.toArray { c with pos := c.pos + t.events.length } := by
  rw [subtree_run, skip_tree hwf hroom hs hnext]
  simp only [EStateM.Result.ok.injEq, and_true]
  apply Array.toList_inj.1
  rw [Array.toList_extract, List.extract_eq_take_drop, List.prefix_iff_eq_take.1 hnext]
  simp

end Reading

-- ============================================================ what lenient reading skips

namespace Node

/-- The node or a node below it, through its children and branches, is a splice. -/
def hasSplice : Node → Bool
  | ⟨info, children, _⟩ => info.kind == .splice || hasSpliceOf children
where
  hasSpliceOf : List Node → Bool
    | [] => false
    | c :: cs => hasSplice c || hasSpliceOf cs

/-- The node a name routes to when a splice is below that node. -/
def splicedRoute? (n : Node) (x : String) : Option Node :=
  (n.routes.find? fun r => r.1 == x && r.2.1.hasSplice).map (·.2.1)

/-- A route with a splice below it is the only route of its name. -/
def routesApart (n : Node) : Bool :=
  n.routes.all fun r => !r.2.1.hasSplice || (n.routes.filter (·.1 == r.1)).length == 1

/-- Pruning is static for the node: at the node and at every node below it, through children,
branches and spliced templates, a route with a splice below it is the only route of its name,
and a spliced object root has no discriminator. -/
def prunable : Node → Bool
  | ⟨info, children, splice⟩ =>
    routesApart ⟨info, children, splice⟩ && prunableOf children && prunableSplice splice
where
  prunableOf : List Node → Bool
    | [] => true
    | c :: cs => prunable c && prunableOf cs
  prunableSplice : Option (Node × Option String) → Bool
    | some (root, _) => (root.kind != .object || !root.discriminated) && prunable root
    | none => true

end Node

namespace Lenient

/-- The type a discriminator tree resolves to among the candidates, where it does. -/
def resolvedType (d : Node) (candidates : List ModelType) : ViewTree → Option ModelType
  | .leaf e =>
    if e.kind == .discriminator || e.kind == .value then
      match d.info.discriminator with
      | some s => (s.resolve (e.value.getD .null) candidates).toOption
      | none => none
    else none
  | .node .. => none

section Pruning

/- `sp root t` is a spliced tree `t` as the template with the root `root` reads it when the
splice is applied. -/
variable (sp : Node → ViewTree → ViewTree)

/-- A tree a splice node keeps, pruned by its spliced template. -/
def splicedTree (n : Node) (t : ViewTree) : ViewTree :=
  match n.splice with
  | some (root, _) => sp root t
  | none => t

mutual

/-- A tree read by a node, without the elements lenient reading skips inside it. -/
def pruneNode (n : Node) (around : List Event) : ViewTree → ViewTree
  | .leaf e => .leaf e
  | .node b body e =>
    match n.kind with
    | .object | .reference | .envelope =>
      match n.modelType with
      | some ty => .node b (pruneBody n ty (b :: around) body) e
      | none => .node b body e
    | .arrayOfObjects | .arrayOfValues => .node b (pruneElements n (b :: around) body) e
    | .mapOfObjects | .mapOfValues =>
      if n.info.stringKeys then .node b (pruneElements n (b :: around) body) e
      else .node b (pruneEntries n (b :: around) body) e
    | .splice => splicedTree sp n (.node b body e)
    | _ => .node b body e

/-- An element of a collection or the value of a map entry. -/
def pruneElement (n : Node) (around : List Event) : ViewTree → ViewTree
  | .leaf e => .leaf e
  | .node b body e =>
    if n.kind == .arrayOfObjects || n.kind == .mapOfObjects then
      match n.modelType with
      | some ty => .node b (pruneBody n ty (b :: around) body) e
      | none => .node b body e
    else .node b body e

/-- The properties of an object of type `ty`: a property whose name routes nowhere is
dropped, a discriminator moves the type on. -/
def pruneBody (n : Node) (ty : ModelType) (around : List Event) : List ViewTree → List ViewTree
  | [] => []
  | t :: ts =>
    match t.head.name with
    | none => t :: ts
    | some name =>
      match n.route? name (inheritedNamespace t.head around) ty with
      | none => pruneBody n ty around ts
      | some child =>
        if child.kind == .discriminator then
          match resolvedType child n.candidates t with
          | some ty' => t :: pruneBody n ty' around ts
          | none => t :: ts
        else pruneNode child around t :: pruneBody n ty around ts

/-- The elements of a collection, or the entries of a map written as an object. -/
def pruneElements (n : Node) (around : List Event) : List ViewTree → List ViewTree
  | [] => []
  | t :: ts => pruneElement n around t :: pruneElements n around ts

/-- The `{key, value}` objects of a map written as an array. -/
def pruneEntries (n : Node) (around : List Event) : List ViewTree → List ViewTree
  | [] => []
  | .leaf e :: ts => .leaf e :: pruneEntries n around ts
  | .node b fields e :: ts => .node b (pruneFields n (b :: around) fields) e :: pruneEntries n around ts

/-- The fields of a `{key, value}` object: a field other than the key and the value is
dropped. -/
def pruneFields (n : Node) (around : List Event) : List ViewTree → List ViewTree
  | [] => []
  | t :: ts =>
    match t.head.name with
    | some "key" => t :: pruneFields n around ts
    | some "value" => pruneElement n around t :: pruneFields n around ts
    | some _ => pruneFields n around ts
    | none => t :: ts

end

/-- An object read as the type `ty`. -/
def pruneObject (n : Node) (ty : ModelType) (around : List Event) : ViewTree → ViewTree
  | .leaf e => .leaf e
  | .node b body e => .node b (pruneBody sp n ty (b :: around) body) e

/-- A collection. -/
def pruneArray (n : Node) (around : List Event) : ViewTree → ViewTree
  | .leaf e => .leaf e
  | .node b body e => .node b (pruneElements sp n (b :: around) body) e

/-- A map, written as an object when its keys are texts, else as an array of entries. -/
def pruneMap (n : Node) (around : List Event) : ViewTree → ViewTree
  | .leaf e => .leaf e
  | .node b body e =>
    if n.info.stringKeys then .node b (pruneElements sp n (b :: around) body) e
    else .node b (pruneEntries sp n (b :: around) body) e

/-- One `{key, value}` object. -/
def pruneEntry (n : Node) (around : List Event) : ViewTree → ViewTree
  | .leaf e => .leaf e
  | .node b fields e => .node b (pruneFields sp n (b :: around) fields) e

/-- The root tree of a view read with a template's root, as `initial` when it is given. -/
def pruneRoot (r : Node) (initial : Option ModelType) (t : ViewTree) : ViewTree :=
  match r.kind, initial with
  | .object, some ty => pruneObject sp r ty [] t
  | _, _ => pruneNode sp r [] t

end Pruning

/-- Pruning `k` spliced templates deep: a spliced tree is pruned as the root of its template
reads it, and so on inside it. -/
def pruneSpliced : Nat → Node → ViewTree → ViewTree
  | 0, _, t => t
  | k + 1, root, t => pruneRoot (pruneSpliced k) root none t

/-- The root tree of a view applied with a template's root, read as `initial`, without what
lenient application skips, inside spliced subtrees too. Spliced templates are parts of the
root, so they nest fewer times than the root has nodes. -/
def pruneView (root : Node) (initial : Option ModelType) (t : ViewTree) : ViewTree :=
  pruneRoot (pruneSpliced root.size) root initial t

-- ============================================================ staged values that resemble

section Resemblance

variable (sp : Node → ViewTree → ViewTree) (D : Nat)

mutual

/-- What the lenient reader stages for the node `n` and what the strict reader stages from the
pruned view: the same value, except that a spliced view of a splice node is, on the strict
side, the lenient one pruned by the spliced template. The lenient spliced views are
well-formed trees no deeper than `D`. -/
inductive Resembles : Node → Staged → Staged → Prop
  | value {n : Node} (s : Scalar) : Resembles n (.value s) (.value s)
  | null {n : Node} : Resembles n .null .null
  | unchanged {n : Node} : Resembles n .unchanged .unchanged
  | metaValue {n : Node} (s : Scalar) : Resembles n (.metaValue s) (.metaValue s)
  | entity {n : Node} {t : ModelType} {ps qs : List (String × Staged)} :
      PropsResemble n ps qs → Resembles n (.entity t ps) (.entity t qs)
  | elements {n : Node} {xs ys : List Staged} :
      ItemsResemble n xs ys → Resembles n (.elements xs) (.elements ys)
  | entries {n : Node} {xs ys : List (Scalar × Staged)} :
      EntriesResemble n xs ys → Resembles n (.entries xs) (.entries ys)
  | spliced {n : Node} {t : ViewTree} : n.kind = .splice → t.WellFormed → t.depth ≤ D →
      Resembles n (.spliced t.events.toArray) (.spliced (pruneNode sp n [] t).events.toArray)
  | plainSpliced {n : Node} (v : View) : n.kind ≠ .splice → Resembles n (.spliced v) (.spliced v)

/-- The properties of entities staged for `n`: a property that routes to a node with a
splice below it resembles as that node stages it; any other is the same on both sides. -/
inductive PropsResemble : Node → List (String × Staged) → List (String × Staged) → Prop
  | nil {n : Node} : PropsResemble n [] []
  | spliced {n c : Node} {x : String} {a b : Staged} {ps qs : List (String × Staged)} :
      n.splicedRoute? x = some c → Resembles c a b → PropsResemble n ps qs →
      PropsResemble n ((x, a) :: ps) ((x, b) :: qs)
  | plain {n : Node} {x : String} {a : Staged} {ps qs : List (String × Staged)} :
      n.splicedRoute? x = none → PropsResemble n ps qs →
      PropsResemble n ((x, a) :: ps) ((x, a) :: qs)

/-- The elements of a collection staged for `n`. -/
inductive ItemsResemble : Node → List Staged → List Staged → Prop
  | nil {n : Node} : ItemsResemble n [] []
  | cons {n : Node} {a b : Staged} {xs ys : List Staged} :
      Resembles n a b → ItemsResemble n xs ys → ItemsResemble n (a :: xs) (b :: ys)

/-- The entries of a map staged for `n`: the same keys, values that resemble. -/
inductive EntriesResemble : Node → List (Scalar × Staged) → List (Scalar × Staged) → Prop
  | nil {n : Node} : EntriesResemble n [] []
  | cons {n : Node} (k : Scalar) {a b : Staged} {xs ys : List (Scalar × Staged)} :
      Resembles n a b → EntriesResemble n xs ys → EntriesResemble n ((k, a) :: xs) ((k, b) :: ys)

end

/-- Entities staged for `n` that resemble: the same type, properties that resemble. -/
structure EntityResembles (n : Node) (e f : Entity) : Prop where
  type : e.type = f.type
  props : PropsResemble sp D n e.props f.props

end Resemblance

-- ============================================================ two runs that agree

/-- Two reading runs agree: both succeed, with values `R` relates, the lenient one ending at
`cL'` and the strict one at `cS'`, or both fail with the same error. -/
def Agree {α : Type} (R : α → α → Prop) (cL' cS' : Cursor) :
    EStateM.Result ViewError Cursor α → EStateM.Result ViewError Cursor α → Prop
  | .ok a x, .ok b y => R a b ∧ x = cL' ∧ y = cS'
  | .error e _, .error e' _ => e = e'
  | _, _ => False

namespace Agree

variable {α β : Type} {R : α → α → Prop} {R' : β → β → Prop} {cL cS c₁L c₁S cL' cS' : Cursor}

theorem of_ok {xL xS : Stage α} {a b : α} (hR : R a b) (hL : xL cL = .ok a c₁L)
    (hS : xS cS = .ok b c₁S) : Agree R c₁L c₁S (xL cL) (xS cS) := by
  rw [hL, hS]
  exact ⟨hR, rfl, rfl⟩

theorem bind {xL xS : Stage α} {fL fS : α → Stage β} (hx : Agree R c₁L c₁S (xL cL) (xS cS))
    (hf : ∀ a b, R a b → xL cL = .ok a c₁L → xS cS = .ok b c₁S →
      Agree R' cL' cS' (fL a c₁L) (fS b c₁S)) :
    Agree R' cL' cS' ((xL >>= fL) cL) ((xS >>= fS) cS) := by
  simp only [Bind.bind, EStateM.bind]
  rcases hL : xL cL with ⟨a, x⟩ | ⟨e, x⟩ <;> rcases hS : xS cS with ⟨b, y⟩ | ⟨e', y⟩ <;>
    rw [hL, hS] at hx <;> simp only [Agree] at hx
  · obtain ⟨hR, rfl, rfl⟩ := hx
    exact hf a b hR hL hS
  · exact hx

/-- Both sides read the same value first: the rest agrees when it agrees after that value. -/
theorem bind_ok {xL xS : Stage α} {a : α} {fL fS : α → Stage β} (hL : xL cL = .ok a c₁L)
    (hS : xS cS = .ok a c₁S) (hf : Agree R' cL' cS' (fL a c₁L) (fS a c₁S)) :
    Agree R' cL' cS' ((xL >>= fL) cL) ((xS >>= fS) cS) := by
  simp only [Bind.bind, EStateM.bind, hL, hS]
  exact hf

theorem map {xL xS : Stage α} {f g : α → β} (hx : Agree R cL' cS' (xL cL) (xS cS))
    (hfg : ∀ a b, R a b → R' (f a) (g b)) :
    Agree R' cL' cS' ((f <$> xL) cL) ((g <$> xS) cS) := by
  simp only [Functor.map, EStateM.map]
  rcases hL : xL cL with ⟨a, x⟩ | ⟨e, x⟩ <;> rcases hS : xS cS with ⟨b, y⟩ | ⟨e', y⟩ <;>
    rw [hL, hS] at hx <;> simp only [Agree] at hx ⊢
  · obtain ⟨hR, rfl, rfl⟩ := hx
    exact ⟨hfg a b hR, rfl, rfl⟩
  · exact hx

theorem pure {a b : α} (hR : R a b) :
    Agree R cL cS ((pure a : Stage α) cL) ((pure b : Stage α) cS) :=
  ⟨hR, rfl, rfl⟩

theorem fail (ctx : Context) (k : ViewErrorKind) :
    Agree R cL' cS' (Stage.fail ctx k cL : EStateM.Result ViewError Cursor α)
      (Stage.fail ctx k cS) := rfl

theorem fail_bind (ctx : Context) (k : ViewErrorKind) {fL fS : α → Stage β} :
    Agree R' cL' cS' ((Stage.fail ctx k >>= fL) cL) ((Stage.fail ctx k >>= fS) cS) := rfl

/-- Converting a scalar reads nothing, and converts alike on both sides. -/
theorem scalarToModel (ctx : Context) (n : Node) (v : Scalar) :
    Agree Eq cL cS (Stage.scalarToModel ctx n v cL) (Stage.scalarToModel ctx n v cS) := by
  simp only [Stage.scalarToModel]
  cases toModel (n.info.converter <|> n.info.scalarKind.bind ctx.converterFor) v
      n.info.scalarKind with
  | ok w => exact Agree.pure rfl
  | error err => exact Agree.fail ctx _

theorem keyToModel (ctx : Context) (n : Node) (k : Scalar) :
    Agree Eq cL cS (Stage.keyToModel ctx n k cL) (Stage.keyToModel ctx n k cS) := by
  simp only [Stage.keyToModel]
  cases toModel (n.info.keyConverter <|> n.info.keyKind.bind ctx.converterFor) k
      n.info.keyKind with
  | ok w => exact Agree.pure rfl
  | error err => exact Agree.fail ctx _

/-- A scalar, or a property kept unchanged, is the same on both sides. -/
theorem scalar (sp : Node → ViewTree → ViewTree) (D : Nat) (m : Node) (ctx : Context) (n : Node)
    (e : Event) :
    Agree (Resembles sp D m) cL cS (Stage.scalar ctx n e cL) (Stage.scalar ctx n e cS) := by
  simp only [Stage.scalar]
  cases ctx.willInjectValue n (e.value.getD .null) with
  | none => exact Agree.pure .unchanged
  | some v =>
    dsimp only
    split
    · exact Agree.pure (.value v)
    · exact Agree.map (scalarToModel ctx n v) fun a b h => h ▸ .value a

/-- Reading an event of an expected kind, after the same event on both sides. -/
theorem expect {k : EventKind} {x : String} {e : Event}
    (hL : Stage.next ctx x cL = .ok e c₁L) (hS : Stage.next ctx x cS = .ok e c₁S) :
    Agree Eq c₁L c₁S (Stage.read ctx (Reading.expect k x) cL)
      (Stage.read ctx (Reading.expect k x) cS) := by
  have hL' : Reading.next x cL = .ok e c₁L := Stage.next_ok_run hL
  have hS' : Reading.next x cS = .ok e c₁S := Stage.next_ok_run hS
  simp only [Stage.read, Reading.expect, Bind.bind, EStateM.bind, hL', hS']
  by_cases hk : (e.kind != k) = true
  · simp [hk, Agree, throw, throwThe, MonadExceptOf.throw, EStateM.throw, EStateM.bind]
  · simp [hk, Agree, Pure.pure, EStateM.pure]

/-- An expected kind read after the same event on both sides: where the kind is another, both
fail alike. -/
theorem expect_bind {k : EventKind} {x : String} {e : Event} {fL fS : Event → Stage β}
    (hL : Stage.next ctx x cL = .ok e c₁L) (hS : Stage.next ctx x cS = .ok e c₁S)
    (hf : e.kind = k → Agree R' cL' cS' (fL e c₁L) (fS e c₁S)) :
    Agree R' cL' cS' ((Stage.read ctx (Reading.expect k x) >>= fL) cL)
      ((Stage.read ctx (Reading.expect k x) >>= fS) cS) := by
  refine Agree.bind (Agree.expect hL hS) fun a b hab hL' _ => ?_
  subst hab
  obtain ⟨hnext, hka⟩ := Reading.expect_ok (Stage.read_ok_run hL')
  rw [Stage.next_ok_run hL] at hnext
  cases hnext
  exact hf hka

end Agree

end Lenient

-- ============================================================ routes with splices below

namespace Node

theorem hasSplice_eq (c : Node) :
    c.hasSplice = (c.kind == .splice || c.children.any hasSplice) := by
  obtain ⟨info, children, sp⟩ := c
  have hof : ∀ cs : List Node, hasSplice.hasSpliceOf cs = cs.any hasSplice := by
    intro cs
    induction cs with
    | nil => rfl
    | cons b cs ih => simp [hasSplice.hasSpliceOf, ih]
  simp [hasSplice, hof, Node.kind]

theorem hasSplice_of_splice {c : Node} (hk : c.kind = .splice) : c.hasSplice = true := by
  simp [hasSplice_eq, hk]

theorem prunable_iff (c : Node) :
    c.prunable = true ↔ c.routesApart = true ∧ (∀ b ∈ c.children, b.prunable = true) ∧
      ∀ r p, c.splice = some (r, p) → (r.kind ≠ .object ∨ r.discriminated = false) ∧
        r.prunable = true := by
  obtain ⟨info, children, sp⟩ := c
  have hof : ∀ cs : List Node, prunable.prunableOf cs = cs.all prunable := by
    intro cs
    induction cs with
    | nil => rfl
    | cons b cs ih => simp [prunable.prunableOf, ih]
  cases sp with
  | none => simp [prunable, hof, prunable.prunableSplice]
  | some rp =>
    obtain ⟨r, p⟩ := rp
    simp [prunable, hof, prunable.prunableSplice, Bool.or_eq_true, bne_iff_ne, and_assoc]

/-- A node a route reaches lies below the node: a splice below it is below the node, and it
is prunable when the node is. -/
theorem below_of_mem_routes {c m : Node} {x : String} {g : Option ModelType}
    (hr : (x, m, g) ∈ c.routes) :
    (m.hasSplice = true → c.hasSplice = true) ∧ (c.prunable = true → m.prunable = true) := by
  obtain ⟨b, hb, ⟨-, rfl, -, -⟩ | ⟨-, g', hr', -⟩⟩ := mem_routes.1 hr
  · refine ⟨fun hm => ?_, fun hc => (prunable_iff c).1 hc |>.2.1 m hb⟩
    rw [hasSplice_eq]
    simp only [Bool.or_eq_true, List.any_eq_true]
    exact .inr ⟨m, hb, hm⟩
  · obtain ⟨hs, hp⟩ := below_of_mem_routes hr'
    refine ⟨fun hm => ?_, fun hc => hp ((prunable_iff c).1 hc |>.2.1 b hb)⟩
    rw [hasSplice_eq]
    simp only [Bool.or_eq_true, List.any_eq_true]
    exact .inr ⟨b, hb, hs hm⟩
termination_by sizeOf c
decreasing_by exact sizeOf_lt_of_mem_children hb

/-- The node a name routes to is a route of that name. -/
theorem mem_routes_of_route? {n d : Node} {x : String} {ns : Option String} {ty : ModelType}
    (h : n.route? x ns ty = some d) : ∃ g, (x, d, g) ∈ n.routes := by
  simp only [route?, Option.map_eq_some_iff] at h
  obtain ⟨⟨x', d', g⟩, hf, rfl⟩ := h
  have hp := List.find?_some hf
  simp only [Bool.and_eq_true, beq_iff_eq] at hp
  obtain ⟨⟨rfl, -⟩, -⟩ := hp
  exact ⟨g, List.mem_of_find?_eq_some hf⟩

/-- Without a route to a splice for a name, no route of that name has a splice below it. -/
theorem hasSplice_of_splicedRoute?_none {n d : Node} {x : String} {g : Option ModelType}
    (h : n.splicedRoute? x = none) (hr : (x, d, g) ∈ n.routes) : d.hasSplice = false := by
  simp only [splicedRoute?, Option.map_eq_none_iff, List.find?_eq_none] at h
  simpa using h _ hr

/-- The route to a splice for a name is a route of that name with a splice below it. -/
theorem of_splicedRoute?_some {n c : Node} {x : String} (h : n.splicedRoute? x = some c) :
    (∃ g, (x, c, g) ∈ n.routes) ∧ c.hasSplice = true := by
  simp only [splicedRoute?, Option.map_eq_some_iff] at h
  obtain ⟨⟨x', c', g⟩, hf, rfl⟩ := h
  have hp := List.find?_some hf
  simp only [Bool.and_eq_true, beq_iff_eq] at hp
  obtain ⟨rfl, hs⟩ := hp
  exact ⟨⟨g, List.mem_of_find?_eq_some hf⟩, hs⟩

/-- With routes apart, every route of a name that routes to a splice reaches that node. -/
theorem eq_of_splicedRoute?_some {n c d : Node} {x : String} {g : Option ModelType}
    (hn : n.routesApart = true) (h : n.splicedRoute? x = some c) (hr : (x, d, g) ∈ n.routes) :
    d = c := by
  obtain ⟨⟨g', hc⟩, hs⟩ := of_splicedRoute?_some h
  have hone := List.all_eq_true.1 hn _ hc
  simp only [hs, Bool.not_true, Bool.false_or, beq_iff_eq] at hone
  obtain ⟨r, hr₁⟩ := List.length_eq_one_iff.1 hone
  have hd : (x, d, g) ∈ n.routes.filter (·.1 == x) := List.mem_filter.2 ⟨hr, by simp⟩
  have hc' : (x, c, g') ∈ n.routes.filter (·.1 == x) := List.mem_filter.2 ⟨hc, by simp⟩
  rw [hr₁, List.mem_singleton] at hd hc'
  have hdc := hd.trans hc'.symm
  simp only [Prod.mk.injEq] at hdc
  exact hdc.2.1

/-- A node without a splice below it routes no name to a splice. -/
theorem splicedRoute?_of_hasSplice_false {n : Node} (hn : n.hasSplice = false) (x : String) :
    n.splicedRoute? x = none := by
  cases h : n.splicedRoute? x with
  | none => rfl
  | some c =>
    obtain ⟨⟨g, hr⟩, hs⟩ := of_splicedRoute?_some h
    rw [(below_of_mem_routes hr).1 hs] at hn
    cases hn

end Node

namespace Lenient

section Resemblance

variable {sp : Node → ViewTree → ViewTree} {D : Nat}

mutual

/-- For a node without a splice below it, resembling is equality. -/
theorem Resembles.eq_of_plain : ∀ {n : Node} {a b : Staged}, n.hasSplice = false →
    Resembles sp D n a b → a = b
  | _, _, _, _, .value _ => rfl
  | _, _, _, _, .null => rfl
  | _, _, _, _, .unchanged => rfl
  | _, _, _, _, .metaValue _ => rfl
  | _, _, _, hn, .entity h => by rw [PropsResemble.eq_of_plain hn h]
  | _, _, _, hn, .elements h => by rw [ItemsResemble.eq_of_plain hn h]
  | _, _, _, hn, .entries h => by rw [EntriesResemble.eq_of_plain hn h]
  | _, _, _, hn, .spliced hk _ _ => by rw [Node.hasSplice_of_splice hk] at hn; cases hn
  | _, _, _, _, .plainSpliced _ _ => rfl

theorem PropsResemble.eq_of_plain : ∀ {n : Node} {ps qs : List (String × Staged)},
    n.hasSplice = false → PropsResemble sp D n ps qs → ps = qs
  | _, _, _, _, .nil => rfl
  | _, _, _, hn, .spliced hc _ _ => by
    rw [Node.splicedRoute?_of_hasSplice_false hn] at hc
    cases hc
  | _, _, _, hn, .plain _ h => by rw [PropsResemble.eq_of_plain hn h]

theorem ItemsResemble.eq_of_plain : ∀ {n : Node} {xs ys : List Staged},
    n.hasSplice = false → ItemsResemble sp D n xs ys → xs = ys
  | _, _, _, _, .nil => rfl
  | _, _, _, hn, .cons h t => by rw [Resembles.eq_of_plain hn h, ItemsResemble.eq_of_plain hn t]

theorem EntriesResemble.eq_of_plain : ∀ {n : Node} {xs ys : List (Scalar × Staged)},
    n.hasSplice = false → EntriesResemble sp D n xs ys → xs = ys
  | _, _, _, _, .nil => rfl
  | _, _, _, hn, .cons _ h t => by
    rw [Resembles.eq_of_plain hn h, EntriesResemble.eq_of_plain hn t]

end

mutual

/-- For a node without a splice below it, every staged value resembles itself. -/
theorem Resembles.refl_of_plain {n : Node} (hn : n.hasSplice = false) :
    ∀ a : Staged, Resembles sp D n a a
  | .value s => .value s
  | .entity _ ps => .entity (PropsResemble.refl_of_plain hn ps)
  | .null => .null
  | .unchanged => .unchanged
  | .elements xs => .elements (ItemsResemble.refl_of_plain hn xs)
  | .entries xs => .entries (EntriesResemble.refl_of_plain hn xs)
  | .metaValue s => .metaValue s
  | .spliced v => .plainSpliced v fun hk => by rw [Node.hasSplice_of_splice hk] at hn; cases hn

theorem PropsResemble.refl_of_plain {n : Node} (hn : n.hasSplice = false) :
    ∀ ps : List (String × Staged), PropsResemble sp D n ps ps
  | [] => .nil
  | (x, _) :: ps =>
    .plain (Node.splicedRoute?_of_hasSplice_false hn x) (PropsResemble.refl_of_plain hn ps)

theorem ItemsResemble.refl_of_plain {n : Node} (hn : n.hasSplice = false) :
    ∀ xs : List Staged, ItemsResemble sp D n xs xs
  | [] => .nil
  | a :: xs => .cons (Resembles.refl_of_plain hn a) (ItemsResemble.refl_of_plain hn xs)

theorem EntriesResemble.refl_of_plain {n : Node} (hn : n.hasSplice = false) :
    ∀ xs : List (Scalar × Staged), EntriesResemble sp D n xs xs
  | [] => .nil
  | (k, a) :: xs => .cons k (Resembles.refl_of_plain hn a) (EntriesResemble.refl_of_plain hn xs)

end

variable (sp D) in
/-- One property of entities staged for `n`, named `x`: as the node with a splice below it
that `x` routes to stages it, or the same on both sides. -/
def PropResembles (n : Node) (x : String) (a b : Staged) : Prop :=
  (∃ c, n.splicedRoute? x = some c ∧ Resembles sp D c a b) ∨ (n.splicedRoute? x = none ∧ a = b)

theorem PropsResemble.cons {n : Node} {x : String} {a b : Staged}
    {ps qs : List (String × Staged)} (h : PropResembles sp D n x a b)
    (t : PropsResemble sp D n ps qs) : PropsResemble sp D n ((x, a) :: ps) ((x, b) :: qs) := by
  rcases h with ⟨c, hc, hab⟩ | ⟨hc, rfl⟩
  · exact .spliced hc hab t
  · exact .plain hc t

/-- A value a route stages resembles as a property of the node routed from. -/
theorem PropResembles.of_route {n d : Node} {x : String} {g : Option ModelType} {a b : Staged}
    (hn : n.routesApart = true) (hr : (x, d, g) ∈ n.routes) (h : Resembles sp D d a b) :
    PropResembles sp D n x a b := by
  cases hc : n.splicedRoute? x with
  | some c => exact .inl ⟨c, hc, Node.eq_of_splicedRoute?_some hn hc hr ▸ h⟩
  | none => exact .inr ⟨hc, h.eq_of_plain (Node.hasSplice_of_splicedRoute?_none hc hr)⟩

/-- A property resembles as the route of its name stages it. -/
theorem PropResembles.to_route {n d : Node} {x : String} {g : Option ModelType} {a b : Staged}
    (hn : n.routesApart = true) (hr : (x, d, g) ∈ n.routes) (h : PropResembles sp D n x a b) :
    Resembles sp D d a b := by
  rcases h with ⟨c, hc, hab⟩ | ⟨hc, rfl⟩
  · exact Node.eq_of_splicedRoute?_some hn hc hr ▸ hab
  · exact Resembles.refl_of_plain (Node.hasSplice_of_splicedRoute?_none hc hr) a

theorem PropsResemble.names : ∀ {n : Node} {ps qs : List (String × Staged)},
    PropsResemble sp D n ps qs → ps.map (·.1) = qs.map (·.1)
  | _, _, _, .nil => rfl
  | _, _, _, .spliced _ _ t => by simp [PropsResemble.names t]
  | _, _, _, .plain _ t => by simp [PropsResemble.names t]

/-- Putting a property in place of one of the same name keeps properties resembling. -/
theorem PropsResemble.replace {n : Node} {x : String} {a b : Staged}
    (hx : PropResembles sp D n x a b) : ∀ {ps qs : List (String × Staged)},
    PropsResemble sp D n ps qs →
      PropsResemble sp D n (ps.map fun p => if p.1 == x then (x, a) else p)
        (qs.map fun p => if p.1 == x then (x, b) else p)
  | _, _, .nil => .nil
  | _, _, .spliced (x := y) hc h t => by
    by_cases hy : y = x
    · subst hy
      simpa using PropsResemble.cons hx (PropsResemble.replace hx t)
    · simpa [hy] using PropsResemble.spliced hc h (PropsResemble.replace hx t)
  | _, _, .plain (x := y) hc t => by
    by_cases hy : y = x
    · subst hy
      simpa using PropsResemble.cons hx (PropsResemble.replace hx t)
    · simpa [hy] using PropsResemble.plain hc (PropsResemble.replace hx t)

theorem PropsResemble.append {n : Node} {ps qs ps' qs' : List (String × Staged)}
    (h : PropsResemble sp D n ps qs) (h' : PropsResemble sp D n ps' qs') :
    PropsResemble sp D n (ps ++ ps') (qs ++ qs') := by
  match h with
  | .nil => exact h'
  | .spliced hc hab t => exact .spliced hc hab (t.append h')
  | .plain hc t => exact .plain hc (t.append h')

/-- Putting a property into entities that resemble keeps them resembling. -/
theorem EntityResembles.put {n : Node} {e f : Entity} {x : String} {a b : Staged}
    (h : EntityResembles sp D n e f) (hx : PropResembles sp D n x a b) :
    EntityResembles sp D n (e.put x a) (f.put x b) := by
  have hany : e.props.any (·.1 == x) = f.props.any (·.1 == x) := by
    have hmap : ∀ ps : List (String × Staged), ps.any (·.1 == x) = (ps.map (·.1)).any (· == x) := by
      intro ps
      simp [List.any_map, Function.comp_def]
    rw [hmap, hmap f.props, h.props.names]
  unfold Entity.put
  rw [hany]
  split
  · exact ⟨h.type, h.props.replace hx⟩
  · exact ⟨h.type, h.props.append (.cons hx .nil)⟩

theorem EntityResembles.toStaged {n : Node} {e f : Entity} (h : EntityResembles sp D n e f) :
    Resembles sp D n e.toStaged f.toStaged := by
  simp only [Entity.toStaged, h.type]
  exact .entity h.props

theorem ItemsResemble.append {n : Node} {xs ys : List Staged} {a b : Staged}
    (h : ItemsResemble sp D n xs ys) (hab : Resembles sp D n a b) :
    ItemsResemble sp D n (xs ++ [a]) (ys ++ [b]) := by
  match h with
  | .nil => exact .cons hab .nil
  | .cons h t => exact .cons h (t.append hab)

theorem EntriesResemble.append {n : Node} {xs ys : List (Scalar × Staged)} {k : Scalar}
    {a b : Staged} (h : EntriesResemble sp D n xs ys) (hab : Resembles sp D n a b) :
    EntriesResemble sp D n (xs ++ [(k, a)]) (ys ++ [(k, b)]) := by
  match h with
  | .nil => exact .cons k hab .nil
  | .cons k' h t => exact .cons k' h (t.append hab)

theorem ItemsResemble.length_eq : ∀ {n : Node} {xs ys : List Staged},
    ItemsResemble sp D n xs ys → xs.length = ys.length
  | _, _, _, .nil => rfl
  | _, _, _, .cons _ t => by simp [ItemsResemble.length_eq t]

theorem EntriesResemble.length_eq : ∀ {n : Node} {xs ys : List (Scalar × Staged)},
    EntriesResemble sp D n xs ys → xs.length = ys.length
  | _, _, _, .nil => rfl
  | _, _, _, .cons _ _ t => by simp [EntriesResemble.length_eq t]

/-- A null, or a property kept unchanged, resembles itself. -/
theorem Resembles.null_of (n : Node) (ctx : Context) (m : Node) :
    Resembles sp D n (Stage.null ctx m) (Stage.null ctx m) := by
  unfold Stage.null
  split
  · exact .null
  · exact .unchanged

end Resemblance

end Lenient

namespace Lenient

-- ============================================================ pruning keeps trees in shape

/-- A tree kept whole, or pruned, is well formed and no deeper. -/
def InShape (t' t : ViewTree) : Prop := t'.WellFormed ∧ t'.depth ≤ t.depth

/-- A forest kept whole, or pruned, is well formed and no deeper. -/
def AllInShape (ts' ts : List ViewTree) : Prop :=
  ViewTree.AllWellFormed ts' ∧ ViewTree.depthOf ts' ≤ ViewTree.depthOf ts

/-- What reading a pruned view needs of the pruning of spliced trees: it keeps a well-formed
tree in shape and its first event, and a leaf as it is. -/
structure Pruning (sp : Node → ViewTree → ViewTree) : Prop where
  inShape : ∀ root t, t.WellFormed → InShape (sp root t) t
  head : ∀ root t, (sp root t).head = t.head
  leaf : ∀ root e, sp root (.leaf e) = .leaf e

section Shape

variable {sp : Node → ViewTree → ViewTree}

theorem InShape.node {b e : Event} {body body' : List ViewTree}
    (h : (ViewTree.node b body e).WellFormed) (hb : AllInShape body' body) :
    InShape (.node b body' e) (.node b body e) :=
  ⟨⟨h.1, h.2.1, hb.1⟩, by simp only [ViewTree.depth]; have := hb.2; omega⟩

theorem AllInShape.cons {t t' : ViewTree} {ts ts' : List ViewTree} (h : InShape t' t)
    (hs : AllInShape ts' ts) : AllInShape (t' :: ts') (t :: ts) :=
  ⟨(ViewTree.allWellFormed_cons _ _).2 ⟨h.1, hs.1⟩, by
    simp only [ViewTree.depthOf_cons]; have := h.2; have := hs.2; omega⟩

theorem AllInShape.drop {t : ViewTree} {ts ts' : List ViewTree} (hs : AllInShape ts' ts) :
    AllInShape ts' (t :: ts) :=
  ⟨hs.1, by simp only [ViewTree.depthOf_cons]; have := hs.2; omega⟩

theorem AllInShape.refl {ts : List ViewTree} (h : ViewTree.AllWellFormed ts) : AllInShape ts ts :=
  ⟨h, le_rfl⟩

theorem splicedTree_inShape (hsp : Pruning sp) (n : Node) {t : ViewTree} (h : t.WellFormed) :
    InShape (splicedTree sp n t) t := by
  unfold splicedTree
  split
  · exact hsp.inShape _ _ h
  · exact ⟨h, le_rfl⟩

mutual

theorem pruneNode_inShape (hsp : Pruning sp) (n : Node) (around : List Event) :
    ∀ t : ViewTree, t.WellFormed → InShape (pruneNode sp n around t) t
  | .leaf e, h => ⟨h, le_rfl⟩
  | .node b body e, h => by
    have hwf : ViewTree.AllWellFormed body := h.2.2
    have hwhole : InShape (.node b body e) (.node b body e) := ⟨h, le_rfl⟩
    have hbody : ∀ ty, InShape (.node b (pruneBody sp n ty (b :: around) body) e) (.node b body e) :=
      fun ty => InShape.node h (pruneBody_inShape hsp n ty _ body hwf)
    have helems : InShape (.node b (pruneElements sp n (b :: around) body) e) (.node b body e) :=
      InShape.node h (pruneElements_inShape hsp n _ body hwf)
    have hentries : InShape (.node b (pruneEntries sp n (b :: around) body) e) (.node b body e) :=
      InShape.node h (pruneEntries_inShape hsp n _ body hwf)
    cases hk : n.kind <;> simp only [pruneNode, hk] <;>
      first
      | exact hwhole
      | exact helems
      | exact splicedTree_inShape hsp n h
      | (split <;> first | exact hbody _ | exact hwhole | exact helems | exact hentries)

theorem pruneElement_inShape (hsp : Pruning sp) (n : Node) (around : List Event) :
    ∀ t : ViewTree, t.WellFormed → InShape (pruneElement sp n around t) t
  | .leaf e, h => ⟨h, le_rfl⟩
  | .node b body e, h => by
    simp only [pruneElement]
    split
    · split
      · exact InShape.node h (pruneBody_inShape hsp n _ _ body h.2.2)
      · exact ⟨h, le_rfl⟩
    · exact ⟨h, le_rfl⟩

theorem pruneBody_inShape (hsp : Pruning sp) (n : Node) (ty : ModelType) (around : List Event) :
    ∀ ts : List ViewTree, ViewTree.AllWellFormed ts → AllInShape (pruneBody sp n ty around ts) ts
  | [], _ => AllInShape.refl trivial
  | t :: ts, h => by
    rw [ViewTree.allWellFormed_cons] at h
    simp only [pruneBody]
    split
    · exact AllInShape.refl ((ViewTree.allWellFormed_cons _ _).2 h)
    · split
      · exact (pruneBody_inShape hsp n ty around ts h.2).drop
      · split
        · split
          · exact AllInShape.cons ⟨h.1, le_rfl⟩ (pruneBody_inShape hsp n _ around ts h.2)
          · exact AllInShape.refl ((ViewTree.allWellFormed_cons _ _).2 h)
        · exact AllInShape.cons (pruneNode_inShape hsp _ around t h.1)
            (pruneBody_inShape hsp n ty around ts h.2)

theorem pruneElements_inShape (hsp : Pruning sp) (n : Node) (around : List Event) :
    ∀ ts : List ViewTree, ViewTree.AllWellFormed ts → AllInShape (pruneElements sp n around ts) ts
  | [], _ => AllInShape.refl trivial
  | t :: ts, h => by
    rw [ViewTree.allWellFormed_cons] at h
    exact AllInShape.cons (pruneElement_inShape hsp n around t h.1) (pruneElements_inShape hsp n around ts h.2)

theorem pruneEntries_inShape (hsp : Pruning sp) (n : Node) (around : List Event) :
    ∀ ts : List ViewTree, ViewTree.AllWellFormed ts → AllInShape (pruneEntries sp n around ts) ts
  | [], _ => AllInShape.refl trivial
  | .leaf e :: ts, h => by
    rw [ViewTree.allWellFormed_cons] at h
    exact AllInShape.cons ⟨h.1, le_rfl⟩ (pruneEntries_inShape hsp n around ts h.2)
  | .node b fields e :: ts, h => by
    rw [ViewTree.allWellFormed_cons] at h
    exact AllInShape.cons (InShape.node h.1 (pruneFields_inShape hsp n _ fields h.1.2.2))
      (pruneEntries_inShape hsp n around ts h.2)

theorem pruneFields_inShape (hsp : Pruning sp) (n : Node) (around : List Event) :
    ∀ ts : List ViewTree, ViewTree.AllWellFormed ts → AllInShape (pruneFields sp n around ts) ts
  | [], _ => AllInShape.refl trivial
  | t :: ts, h => by
    rw [ViewTree.allWellFormed_cons] at h
    simp only [pruneFields]
    split
    · exact AllInShape.cons ⟨h.1, le_rfl⟩ (pruneFields_inShape hsp n around ts h.2)
    · exact AllInShape.cons (pruneElement_inShape hsp n around t h.1)
        (pruneFields_inShape hsp n around ts h.2)
    · exact (pruneFields_inShape hsp n around ts h.2).drop
    · exact AllInShape.refl ((ViewTree.allWellFormed_cons _ _).2 h)

end

variable (hsp : Pruning sp)
include hsp

theorem pruneRoot_inShape (r : Node) (initial : Option ModelType) {t : ViewTree}
    (h : t.WellFormed) : InShape (pruneRoot sp r initial t) t := by
  unfold pruneRoot
  split
  · cases t with
    | leaf e => exact ⟨h, le_rfl⟩
    | node b body e => exact InShape.node h (pruneBody_inShape hsp r _ _ body h.2.2)
  · exact pruneNode_inShape hsp r [] t h

@[simp] theorem head_pruneNode (n : Node) (around : List Event) (t : ViewTree) :
    (pruneNode sp n around t).head = t.head := by
  cases t with
  | leaf e => rfl
  | node b body e =>
    simp only [pruneNode]
    split <;> (try split) <;> try rfl
    unfold splicedTree
    split
    · exact hsp.head _ _
    · rfl

end Shape

section Heads

variable (sp : Node → ViewTree → ViewTree)

@[simp] theorem head_pruneObject (n : Node) (ty : ModelType) (around : List Event)
    (t : ViewTree) : (pruneObject sp n ty around t).head = t.head := by
  cases t <;> rfl

@[simp] theorem head_pruneArray (n : Node) (around : List Event) (t : ViewTree) :
    (pruneArray sp n around t).head = t.head := by
  cases t <;> rfl

@[simp] theorem head_pruneMap (n : Node) (around : List Event) (t : ViewTree) :
    (pruneMap sp n around t).head = t.head := by
  cases t with
  | leaf e => rfl
  | node b body e => simp only [pruneMap]; split <;> rfl

@[simp] theorem head_pruneEntry (n : Node) (around : List Event) (t : ViewTree) :
    (pruneEntry sp n around t).head = t.head := by
  cases t <;> rfl

@[simp] theorem head_pruneElement (n : Node) (around : List Event) (t : ViewTree) :
    (pruneElement sp n around t).head = t.head := by
  cases t with
  | leaf e => rfl
  | node b body e => simp only [pruneElement]; split <;> (try split) <;> rfl

@[simp] theorem pruneEntries_cons (n : Node) (around : List Event) (t : ViewTree)
    (ts : List ViewTree) :
    pruneEntries sp n around (t :: ts) = pruneEntry sp n around t :: pruneEntries sp n around ts := by
  cases t <;> simp [pruneEntries, pruneEntry]

@[simp] theorem pruneRoot_none (r : Node) (t : ViewTree) :
    pruneRoot sp r none t = pruneNode sp r [] t := by
  unfold pruneRoot
  split <;> simp_all

end Heads

/-- Pruning goes as deep as it is given: each level keeps trees in shape. -/
theorem pruneSpliced_pruning : ∀ k, Pruning (pruneSpliced k)
  | 0 => ⟨fun _ _ h => ⟨h, le_rfl⟩, fun _ _ => rfl, fun _ _ => rfl⟩
  | k + 1 =>
    have hk := pruneSpliced_pruning k
    { inShape := fun root _ h => pruneRoot_inShape hk root none h
      head := fun root t => by
        simp only [pruneSpliced, pruneRoot_none]
        exact head_pruneNode hk root [] t
      leaf := fun root e => by simp [pruneSpliced, pruneNode] }

end Lenient

-- ============================================================ the option is read once

namespace Stage

variable (ctx : Context)

@[simp] theorem fail_ignoring {α : Type} (k : ViewErrorKind) :
    (fail ctx.ignoring k : Stage α) = fail ctx k := rfl

@[simp] theorem read_ignoring {α : Type} (r : Reading α) : read ctx.ignoring r = read ctx r := rfl

@[simp] theorem next_ignoring (context : String) : next ctx.ignoring context = next ctx context :=
  rfl

@[simp] theorem peek_ignoring (context : String) : peek ctx.ignoring context = peek ctx context :=
  rfl

@[simp] theorem unexpected_ignoring {α : Type} (expected : String) (e : Event) :
    (unexpected ctx.ignoring expected e : Stage α) = unexpected ctx expected e := rfl

@[simp] theorem mismatch_ignoring {α : Type} (expected found : String) :
    (mismatch ctx.ignoring expected found : Stage α) = mismatch ctx expected found := rfl

@[simp] theorem scalar_ignoring (n : Node) (e : Event) : scalar ctx.ignoring n e = scalar ctx n e :=
  rfl

@[simp] theorem keyToModel_ignoring (n : Node) (k : Scalar) :
    keyToModel ctx.ignoring n k = keyToModel ctx n k := rfl

@[simp] theorem null_ignoring (n : Node) : null ctx.ignoring n = null ctx n := rfl

@[simp] theorem discriminator_ignoring (d : Node) (candidates : List ModelType) :
    discriminator ctx.ignoring d candidates = discriminator ctx d candidates := rfl

/-- The one place the option is read: with it, an unknown property is skipped. -/
theorem unknown_ignoring (name : String) :
    unknown ctx.ignoring name = read ctx (Reading.skip "unknown property") := rfl

section Loops

variable {ctx} {c : Cursor} {e : Event} {n : Node} {fuel : Nat}

/-- A run that goes on after a step that succeeded. -/
theorem bind_eq_of_ok {α β : Type} {x : Stage α} {f : α → Stage β} {a : α} {c' : Cursor}
    (h : x c = .ok a c') : (x >>= f) c = f a c' := by
  simp only [bind, EStateM.bind, h]

/-- The end of an object is read, and the object is done. -/
theorem body_end {entity : Entity} (he : c.peek = some e) (hend : e.kind.isEnd = true) :
    body (fuel + 1) ctx n entity c = (next ctx "END_OBJECT" >>= fun _ => pure entity) c := by
  simp [body, peek_some _ he, hend, bind, EStateM.bind]

/-- A property without a name is refused. -/
theorem body_anonymous {entity : Entity} (he : c.peek = some e) (hend : e.kind.isEnd = false)
    (hn : e.name = none) :
    body (fuel + 1) ctx n entity c = fail ctx (.stream (.anonymousProperty e.kind)) c := by
  simp [body, peek_some _ he, hend, hn, bind, EStateM.bind]

/-- An object's property that routes nowhere goes to `unknown`, and the object goes on. -/
theorem body_unknown {entity : Entity} {nm : String} (he : c.peek = some e)
    (hend : e.kind.isEnd = false) (hn : e.name = some nm)
    (hr : n.route? nm (c.effectiveNamespace e) entity.type = none) :
    body (fuel + 1) ctx n entity c = (unknown ctx nm >>= fun _ => body fuel ctx n entity) c := by
  simp [body, peek_some _ he, hend, hn, hr, bind, EStateM.bind, get, getThe, MonadStateOf.get,
    EStateM.get]

/-- A discriminator property resolves the object's type, and the object goes on. -/
theorem body_discriminator {entity : Entity} {nm : String} {d : Node} (he : c.peek = some e)
    (hend : e.kind.isEnd = false) (hn : e.name = some nm)
    (hr : n.route? nm (c.effectiveNamespace e) entity.type = some d)
    (hk : (d.kind == .discriminator) = true) :
    body (fuel + 1) ctx n entity c =
      (discriminator (ctx.push (Frame.named d.name d.modelType)) d n.candidates >>= fun t =>
        body fuel ctx n { entity with type := t }) c := by
  simp only [beq_iff_eq] at hk
  simp [body, peek_some _ he, hend, hn, hr, hk, bind, EStateM.bind, get, getThe,
    MonadStateOf.get, EStateM.get]

/-- Any other property is staged by its node and put in the object, which goes on. -/
theorem body_child {entity : Entity} {nm : String} {d : Node} (he : c.peek = some e)
    (hend : e.kind.isEnd = false) (hn : e.name = some nm)
    (hr : n.route? nm (c.effectiveNamespace e) entity.type = some d)
    (hk : (d.kind == .discriminator) = false) :
    body (fuel + 1) ctx n entity c =
      (node fuel (ctx.push (Frame.named d.name d.modelType)) d >>= fun staged =>
        body fuel ctx n (d.name.elim entity fun nm => entity.put nm staged)) c := by
  simp only [beq_eq_false_iff_ne, ne_eq] at hk
  cases hd : d.name <;>
    simp [body, peek_some _ he, hend, hn, hr, hk, hd, bind, EStateM.bind, get, getThe,
      MonadStateOf.get, EStateM.get]

/-- The end of a collection is read, and the collection is done. -/
theorem elements_end {acc : List Staged} (he : c.peek = some e) (hend : e.kind.isEnd = true) :
    elements (fuel + 1) ctx n acc c = (next ctx "END_ARRAY" >>= fun _ => pure acc) c := by
  simp [elements, peek_some _ he, hend, bind, EStateM.bind]

/-- An element of a collection is staged, and the collection goes on. -/
theorem elements_item {acc : List Staged} (he : c.peek = some e) (hend : e.kind.isEnd = false) :
    elements (fuel + 1) ctx n acc c =
      (element fuel (ctx.push (Frame.indexed acc.length n.modelType)) n >>= fun staged =>
        elements fuel ctx n (acc ++ [staged])) c := by
  simp [elements, peek_some _ he, hend, bind, EStateM.bind]

/-- The end of a map written as an object is read, and the map is done. -/
theorem namedEntries_end {acc : List (Scalar × Staged)} (he : c.peek = some e)
    (hend : e.kind.isEnd = true) :
    namedEntries (fuel + 1) ctx n acc c = (next ctx "END_OBJECT" >>= fun _ => pure acc) c := by
  simp [namedEntries, peek_some _ he, hend, bind, EStateM.bind]

/-- An entry named by its key is staged, and the map goes on. -/
theorem namedEntries_item {acc : List (Scalar × Staged)} {nm : String} (he : c.peek = some e)
    (hend : e.kind.isEnd = false) (hn : e.name = some nm) :
    namedEntries (fuel + 1) ctx n acc c =
      (keyToModel ctx n (.string nm) >>= fun key =>
        element fuel (ctx.push (Frame.keyed key n.modelType)) n >>= fun staged =>
          namedEntries fuel ctx n (acc ++ [(key, staged)])) c := by
  simp [namedEntries, peek_some _ he, hend, hn, bind, EStateM.bind]

/-- An entry without a name is refused. -/
theorem namedEntries_anonymous {acc : List (Scalar × Staged)} (he : c.peek = some e)
    (hend : e.kind.isEnd = false) (hn : e.name = none) :
    namedEntries (fuel + 1) ctx n acc c = fail ctx (.stream (.anonymousProperty e.kind)) c := by
  simp [namedEntries, peek_some _ he, hend, hn, bind, EStateM.bind]

/-- The end of a map written as an array is read, and the map is done. -/
theorem entryList_end {acc : List (Scalar × Staged)} (he : c.peek = some e)
    (hend : e.kind.isEnd = true) :
    entryList (fuel + 1) ctx n acc c = (next ctx "END_ARRAY" >>= fun _ => pure acc) c := by
  simp [entryList, peek_some _ he, hend, bind, EStateM.bind]

/-- A `{key, value}` object is staged, and the map goes on. -/
theorem entryList_item {acc : List (Scalar × Staged)} (he : c.peek = some e)
    (hend : e.kind.isEnd = false) :
    entryList (fuel + 1) ctx n acc c =
      (entry fuel (ctx.push (Frame.indexed acc.length n.modelType)) n >>= fun kv =>
        entryList fuel ctx n (acc ++ [kv])) c := by
  simp [entryList, peek_some _ he, hend, bind, EStateM.bind]

variable {key : Option Scalar} {value : Staged}

/-- The end of a `{key, value}` object is read, and the entry is done. -/
theorem entryFields_end (he : c.peek = some e) (hend : e.kind.isEnd = true) :
    entryFields (fuel + 1) ctx n key value c =
      (next ctx "END_OBJECT" >>= fun _ => pure (key, value)) c := by
  simp [entryFields, peek_some _ he, hend, bind, EStateM.bind]

/-- The key field is read and converted, and the entry goes on. -/
theorem entryFields_key (he : c.peek = some e) (hend : e.kind.isEnd = false)
    (hn : e.name = some "key") :
    entryFields (fuel + 1) ctx n key value c =
      (read ctx (Reading.expect .value "VALUE") >>= fun k =>
        keyToModel ctx n (k.value.getD .null) >>= fun k =>
          entryFields fuel ctx n (some k) value) c := by
  simp [entryFields, peek_some _ he, hend, hn, bind, EStateM.bind]

/-- The value field is staged as an element, and the entry goes on. -/
theorem entryFields_value (he : c.peek = some e) (hend : e.kind.isEnd = false)
    (hn : e.name = some "value") :
    entryFields (fuel + 1) ctx n key value c =
      (element fuel ctx n >>= fun v => entryFields fuel ctx n key v) c := by
  simp [entryFields, peek_some _ he, hend, hn, bind, EStateM.bind]

/-- Any other field goes to `unknown`, and the entry goes on. -/
theorem entryFields_other {nm : String} (he : c.peek = some e) (hend : e.kind.isEnd = false)
    (hn : e.name = some nm) (hkey : nm ≠ "key") (hvalue : nm ≠ "value") :
    entryFields (fuel + 1) ctx n key value c =
      (unknown ctx nm >>= fun _ => entryFields fuel ctx n key value) c := by
  simp [entryFields, peek_some _ he, hend, hn, bind, EStateM.bind]

/-- A field without a name is refused. -/
theorem entryFields_anonymous (he : c.peek = some e) (hend : e.kind.isEnd = false)
    (hn : e.name = none) :
    entryFields (fuel + 1) ctx n key value c = fail ctx (.stream (.anonymousProperty e.kind)) c := by
  simp [entryFields, peek_some _ he, hend, hn, bind, EStateM.bind]

end Loops

end Stage

-- ============================================================ the two readers, side by side

namespace Lenient

open Reading ( peek_of_prefix)

/-- The cursor after a tree. -/
def past (c : Cursor) (t : ViewTree) : Cursor := { c with pos := c.pos + t.events.length }

/-- The cursor after a forest and the end event that closes the innermost container. -/
def pastClosing (c : Cursor) (ts : List ViewTree) : Cursor :=
  { c with pos := c.pos + (ViewTree.eventsOf ts).length + 1, stack := c.stack.tail }

/-- The cursor after a begin event, with its container open. -/
def enter (c : Cursor) (b : Event) : Cursor :=
  { c with pos := c.pos + 1, stack := (b.kind, c.effectiveNamespace b) :: c.stack }

theorem pastClosing_enter (c : Cursor) (b e : Event) (body : List ViewTree) :
    pastClosing (enter c b) body = past c (.node b body e) := by
  simp only [pastClosing, enter, past, ViewTree.events, List.length_cons, List.length_append,
    List.length_nil, List.tail_cons, Cursor.mk.injEq, and_true, true_and]
  omega

theorem pastClosing_past (c : Cursor) (t : ViewTree) (ts : List ViewTree) :
    pastClosing (past c t) ts = pastClosing c (t :: ts) := by
  simp only [pastClosing, past, ViewTree.eventsOf_cons, List.length_append, Cursor.mk.injEq,
    and_true, true_and]
  omega

theorem remaining_past {c : Cursor} {t : ViewTree} (hnext : t.events <+: c.events.toList.drop c.pos) :
    (past c t).remaining + t.events.length = c.remaining := by
  have hlen := hnext.length_le
  simp only [List.length_drop, Array.length_toList] at hlen
  simp only [past, Cursor.remaining]
  omega

theorem events_length_pos (t : ViewTree) : 0 < t.events.length := by
  cases t <;> simp [ViewTree.events]

/-- The lenient reader stands before the tree `t`, inside the begin events `around` and with
room for `t`; the strict reader, with the same containers open, stands before `t'`. -/
structure Before (around : List Event) (cL cS : Cursor) (t t' : ViewTree) : Prop where
  wellFormed : t.WellFormed
  room : t.depth + around.length ≤ cL.maxDepth
  stack : cL.stack = openStack around
  sameStack : cS.stack = cL.stack
  sameDepth : cS.maxDepth = cL.maxDepth
  nextL : t.events <+: cL.events.toList.drop cL.pos
  nextS : t'.events <+: cS.events.toList.drop cS.pos

/-- The lenient reader stands before the forest `ts` and the end event `e` that closes the
innermost of the containers `around`; the strict reader before `ts'` and the same end. -/
structure Closing (around : List Event) (cL cS : Cursor) (ts ts' : List ViewTree) (e : Event) :
    Prop where
  wellFormed : ViewTree.AllWellFormed ts
  room : ViewTree.depthOf ts + around.length ≤ cL.maxDepth
  stack : cL.stack = openStack around
  closes : ∃ b rest, around = b :: rest ∧ b.kind.isBegin = true ∧ b.kind.complement = some e.kind
  sameStack : cS.stack = cL.stack
  sameDepth : cS.maxDepth = cL.maxDepth
  nextL : ViewTree.eventsOf ts ++ [e] <+: cL.events.toList.drop cL.pos
  nextS : ViewTree.eventsOf ts' ++ [e] <+: cS.events.toList.drop cS.pos

/-- Both readers, started before trees and forests that pruning relates, agree on every
staging call: the lenient reader, with unknown properties ignored, at the fuel `fuel`, and the
strict one at any fuel above its bound. The bounds are those under which more fuel changes
nothing (`Stage.StageStable`). What they stage resembles, for the node that reads it. -/
structure Skips (sp : Node → ViewTree → ViewTree) (fuel : Nat) : Prop where
  node : ∀ {ctx : Context} {n : Node} {around : List Event} {t : ViewTree} {cL cS : Cursor}
    {fS : Nat}, n.prunable = true → Before around cL cS t (pruneNode sp n around t) →
    4 * cL.remaining + 1 < fuel → 4 * cS.remaining + 1 < fS →
    Agree (Resembles sp cL.maxDepth n) (past cL t) (past cS (pruneNode sp n around t))
      (Stage.node fuel ctx.ignoring n cL) (Stage.node fS ctx n cS)
  object : ∀ {ctx : Context} {n : Node} {ty : ModelType} {around : List Event} {t : ViewTree}
    {cL cS : Cursor} {fS : Nat}, n.prunable = true →
    Before around cL cS t (pruneObject sp n ty around t) →
    4 * cL.remaining < fuel → 4 * cS.remaining < fS →
    Agree (Resembles sp cL.maxDepth n) (past cL t) (past cS (pruneObject sp n ty around t))
      (Stage.object fuel ctx.ignoring n ty cL) (Stage.object fS ctx n ty cS)
  body : ∀ {ctx : Context} {n : Node} {eL eS : Entity} {around : List Event}
    {ts : List ViewTree} {e : Event} {cL cS : Cursor} {fS : Nat}, n.prunable = true →
    EntityResembles sp cL.maxDepth n eL eS →
    Closing around cL cS ts (pruneBody sp n eL.type around ts) e →
    4 * cL.remaining + 2 < fuel → 4 * cS.remaining + 2 < fS →
    Agree (EntityResembles sp cL.maxDepth n) (pastClosing cL ts)
      (pastClosing cS (pruneBody sp n eL.type around ts))
      (Stage.body fuel ctx.ignoring n eL cL) (Stage.body fS ctx n eS cS)
  array : ∀ {ctx : Context} {n : Node} {around : List Event} {t : ViewTree} {cL cS : Cursor}
    {fS : Nat}, n.prunable = true → Before around cL cS t (pruneArray sp n around t) →
    4 * cL.remaining < fuel → 4 * cS.remaining < fS →
    Agree (Resembles sp cL.maxDepth n) (past cL t) (past cS (pruneArray sp n around t))
      (Stage.array fuel ctx.ignoring n cL) (Stage.array fS ctx n cS)
  elements : ∀ {ctx : Context} {n : Node} {accL accS : List Staged} {around : List Event}
    {ts : List ViewTree} {e : Event} {cL cS : Cursor} {fS : Nat}, n.prunable = true →
    ItemsResemble sp cL.maxDepth n accL accS →
    Closing around cL cS ts (pruneElements sp n around ts) e →
    4 * cL.remaining + 2 < fuel → 4 * cS.remaining + 2 < fS →
    Agree (ItemsResemble sp cL.maxDepth n) (pastClosing cL ts)
      (pastClosing cS (pruneElements sp n around ts))
      (Stage.elements fuel ctx.ignoring n accL cL) (Stage.elements fS ctx n accS cS)
  element : ∀ {ctx : Context} {n : Node} {around : List Event} {t : ViewTree} {cL cS : Cursor}
    {fS : Nat}, n.prunable = true → Before around cL cS t (pruneElement sp n around t) →
    4 * cL.remaining + 1 < fuel → 4 * cS.remaining + 1 < fS →
    Agree (Resembles sp cL.maxDepth n) (past cL t) (past cS (pruneElement sp n around t))
      (Stage.element fuel ctx.ignoring n cL) (Stage.element fS ctx n cS)
  map : ∀ {ctx : Context} {n : Node} {around : List Event} {t : ViewTree} {cL cS : Cursor}
    {fS : Nat}, n.prunable = true → Before around cL cS t (pruneMap sp n around t) →
    4 * cL.remaining < fuel → 4 * cS.remaining < fS →
    Agree (Resembles sp cL.maxDepth n) (past cL t) (past cS (pruneMap sp n around t))
      (Stage.map fuel ctx.ignoring n cL) (Stage.map fS ctx n cS)
  namedEntries : ∀ {ctx : Context} {n : Node} {accL accS : List (Scalar × Staged)}
    {around : List Event} {ts : List ViewTree} {e : Event} {cL cS : Cursor} {fS : Nat},
    n.prunable = true → EntriesResemble sp cL.maxDepth n accL accS →
    Closing around cL cS ts (pruneElements sp n around ts) e →
    4 * cL.remaining + 2 < fuel → 4 * cS.remaining + 2 < fS →
    Agree (EntriesResemble sp cL.maxDepth n) (pastClosing cL ts)
      (pastClosing cS (pruneElements sp n around ts))
      (Stage.namedEntries fuel ctx.ignoring n accL cL) (Stage.namedEntries fS ctx n accS cS)
  entryList : ∀ {ctx : Context} {n : Node} {accL accS : List (Scalar × Staged)}
    {around : List Event} {ts : List ViewTree} {e : Event} {cL cS : Cursor} {fS : Nat},
    n.prunable = true → EntriesResemble sp cL.maxDepth n accL accS →
    Closing around cL cS ts (pruneEntries sp n around ts) e →
    4 * cL.remaining + 1 < fuel → 4 * cS.remaining + 1 < fS →
    Agree (EntriesResemble sp cL.maxDepth n) (pastClosing cL ts)
      (pastClosing cS (pruneEntries sp n around ts))
      (Stage.entryList fuel ctx.ignoring n accL cL) (Stage.entryList fS ctx n accS cS)
  entry : ∀ {ctx : Context} {n : Node} {around : List Event} {t : ViewTree} {cL cS : Cursor}
    {fS : Nat}, n.prunable = true → Before around cL cS t (pruneEntry sp n around t) →
    4 * cL.remaining < fuel → 4 * cS.remaining < fS →
    Agree (fun p q => p.1 = q.1 ∧ Resembles sp cL.maxDepth n p.2 q.2) (past cL t)
      (past cS (pruneEntry sp n around t))
      (Stage.entry fuel ctx.ignoring n cL) (Stage.entry fS ctx n cS)
  entryFields : ∀ {ctx : Context} {n : Node} {key : Option Scalar} {vL vS : Staged}
    {around : List Event} {ts : List ViewTree} {e : Event} {cL cS : Cursor} {fS : Nat},
    n.prunable = true → Resembles sp cL.maxDepth n vL vS →
    Closing around cL cS ts (pruneFields sp n around ts) e →
    4 * cL.remaining + 2 < fuel → 4 * cS.remaining + 2 < fS →
    Agree (fun p q => p.1 = q.1 ∧ Resembles sp cL.maxDepth n p.2 q.2) (pastClosing cL ts)
      (pastClosing cS (pruneFields sp n around ts))
      (Stage.entryFields fuel ctx.ignoring n key vL cL)
      (Stage.entryFields fS ctx n key vS cS)

theorem skips_zero (sp : Node → ViewTree → ViewTree) : Skips sp 0 where
  node _ _ h := absurd h (Nat.not_lt_zero _)
  object _ _ h := absurd h (Nat.not_lt_zero _)
  body _ _ _ h := absurd h (Nat.not_lt_zero _)
  array _ _ h := absurd h (Nat.not_lt_zero _)
  elements _ _ _ h := absurd h (Nat.not_lt_zero _)
  element _ _ h := absurd h (Nat.not_lt_zero _)
  map _ _ h := absurd h (Nat.not_lt_zero _)
  namedEntries _ _ _ h := absurd h (Nat.not_lt_zero _)
  entryList _ _ _ h := absurd h (Nat.not_lt_zero _)
  entry _ _ h := absurd h (Nat.not_lt_zero _)
  entryFields _ _ _ h := absurd h (Nat.not_lt_zero _)

-- ============================================================ reading steps, side by side

variable {ctx : Context} {around : List Event} {cL cS : Cursor} {e : Event}

@[simp] theorem remaining_enter (c : Cursor) (b : Event) :
    (enter c b).remaining = c.remaining - 1 := by
  simp only [enter, Cursor.remaining]
  omega

namespace Before

variable {t t' : ViewTree}

theorem remaining_pos (h : Before around cL cS t t') : 0 < cL.remaining ∧ 0 < cS.remaining := by
  have hL := h.nextL.length_le
  have hS := h.nextS.length_le
  have := events_length_pos t
  have := events_length_pos t'
  simp only [List.length_drop, Array.length_toList] at hL hS
  simp only [Cursor.remaining]
  omega

/-- A leaf is one event, read alike by both. -/
theorem leaf_next (h : Before around cL cS (.leaf e) (.leaf e)) (ctx : Context) (context : String) :
    Stage.next ctx context cL = .ok e (past cL (.leaf e)) ∧
      Stage.next ctx context cS = .ok e (past cS (.leaf e)) := by
  obtain ⟨hb, hend⟩ := h.wellFormed
  exact ⟨Stage.next_ok ctx context
      (Reading.next_leaf context ( peek_of_prefix (l := []) h.nextL) hb hend),
    Stage.next_ok ctx context
      (Reading.next_leaf context ( peek_of_prefix (l := []) h.nextS) hb hend)⟩

/-- A begin event opens its container on both sides; its body and end come next. -/
theorem begin_next {b : Event} {body body' : List ViewTree}
    (h : Before around cL cS (.node b body e) (.node b body' e)) (ctx : Context)
    (context : String) :
    Stage.next ctx context cL = .ok b (enter cL b) ∧
      Stage.next ctx context cS = .ok b (enter cS b) ∧
      Closing (b :: around) (enter cL b) (enter cS b) body body' e := by
  obtain ⟨hb, hc, hwfs⟩ := h.wellFormed
  have hroom := h.room
  simp only [ViewTree.depth] at hroom
  have hroom₁ : cL.stack.length < cL.maxDepth := by rw [h.stack, length_openStack]; omega
  have hns : cS.effectiveNamespace b = cL.effectiveNamespace b := by
    simp only [Cursor.effectiveNamespace, Cursor.innerNamespace, h.sameStack]
  refine ⟨Stage.next_ok ctx context
      (Reading.next_begin context ( peek_of_prefix h.nextL) hb hroom₁),
    Stage.next_ok ctx context (Reading.next_begin context ( peek_of_prefix h.nextS) hb
      (by rw [h.sameStack, h.sameDepth]; exact hroom₁)), ⟨hwfs, ?_, ?_, ⟨b, around, rfl, hb, hc⟩,
      ?_, h.sameDepth, prefix_drop_append (x := [b]) h.nextL,
      prefix_drop_append (x := [b]) h.nextS⟩⟩
  · simp only [enter, List.length_cons]
    omega
  · simp [enter, h.stack, openStack, effectiveNamespace_openStack h.stack, inheritedNamespace_cons]
  · simp only [enter, hns, h.sameStack]

/-- Skipping the tree the lenient reader stands before. -/
theorem skip (h : Before around cL cS t t') (ctx : Context) (context : String) :
    Stage.read ctx (Reading.skip context) cL = .ok () (past cL t) :=
  Stage.read_ok (Reading.skip_tree h.wellFormed h.room h.stack h.nextL)

/-- A tree that pruning keeps whole is skipped alike. -/
theorem skip_both (h : Before around cL cS t t) (ctx : Context) (context : String) :
    Stage.read ctx (Reading.skip context) cL = .ok () (past cL t) ∧
      Stage.read ctx (Reading.skip context) cS = .ok () (past cS t) :=
  ⟨Stage.read_ok (Reading.skip_tree h.wellFormed h.room h.stack h.nextL),
    Stage.read_ok (Reading.skip_tree h.wellFormed (by rw [h.sameDepth]; exact h.room)
      (h.sameStack.trans h.stack) h.nextS)⟩

/-- A spliced tree is read whole on both sides: the lenient reader reads the tree, the strict
one its pruning, which is in shape. -/
theorem subtree_pruned (h : Before around cL cS t t') (hs : InShape t' t) (ctx : Context)
    (context : String) :
    Stage.read ctx (Reading.subtree context) cL = .ok t.events.toArray (past cL t) ∧
      Stage.read ctx (Reading.subtree context) cS = .ok t'.events.toArray (past cS t') := by
  have hroom := h.room
  have hdepth := hs.2
  exact ⟨Stage.read_ok (Reading.subtree_tree h.wellFormed hroom h.stack h.nextL),
    Stage.read_ok (Reading.subtree_tree hs.1 (by rw [h.sameDepth]; omega)
      (h.sameStack.trans h.stack) h.nextS)⟩

/-- A discriminator tree is read alike on both sides. -/
theorem discriminator (h : Before around cL cS t t) (ctx : Context) (d : Node)
    (candidates : List ModelType) :
    Agree Eq (past cL t) (past cS t) (Stage.discriminator ctx d candidates cL)
      (Stage.discriminator ctx d candidates cS) := by
  simp only [Stage.discriminator]
  cases t with
  | leaf e =>
    obtain ⟨hL, hS⟩ := h.leaf_next ctx "DISCRIMINATOR"
    refine Agree.bind_ok hL hS ?_
    split
    · rcases hs : d.info.discriminator with _ | st
      · exact Agree.fail ctx _
      · dsimp only
        cases st.resolve (e.value.getD .null) candidates with
        | ok ty => exact Agree.pure rfl
        | error k => exact Agree.fail ctx k
    · exact Agree.fail_bind ctx _
  | node b body e =>
    obtain ⟨hL, hS, -⟩ := h.begin_next ctx "DISCRIMINATOR"
    refine Agree.bind_ok hL hS ?_
    have hno : (b.kind == .discriminator || b.kind == .value) = false := by
      rcases EventKind.eq_of_isBegin h.wellFormed.1 with hk | hk <;> simp [hk]
    simp only [hno]
    exact Agree.fail_bind ctx _

/-- Where a discriminator tree is read, it resolves to the type pruning resolves it to. -/
theorem resolved (h : Before around cL cS t t') {d : Node} {candidates : List ModelType}
    {ty : ModelType} {c' : Cursor} (hd : Stage.discriminator ctx d candidates cL = .ok ty c') :
    resolvedType d candidates t = some ty := by
  simp only [Stage.discriminator] at hd
  obtain ⟨a, c₁, hnext, hd⟩ := Stage.bind_ok hd
  have hpeek : cL.peek = some t.head := by
    have hnL := h.nextL
    rw [t.events_eq_cons] at hnL
    exact peek_of_prefix hnL
  have ha := Stage.peeked_next hpeek (Stage.next_ok_run hnext)
  subst ha
  split at hd
  next hkind =>
    rcases hs : d.info.discriminator with _ | st
    · rw [hs] at hd
      exact absurd hd Stage.fail_ne_ok
    · rw [hs] at hd
      dsimp only at hd
      cases hres : st.resolve (t.head.value.getD .null) candidates with
      | error k => rw [hres] at hd; exact absurd hd Stage.fail_ne_ok
      | ok ty' =>
        rw [hres] at hd
        obtain ⟨rfl, -⟩ := Stage.pure_ok hd
        cases t with
        | leaf e =>
          simp only [ViewTree.head] at hkind hres
          simp only [resolvedType, hkind, if_true, hs, hres, Except.toOption]
        | node b body e =>
          simp only [ViewTree.head] at hkind
          rcases EventKind.eq_of_isBegin h.wellFormed.1 with hk | hk <;> simp [hk] at hkind
  next =>
    obtain ⟨u, c₂, hu, -⟩ := Stage.bind_ok hd
    exact absurd hu Stage.fail_ne_ok

/-- The first event of a container is a begin. -/
theorem begin_isBegin {b : Event} {body body' : List ViewTree}
    (h : Before around cL cS (.node b body e) (.node b body' e)) : b.kind.isBegin = true :=
  h.wellFormed.1

end Before

namespace Closing

variable {t t' : ViewTree} {ts ts' : List ViewTree}

/-- The event that closes the container is an end. -/
theorem isEnd (h : Closing around cL cS ts ts' e) : e.kind.isEnd = true := by
  obtain ⟨b, rest, -, hb, hc⟩ := h.closes
  exact EventKind.isEnd_of_complement hb hc

/-- An empty forest: both peek the end, and reading it closes the container. -/
theorem end_next (h : Closing around cL cS [] [] e) (ctx : Context) (context context' : String) :
    Stage.peek ctx context cL = .ok e cL ∧ Stage.peek ctx context cS = .ok e cS ∧
      Stage.next ctx context' cL = .ok e (pastClosing cL []) ∧
      Stage.next ctx context' cS = .ok e (pastClosing cS []) := by
  obtain ⟨b, rest, rfl, hb, hc⟩ := h.closes
  have hpL := peek_of_prefix (l := []) h.nextL
  have hpS := peek_of_prefix (l := []) h.nextS
  have hend := EventKind.isEnd_of_complement hb hc
  have hsL : cL.stack = (b.kind, (b :: rest).findSome? Event.ns) :: cL.stack.tail := by
    rw [h.stack, openStack]
    rfl
  have hsS : cS.stack = (b.kind, (b :: rest).findSome? Event.ns) :: cS.stack.tail := by
    rw [h.sameStack]
    exact hsL
  exact ⟨Stage.peek_some context hpL, Stage.peek_some context hpS,
    Stage.next_ok ctx context' (Reading.next_close context' hpL hend hsL hc),
    Stage.next_ok ctx context' (Reading.next_close context' hpS hend hsS hc)⟩

/-- A first tree read on both sides: the readers stand before it, then before the rest. -/
theorem cons (h : Closing around cL cS (t :: ts) (t' :: ts') e) :
    Before around cL cS t t' ∧ Closing around (past cL t) (past cS t') ts ts' e := by
  obtain ⟨hwf, hroom, hs, hcl, hss, hsd, hnL, hnS⟩ := h
  rw [ViewTree.allWellFormed_cons] at hwf
  simp only [ViewTree.depthOf_cons] at hroom
  simp only [ViewTree.eventsOf_cons, List.append_assoc] at hnL hnS
  exact ⟨⟨hwf.1, by omega, hs, hss, hsd, (List.prefix_append _ _).trans hnL,
      (List.prefix_append _ _).trans hnS⟩,
    ⟨hwf.2, by simp only [past]; omega, hs, hcl, hss, hsd, prefix_drop_append hnL,
      prefix_drop_append hnS⟩⟩

/-- A first tree the lenient reader skips: it reads past it, and then stands before the rest
where the strict reader stands already. -/
theorem skip (h : Closing around cL cS (t :: ts) ts' e) (ctx : Context) (context : String) :
    Stage.read ctx (Reading.skip context) cL = .ok () (past cL t) ∧
      Closing around (past cL t) cS ts ts' e := by
  obtain ⟨hwf, hroom, hs, hcl, hss, hsd, hnL, hnS⟩ := h
  rw [ViewTree.allWellFormed_cons] at hwf
  simp only [ViewTree.depthOf_cons] at hroom
  simp only [ViewTree.eventsOf_cons, List.append_assoc] at hnL
  exact ⟨Stage.read_ok (Reading.skip_tree hwf.1 (by omega) hs ((List.prefix_append _ _).trans hnL)),
    ⟨hwf.2, by simp only [past]; omega, hs, hcl, hss, hsd, prefix_drop_append hnL, hnS⟩⟩

/-- The first tree is at least one event of what is left. -/
theorem remaining_head (h : Closing around cL cS (t :: ts) ts' e) :
    (past cL t).remaining + t.events.length = cL.remaining := by
  have hnL := h.nextL
  simp only [ViewTree.eventsOf_cons, List.append_assoc] at hnL
  exact remaining_past ((List.prefix_append _ _).trans hnL)

/-- The lenient reader peeks the first tree's first event, which is no end. -/
theorem peekL (h : Closing around cL cS (t :: ts) ts' e) :
    cL.peek = some t.head ∧ t.head.kind.isEnd = false := by
  have hnL := h.nextL
  rw [ViewTree.eventsOf_cons, List.append_assoc, t.events_eq_cons, List.cons_append] at hnL
  exact ⟨ peek_of_prefix hnL,
    t.head_isEnd ((ViewTree.allWellFormed_cons t ts).1 h.wellFormed).1⟩

/-- The strict reader peeks the first event of its first tree. -/
theorem peekS (h : Closing around cL cS ts (t' :: ts') e) : cS.peek = some t'.head := by
  have hnS := h.nextS
  rw [ViewTree.eventsOf_cons, List.append_assoc, t'.events_eq_cons, List.cons_append] at hnS
  exact peek_of_prefix hnS

/-- Both readers give an event the namespace it inherits inside `around`. -/
theorem namespace_eq (h : Closing around cL cS ts ts' e) (x : Event) :
    cL.effectiveNamespace x = inheritedNamespace x around ∧
      cS.effectiveNamespace x = inheritedNamespace x around :=
  ⟨effectiveNamespace_openStack h.stack x, effectiveNamespace_openStack (h.sameStack.trans h.stack) x⟩

end Closing

-- ============================================================ one staging step, side by side

section Steps

variable {sp : Node → ViewTree → ViewTree} (hsp : Pruning sp) {m fS : Nat} {n : Node}

theorem object_skips (ih : Skips sp m) (hn : n.prunable = true) {ty : ModelType} {t : ViewTree}
    (h : Before around cL cS t (pruneObject sp n ty around t))
    (hfL : 4 * cL.remaining < m + 1) (hfS : 4 * cS.remaining < fS + 1) :
    Agree (Resembles sp cL.maxDepth n) (past cL t) (past cS (pruneObject sp n ty around t))
      (Stage.object (m + 1) ctx.ignoring n ty cL) (Stage.object (fS + 1) ctx n ty cS) := by
  simp only [Stage.object, Stage.next_ignoring, Stage.null_ignoring, Stage.unexpected_ignoring]
  cases t with
  | leaf e =>
    -- a leaf is a null or a refusal, read alike
    obtain ⟨hL, hS⟩ := h.leaf_next ctx "BEGIN_OBJECT"
    refine Agree.bind_ok hL hS ?_
    have hbo : (e.kind == .beginObject) = false := by
      have := h.wellFormed.1
      cases hk : e.kind <;> simp_all [EventKind.isBegin]
    simp only [hbo, Bool.false_eq_true, if_false]
    split
    · exact Agree.pure (Resembles.null_of n ctx n)
    · exact Agree.fail ctx _
  | node b body e =>
    obtain ⟨hL, hS, hc⟩ := h.begin_next ctx "BEGIN_OBJECT"
    have hpos := h.remaining_pos
    refine Agree.bind_ok hL hS ?_
    by_cases hbo : (b.kind == .beginObject) = true
    · -- the body of the object, then its end
      simp only [hbo, if_true]
      rw [← pastClosing_enter cL b e body, pruneObject, ← pastClosing_enter cS b e]
      exact Agree.map (ih.body hn ⟨rfl, .nil⟩ hc (by simp; omega) (by simp; omega))
        fun _ _ h => h.toStaged
    · -- any other begin is refused
      have hnull : b.isNullValue = false := Event.isNullValue_of_isBegin h.wellFormed.1
      simp only [hbo, hnull, Bool.false_eq_true, if_false]
      exact Agree.fail ctx _

include hsp in
theorem node_skips (ih : Skips sp m) (hn : n.prunable = true) {t : ViewTree}
    (h : Before around cL cS t (pruneNode sp n around t))
    (hfL : 4 * cL.remaining + 1 < m + 1) (hfS : 4 * cS.remaining + 1 < fS + 1) :
    Agree (Resembles sp cL.maxDepth n) (past cL t) (past cS (pruneNode sp n around t))
      (Stage.node (m + 1) ctx.ignoring n cL) (Stage.node (fS + 1) ctx n cS) := by
  have hpos := h.remaining_pos
  -- the kinds that read one event or skip one whole tree keep it whole
  have hself : n.kind = .value ∨ n.kind = .metadata ∨ n.kind = .discriminator ∨
      n.kind = .subtype → pruneNode sp n around t = t := by
    intro hk
    cases t with
    | leaf e => rfl
    | node b body e => rcases hk with hk | hk | hk | hk <;> simp [pruneNode, hk]
  cases hk : n.kind <;> simp only [Stage.node, hk, Stage.next_ignoring, Stage.read_ignoring,
    Stage.unexpected_ignoring, Stage.mismatch_ignoring, Stage.scalar_ignoring]
  case value =>
    rw [hself (.inl hk)] at h ⊢
    cases t with
    | leaf e =>
      obtain ⟨hL, hS⟩ := h.leaf_next ctx "VALUE"
      refine Agree.bind_ok hL hS ?_
      split
      · exact Agree.fail_bind ctx _
      · exact Agree.scalar sp _ n ctx n e
    | node b body e =>
      obtain ⟨hL, hS, -⟩ := h.begin_next ctx "VALUE"
      refine Agree.bind_ok hL hS ?_
      simp only [EventKind.bne_value_of_isBegin h.begin_isBegin, if_true]
      exact Agree.fail_bind ctx _
  case object | reference =>
    cases hty : n.modelType with
    | none => exact Agree.fail ctx _
    | some ty =>
      have hp : pruneNode sp n around t = pruneObject sp n ty around t := by
        cases t <;> simp [pruneNode, pruneObject, hk, hty]
      rw [hp] at h ⊢
      exact ih.object hn h (by omega) (by omega)
  case envelope =>
    cases t with
    | leaf e =>
      obtain ⟨hL, hS⟩ := h.leaf_next ctx "BEGIN_OBJECT"
      refine Agree.expect_bind hL hS fun hbo => absurd h.wellFormed.1 ?_
      simp [hbo, EventKind.isBegin]
    | node b body e =>
      cases hty : n.modelType with
      | none =>
        have hp : pruneNode sp n around (.node b body e) = .node b body e := by
          simp [pruneNode, hk, hty]
        rw [hp] at h ⊢
        obtain ⟨hL, hS, -⟩ := h.begin_next ctx "BEGIN_OBJECT"
        exact Agree.expect_bind hL hS fun _ => Agree.fail ctx _
      | some ty =>
        -- the body of the envelope, then its end
        have hp : pruneNode sp n around (.node b body e) =
            .node b (pruneBody sp n ty (b :: around) body) e := by
          simp [pruneNode, hk, hty]
        rw [hp] at h ⊢
        obtain ⟨hL, hS, hc⟩ := h.begin_next ctx "BEGIN_OBJECT"
        refine Agree.expect_bind hL hS fun _ => ?_
        rw [← pastClosing_enter cL b e body, ← pastClosing_enter cS b e]
        exact Agree.map (ih.body hn ⟨rfl, .nil⟩ hc (by simp; omega) (by simp; omega))
          fun _ _ h => h.toStaged
  case arrayOfObjects | arrayOfValues =>
    have hp : pruneNode sp n around t = pruneArray sp n around t := by
      cases t <;> simp [pruneNode, pruneArray, hk]
    rw [hp] at h ⊢
    exact ih.array hn h (by omega) (by omega)
  case mapOfObjects | mapOfValues =>
    have hp : pruneNode sp n around t = pruneMap sp n around t := by
      cases t <;> simp [pruneNode, pruneMap, hk]
    rw [hp] at h ⊢
    exact ih.map hn h (by omega) (by omega)
  case metadata =>
    rw [hself (.inr (.inl hk))] at h ⊢
    cases t with
    | leaf e =>
      obtain ⟨hL, hS⟩ := h.leaf_next ctx "META"
      refine Agree.bind_ok hL hS ?_
      split
      · exact Agree.pure (.metaValue _)
      · exact Agree.fail ctx _
    | node b body e =>
      obtain ⟨hL, hS, -⟩ := h.begin_next ctx "META"
      refine Agree.bind_ok hL hS ?_
      have hno : (b.kind == .metadata || b.kind == .value) = false := by
        rcases EventKind.eq_of_isBegin h.begin_isBegin with hk | hk <;> simp [hk]
      simp only [hno, Bool.false_eq_true, if_false]
      exact Agree.fail ctx _
  case splice =>
    -- the lenient reader keeps the tree, the strict one its pruning by the spliced template
    have hshape : InShape (pruneNode sp n around t) t := pruneNode_inShape hsp n around t h.wellFormed
    obtain ⟨hL, hS⟩ := h.subtree_pruned hshape ctx "splice"
    have hp : pruneNode sp n around t = pruneNode sp n [] t := by
      cases t <;> simp [pruneNode, hk]
    have hdepth : t.depth ≤ cL.maxDepth := by have := h.room; omega
    have hrel : Resembles sp cL.maxDepth n (.spliced t.events.toArray)
        (.spliced (pruneNode sp n around t).events.toArray) := by
      rw [hp]
      exact .spliced hk h.wellFormed hdepth
    exact Agree.map (R := fun v w => Resembles sp cL.maxDepth n (.spliced v) (.spliced w))
      (Agree.of_ok hrel hL hS) fun _ _ h => h
  case discriminator | subtype =>
    rw [hself (by simp [hk])] at h ⊢
    obtain ⟨hL, hS⟩ := h.skip_both ctx "property"
    exact Agree.bind_ok hL hS (Agree.pure .unchanged)

include hsp in
theorem body_skips (ih : Skips sp m) (hn : n.prunable = true) {eL eS : Entity}
    {ts : List ViewTree} (hrel : EntityResembles sp cL.maxDepth n eL eS)
    (h : Closing around cL cS ts (pruneBody sp n eL.type around ts) e)
    (hfL : 4 * cL.remaining + 2 < m + 1) (hfS : 4 * cS.remaining + 2 < fS + 1) :
    Agree (EntityResembles sp cL.maxDepth n) (pastClosing cL ts)
      (pastClosing cS (pruneBody sp n eL.type around ts))
      (Stage.body (m + 1) ctx.ignoring n eL cL) (Stage.body (fS + 1) ctx n eS cS) := by
  have happart : n.routesApart = true := ((Node.prunable_iff n).1 hn).1
  cases ts with
  | nil =>
    -- the end of the object, read alike
    have h' : Closing around cL cS [] [] e := h
    obtain ⟨-, -, hL, hS⟩ := h'.end_next ctx "END_OBJECT" "END_OBJECT"
    rw [Stage.body_end ( peek_of_prefix (l := []) h'.nextL) h'.isEnd,
      Stage.body_end ( peek_of_prefix (l := []) h'.nextS) h'.isEnd]
    simp only [Stage.next_ignoring]
    exact Agree.bind_ok hL hS (Agree.pure hrel)
  | cons t ts =>
    obtain ⟨hpL, hend⟩ := h.peekL
    obtain ⟨hnsL, hnsS⟩ := h.namespace_eq t.head
    have hremL := h.remaining_head
    cases hname : t.head.name with
    | none =>
      -- a property without a name is refused alike
      have hp : pruneBody sp n eL.type around (t :: ts) = t :: ts := by
        simp [pruneBody, hname]
      rw [hp] at h ⊢
      rw [Stage.body_anonymous hpL hend hname, Stage.body_anonymous h.peekS hend hname]
      exact Agree.fail ctx _
    | some nm =>
      cases hr : n.route? nm (inheritedNamespace t.head around) eL.type with
      | none =>
        -- an unknown property: the lenient reader skips it, the strict one never sees it
        have hp : pruneBody sp n eL.type around (t :: ts) = pruneBody sp n eL.type around ts := by
          simp [pruneBody, hname, hr]
        rw [hp] at h ⊢
        obtain ⟨hskip, hrest⟩ := h.skip ctx "unknown property"
        rw [Stage.body_unknown hpL hend hname (by rw [hnsL]; exact hr), Stage.unknown_ignoring,
          Stage.bind_eq_of_ok hskip, ← pastClosing_past]
        have := events_length_pos t
        exact ih.body hn hrel hrest (by omega) (by omega)
      | some d =>
        have hrS : n.route? nm (cS.effectiveNamespace t.head) eS.type = some d := by
          rw [hnsS, ← hrel.type]
          exact hr
        by_cases hk : (d.kind == .discriminator) = true
        · -- a discriminator moves the type on, alike
          cases hres : resolvedType d n.candidates t with
          | none =>
            have hp : pruneBody sp n eL.type around (t :: ts) = t :: ts := by
              simp [pruneBody, hname, hr, hk, hres]
            rw [hp] at h ⊢
            obtain ⟨hb, -⟩ := h.cons
            rw [Stage.body_discriminator hpL hend hname (by rw [hnsL]; exact hr) hk,
              Stage.body_discriminator h.peekS hend hname hrS hk]
            simp only [Context.ignoring_push, Stage.discriminator_ignoring]
            refine Agree.bind (hb.discriminator _ d n.candidates) fun ty _ _ hdL _ => ?_
            rw [hb.resolved hdL] at hres
            cases hres
          | some ty' =>
            have hp : pruneBody sp n eL.type around (t :: ts) =
                t :: pruneBody sp n ty' around ts := by
              simp [pruneBody, hname, hr, hk, hres]
            rw [hp] at h ⊢
            obtain ⟨hb, hrest⟩ := h.cons
            have hremS := remaining_past hb.nextS
            have := events_length_pos t
            rw [Stage.body_discriminator hpL hend hname (by rw [hnsL]; exact hr) hk,
              Stage.body_discriminator h.peekS hend hname hrS hk]
            simp only [Context.ignoring_push, Stage.discriminator_ignoring]
            refine Agree.bind (hb.discriminator _ d n.candidates) fun ty _ hty hdL _ => ?_
            subst hty
            rw [hb.resolved hdL] at hres
            cases hres
            rw [← pastClosing_past, ← pastClosing_past]
            exact ih.body hn ⟨rfl, hrel.props⟩ hrest (by omega) (by omega)
        · -- any other child stages its tree, then the object goes on
          have hk' : (d.kind == .discriminator) = false := by simpa using hk
          have hp : pruneBody sp n eL.type around (t :: ts) =
              pruneNode sp d around t :: pruneBody sp n eL.type around ts := by
            simp [pruneBody, hname, hr, hk']
          rw [hp] at h ⊢
          obtain ⟨hb, hrest⟩ := h.cons
          have hremS := remaining_past hb.nextS
          have := events_length_pos (pruneNode sp d around t)
          have := events_length_pos t
          have hpS : cS.peek = some t.head := by simpa [head_pruneNode hsp] using h.peekS
          obtain ⟨g, hmem⟩ := Node.mem_routes_of_route? hr
          have hd : d.prunable = true := (Node.below_of_mem_routes hmem).2 hn
          have hdn : d.name = some nm := (Node.name_of_mem_routes hmem).1
          rw [Stage.body_child hpL hend hname (by rw [hnsL]; exact hr) hk',
            Stage.body_child hpS hend hname hrS hk']
          simp only [Context.ignoring_push]
          refine Agree.bind (ih.node hd hb ?_ ?_) fun a b hab _ _ => ?_
          · omega
          · omega
          -- the property resembles as the node it routes to staged it
          have hput : EntityResembles sp cL.maxDepth n
              (d.name.elim eL fun nm => eL.put nm a) (d.name.elim eS fun nm => eS.put nm b) := by
            rw [hdn]
            exact hrel.put (PropResembles.of_route happart hmem hab)
          have hty : (d.name.elim eL fun nm => eL.put nm a).type = eL.type := by
            cases d.name <;> simp
          rw [← hty] at hrest
          rw [← pastClosing_past, ← pastClosing_past, ← hty]
          exact ih.body hn hput hrest (by omega) (by omega)

theorem array_skips (ih : Skips sp m) (hn : n.prunable = true) {t : ViewTree}
    (h : Before around cL cS t (pruneArray sp n around t))
    (hfL : 4 * cL.remaining < m + 1) (hfS : 4 * cS.remaining < fS + 1) :
    Agree (Resembles sp cL.maxDepth n) (past cL t) (past cS (pruneArray sp n around t))
      (Stage.array (m + 1) ctx.ignoring n cL) (Stage.array (fS + 1) ctx n cS) := by
  simp only [Stage.array, Stage.next_ignoring, Stage.null_ignoring, Stage.unexpected_ignoring]
  cases t with
  | leaf e =>
    -- a leaf is a null or a refusal, read alike
    obtain ⟨hL, hS⟩ := h.leaf_next ctx "BEGIN_ARRAY"
    refine Agree.bind_ok hL hS ?_
    split
    · exact Agree.pure (Resembles.null_of n ctx n)
    · simp only [(EventKind.bne_begin_of_isBegin_false h.wellFormed.1).2, if_true]
      exact Agree.fail_bind ctx _
  | node b body e =>
    obtain ⟨hL, hS, hc⟩ := h.begin_next ctx "BEGIN_ARRAY"
    have hpos := h.remaining_pos
    refine Agree.bind_ok hL hS ?_
    simp only [Event.isNullValue_of_isBegin h.wellFormed.1, Bool.false_eq_true, if_false]
    by_cases hba : (b.kind != .beginArray) = true
    · simp only [hba, if_true]
      exact Agree.fail_bind ctx _
    · -- the elements, then the end
      simp only [hba, Bool.false_eq_true, if_false]
      rw [← pastClosing_enter cL b e body, pruneArray, ← pastClosing_enter cS b e]
      exact Agree.map (ih.elements hn .nil hc (by simp; omega) (by simp; omega))
        fun _ _ h => .elements h

theorem elements_skips (ih : Skips sp m) (hn : n.prunable = true) {accL accS : List Staged}
    {ts : List ViewTree} (hacc : ItemsResemble sp cL.maxDepth n accL accS)
    (h : Closing around cL cS ts (pruneElements sp n around ts) e)
    (hfL : 4 * cL.remaining + 2 < m + 1) (hfS : 4 * cS.remaining + 2 < fS + 1) :
    Agree (ItemsResemble sp cL.maxDepth n) (pastClosing cL ts)
      (pastClosing cS (pruneElements sp n around ts))
      (Stage.elements (m + 1) ctx.ignoring n accL cL) (Stage.elements (fS + 1) ctx n accS cS) := by
  cases ts with
  | nil =>
    have h' : Closing around cL cS [] [] e := h
    obtain ⟨-, -, hL, hS⟩ := h'.end_next ctx "END_ARRAY" "END_ARRAY"
    rw [Stage.elements_end ( peek_of_prefix (l := []) h'.nextL) h'.isEnd,
      Stage.elements_end ( peek_of_prefix (l := []) h'.nextS) h'.isEnd]
    simp only [Stage.next_ignoring]
    exact Agree.bind_ok hL hS (Agree.pure hacc)
  | cons t ts =>
    -- each element is staged for the collection, then the collection goes on
    obtain ⟨hpL, hend⟩ := h.peekL
    have hremL := h.remaining_head
    have hpS : cS.peek = some t.head := by simpa [pruneElements] using h.peekS
    obtain ⟨hb, hrest⟩ := h.cons
    have hremS := remaining_past hb.nextS
    have := events_length_pos t
    have := events_length_pos (pruneElement sp n around t)
    have hlen : accS.length = accL.length := hacc.length_eq.symm
    rw [Stage.elements_item hpL hend, Stage.elements_item hpS hend, hlen]
    simp only [Context.ignoring_push]
    refine Agree.bind (ih.element hn hb ?_ ?_) fun a b hab _ _ => ?_
    · omega
    · omega
    rw [← pastClosing_past, pruneElements, ← pastClosing_past]
    exact ih.elements hn (hacc.append hab) hrest (by omega) (by omega)

theorem element_skips (ih : Skips sp m) (hn : n.prunable = true) {t : ViewTree}
    (h : Before around cL cS t (pruneElement sp n around t))
    (hfL : 4 * cL.remaining + 1 < m + 1) (hfS : 4 * cS.remaining + 1 < fS + 1) :
    Agree (Resembles sp cL.maxDepth n) (past cL t) (past cS (pruneElement sp n around t))
      (Stage.element (m + 1) ctx.ignoring n cL) (Stage.element (fS + 1) ctx n cS) := by
  simp only [Stage.element, Stage.next_ignoring, Stage.unexpected_ignoring,
    Stage.mismatch_ignoring, Stage.scalar_ignoring]
  by_cases hobj : (n.kind == .arrayOfObjects || n.kind == .mapOfObjects) = true
  · -- an object element
    simp only [hobj, if_true]
    cases hty : n.modelType with
    | none => exact Agree.fail ctx _
    | some ty =>
      have hp : pruneElement sp n around t = pruneObject sp n ty around t := by
        cases t <;> simp [pruneElement, pruneObject, hobj, hty]
      rw [hp] at h ⊢
      exact ih.object hn h (by omega) (by omega)
  · -- a value element is one value event
    simp only [hobj, Bool.false_eq_true, if_false]
    have hp : pruneElement sp n around t = t := by
      cases t <;> simp [pruneElement, hobj]
    rw [hp] at h ⊢
    cases t with
    | leaf e =>
      obtain ⟨hL, hS⟩ := h.leaf_next ctx "VALUE"
      refine Agree.bind_ok hL hS ?_
      split
      · exact Agree.fail_bind ctx _
      · exact Agree.scalar sp _ n ctx n e
    | node b body e =>
      obtain ⟨hL, hS, -⟩ := h.begin_next ctx "VALUE"
      refine Agree.bind_ok hL hS ?_
      simp only [EventKind.bne_value_of_isBegin h.wellFormed.1, if_true]
      exact Agree.fail_bind ctx _

theorem map_skips (ih : Skips sp m) (hn : n.prunable = true) {t : ViewTree}
    (h : Before around cL cS t (pruneMap sp n around t))
    (hfL : 4 * cL.remaining < m + 1) (hfS : 4 * cS.remaining < fS + 1) :
    Agree (Resembles sp cL.maxDepth n) (past cL t) (past cS (pruneMap sp n around t))
      (Stage.map (m + 1) ctx.ignoring n cL) (Stage.map (fS + 1) ctx n cS) := by
  simp only [Stage.map, Stage.next_ignoring, Stage.null_ignoring, Stage.unexpected_ignoring]
  cases t with
  | leaf e =>
    obtain ⟨hL, hS⟩ := h.leaf_next ctx "BEGIN_OBJECT"
    refine Agree.bind_ok hL hS ?_
    obtain ⟨hbo, hba⟩ := EventKind.bne_begin_of_isBegin_false h.wellFormed.1
    split
    · exact Agree.pure (Resembles.null_of n ctx n)
    · split
      · exact Agree.fail_bind ctx _
      · exact Agree.fail_bind ctx _
  | node b body e =>
    have hpos := h.remaining_pos
    by_cases hsk : n.info.stringKeys = true
    · -- a map written as an object: its entries are named elements
      have hp : pruneMap sp n around (.node b body e) =
          .node b (pruneElements sp n (b :: around) body) e := by
        simp [pruneMap, hsk]
      rw [hp] at h ⊢
      obtain ⟨hL, hS, hc⟩ := h.begin_next ctx "BEGIN_OBJECT"
      refine Agree.bind_ok hL hS ?_
      simp only [Event.isNullValue_of_isBegin h.wellFormed.1, Bool.false_eq_true, if_false, hsk,
        if_true]
      by_cases hbo : (b.kind != .beginObject) = true
      · simp only [hbo, if_true]
        exact Agree.fail_bind ctx _
      · simp only [hbo, Bool.false_eq_true, if_false]
        rw [← pastClosing_enter cL b e body, ← pastClosing_enter cS b e]
        exact Agree.map (ih.namedEntries hn .nil hc (by simp; omega) (by simp; omega))
          fun _ _ h => .entries h
    · -- a map written as an array of entries
      have hp : pruneMap sp n around (.node b body e) =
          .node b (pruneEntries sp n (b :: around) body) e := by
        simp [pruneMap, hsk]
      rw [hp] at h ⊢
      obtain ⟨hL, hS, hc⟩ := h.begin_next ctx "BEGIN_OBJECT"
      refine Agree.bind_ok hL hS ?_
      simp only [Event.isNullValue_of_isBegin h.wellFormed.1, Bool.false_eq_true, if_false, hsk]
      by_cases hba : (b.kind != .beginArray) = true
      · simp only [hba, if_true]
        exact Agree.fail_bind ctx _
      · simp only [hba, Bool.false_eq_true, if_false]
        rw [← pastClosing_enter cL b e body, ← pastClosing_enter cS b e]
        exact Agree.map (ih.entryList hn .nil hc (by simp; omega) (by simp; omega))
          fun _ _ h => .entries h

theorem namedEntries_skips (ih : Skips sp m) (hn : n.prunable = true)
    {accL accS : List (Scalar × Staged)} {ts : List ViewTree}
    (hacc : EntriesResemble sp cL.maxDepth n accL accS)
    (h : Closing around cL cS ts (pruneElements sp n around ts) e)
    (hfL : 4 * cL.remaining + 2 < m + 1) (hfS : 4 * cS.remaining + 2 < fS + 1) :
    Agree (EntriesResemble sp cL.maxDepth n) (pastClosing cL ts)
      (pastClosing cS (pruneElements sp n around ts))
      (Stage.namedEntries (m + 1) ctx.ignoring n accL cL)
      (Stage.namedEntries (fS + 1) ctx n accS cS) := by
  cases ts with
  | nil =>
    have h' : Closing around cL cS [] [] e := h
    obtain ⟨-, -, hL, hS⟩ := h'.end_next ctx "END_OBJECT" "END_OBJECT"
    rw [Stage.namedEntries_end ( peek_of_prefix (l := []) h'.nextL) h'.isEnd,
      Stage.namedEntries_end ( peek_of_prefix (l := []) h'.nextS) h'.isEnd]
    simp only [Stage.next_ignoring]
    exact Agree.bind_ok hL hS (Agree.pure hacc)
  | cons t ts =>
    obtain ⟨hpL, hend⟩ := h.peekL
    have hremL := h.remaining_head
    have hpS : cS.peek = some t.head := by simpa [pruneElements] using h.peekS
    obtain ⟨hb, hrest⟩ := h.cons
    have hremS := remaining_past hb.nextS
    have := events_length_pos t
    have := events_length_pos (pruneElement sp n around t)
    cases hname : t.head.name with
    | none =>
      rw [Stage.namedEntries_anonymous hpL hend hname, Stage.namedEntries_anonymous hpS hend hname]
      exact Agree.fail ctx _
    | some nm =>
      -- the key is the name, converted alike; the value is an element
      rw [Stage.namedEntries_item hpL hend hname, Stage.namedEntries_item hpS hend hname]
      simp only [Stage.keyToModel_ignoring, Context.ignoring_push]
      refine Agree.bind (Agree.keyToModel ctx n _) fun key _ hkey _ _ => ?_
      subst hkey
      refine Agree.bind (ih.element hn hb ?_ ?_) fun a b hab _ _ => ?_
      · omega
      · omega
      rw [← pastClosing_past, pruneElements, ← pastClosing_past]
      exact ih.namedEntries hn (hacc.append hab) hrest (by omega) (by omega)

theorem entryList_skips (ih : Skips sp m) (hn : n.prunable = true)
    {accL accS : List (Scalar × Staged)} {ts : List ViewTree}
    (hacc : EntriesResemble sp cL.maxDepth n accL accS)
    (h : Closing around cL cS ts (pruneEntries sp n around ts) e)
    (hfL : 4 * cL.remaining + 1 < m + 1) (hfS : 4 * cS.remaining + 1 < fS + 1) :
    Agree (EntriesResemble sp cL.maxDepth n) (pastClosing cL ts)
      (pastClosing cS (pruneEntries sp n around ts))
      (Stage.entryList (m + 1) ctx.ignoring n accL cL)
      (Stage.entryList (fS + 1) ctx n accS cS) := by
  cases ts with
  | nil =>
    have h' : Closing around cL cS [] [] e := h
    obtain ⟨-, -, hL, hS⟩ := h'.end_next ctx "END_ARRAY" "END_ARRAY"
    rw [Stage.entryList_end ( peek_of_prefix (l := []) h'.nextL) h'.isEnd,
      Stage.entryList_end ( peek_of_prefix (l := []) h'.nextS) h'.isEnd]
    simp only [Stage.next_ignoring]
    exact Agree.bind_ok hL hS (Agree.pure hacc)
  | cons t ts =>
    obtain ⟨hpL, hend⟩ := h.peekL
    have hremL := h.remaining_head
    rw [pruneEntries_cons] at h ⊢
    have hpS : cS.peek = some t.head := by simpa using h.peekS
    obtain ⟨hb, hrest⟩ := h.cons
    have hremS := remaining_past hb.nextS
    have := events_length_pos t
    have := events_length_pos (pruneEntry sp n around t)
    have hlen : accS.length = accL.length := hacc.length_eq.symm
    rw [Stage.entryList_item hpL hend, Stage.entryList_item hpS hend, hlen]
    simp only [Context.ignoring_push]
    refine Agree.bind (ih.entry hn hb ?_ ?_) fun kv kv' hkv _ _ => ?_
    · omega
    · omega
    obtain ⟨k, a⟩ := kv
    obtain ⟨k', b⟩ := kv'
    obtain ⟨rfl, hab⟩ := hkv
    rw [← pastClosing_past, ← pastClosing_past]
    exact ih.entryList hn (hacc.append hab) hrest (by omega) (by omega)

theorem entry_skips (ih : Skips sp m) (hn : n.prunable = true) {t : ViewTree}
    (h : Before around cL cS t (pruneEntry sp n around t))
    (hfL : 4 * cL.remaining < m + 1) (hfS : 4 * cS.remaining < fS + 1) :
    Agree (fun p q => p.1 = q.1 ∧ Resembles sp cL.maxDepth n p.2 q.2) (past cL t)
      (past cS (pruneEntry sp n around t))
      (Stage.entry (m + 1) ctx.ignoring n cL) (Stage.entry (fS + 1) ctx n cS) := by
  simp only [Stage.entry, Stage.read_ignoring, Stage.mismatch_ignoring]
  cases t with
  | leaf e =>
    -- a leaf is no entry object
    obtain ⟨hL, hS⟩ := h.leaf_next ctx "BEGIN_OBJECT"
    refine Agree.expect_bind hL hS fun hk => ?_
    have hb := h.wellFormed.1
    simp [hk, EventKind.isBegin] at hb
  | node b fields e =>
    obtain ⟨hL, hS, hc⟩ := h.begin_next ctx "BEGIN_OBJECT"
    have hpos := h.remaining_pos
    refine Agree.expect_bind hL hS fun _ => ?_
    rw [← pastClosing_enter cL b e fields, pruneEntry, ← pastClosing_enter cS b e]
    refine Agree.bind (ih.entryFields hn .null hc ?_ ?_) fun kv kv' hkv _ _ => ?_
    · simp
      omega
    · simp
      omega
    obtain ⟨key, a⟩ := kv
    obtain ⟨key', b⟩ := kv'
    obtain ⟨rfl, hab⟩ := hkv
    cases key with
    | none => exact Agree.fail ctx _
    | some k =>
      dsimp only
      split
      · exact Agree.fail ctx _
      · exact Agree.pure ⟨rfl, hab⟩

theorem entryFields_skips (ih : Skips sp m) (hn : n.prunable = true) {key : Option Scalar}
    {vL vS : Staged} {ts : List ViewTree} (hv : Resembles sp cL.maxDepth n vL vS)
    (h : Closing around cL cS ts (pruneFields sp n around ts) e)
    (hfL : 4 * cL.remaining + 2 < m + 1) (hfS : 4 * cS.remaining + 2 < fS + 1) :
    Agree (fun p q => p.1 = q.1 ∧ Resembles sp cL.maxDepth n p.2 q.2) (pastClosing cL ts)
      (pastClosing cS (pruneFields sp n around ts))
      (Stage.entryFields (m + 1) ctx.ignoring n key vL cL)
      (Stage.entryFields (fS + 1) ctx n key vS cS) := by
  cases ts with
  | nil =>
    have h' : Closing around cL cS [] [] e := h
    obtain ⟨-, -, hL, hS⟩ := h'.end_next ctx "END_OBJECT" "END_OBJECT"
    rw [Stage.entryFields_end ( peek_of_prefix (l := []) h'.nextL) h'.isEnd,
      Stage.entryFields_end ( peek_of_prefix (l := []) h'.nextS) h'.isEnd]
    simp only [Stage.next_ignoring]
    exact Agree.bind_ok hL hS (Agree.pure ⟨rfl, hv⟩)
  | cons t ts =>
    obtain ⟨hpL, hend⟩ := h.peekL
    have hremL := h.remaining_head
    have := events_length_pos t
    cases hname : t.head.name with
    | none =>
      have hp : pruneFields sp n around (t :: ts) = t :: ts := by simp [pruneFields, hname]
      rw [hp] at h ⊢
      rw [Stage.entryFields_anonymous hpL hend hname,
        Stage.entryFields_anonymous h.peekS hend hname]
      exact Agree.fail ctx _
    | some nm =>
      by_cases hkey : nm = "key"
      · -- the key: one value event, converted alike
        subst hkey
        have hp : pruneFields sp n around (t :: ts) = t :: pruneFields sp n around ts := by
          simp [pruneFields, hname]
        rw [hp] at h ⊢
        have hpS := h.peekS
        obtain ⟨hb, hrest⟩ := h.cons
        have hremS := remaining_past hb.nextS
        rw [Stage.entryFields_key hpL hend hname, Stage.entryFields_key hpS hend hname]
        simp only [Stage.read_ignoring, Stage.keyToModel_ignoring]
        cases t with
        | leaf x =>
          obtain ⟨hL, hS⟩ := hb.leaf_next ctx "VALUE"
          refine Agree.expect_bind hL hS fun _ => ?_
          refine Agree.bind (Agree.keyToModel ctx n _) fun k _ hk _ _ => ?_
          subst hk
          rw [← pastClosing_past, ← pastClosing_past]
          exact ih.entryFields hn hv hrest (by omega) (by omega)
        | node b body x =>
          obtain ⟨hL, hS, -⟩ := hb.begin_next ctx "VALUE"
          refine Agree.expect_bind hL hS fun hk => ?_
          have hbeg := hb.begin_isBegin
          simp [hk, EventKind.isBegin] at hbeg
      · by_cases hval : nm = "value"
        · -- the value: an element, staged for the map
          subst hval
          have hp : pruneFields sp n around (t :: ts) =
              pruneElement sp n around t :: pruneFields sp n around ts := by
            simp [pruneFields, hname]
          rw [hp] at h ⊢
          have hpS : cS.peek = some t.head := by simpa using h.peekS
          obtain ⟨hb, hrest⟩ := h.cons
          have hremS := remaining_past hb.nextS
          have := events_length_pos (pruneElement sp n around t)
          rw [Stage.entryFields_value hpL hend hname, Stage.entryFields_value hpS hend hname]
          refine Agree.bind (ih.element hn hb ?_ ?_) fun a b hab _ _ => ?_
          · omega
          · omega
          rw [← pastClosing_past, ← pastClosing_past]
          exact ih.entryFields hn hab hrest (by omega) (by omega)
        · -- any other field: the lenient reader skips it, the strict one never sees it
          have hp : pruneFields sp n around (t :: ts) = pruneFields sp n around ts := by
            simp [pruneFields, hname]
          rw [hp] at h ⊢
          obtain ⟨hskip, hrest⟩ := h.skip ctx "unknown property"
          rw [Stage.entryFields_other hpL hend hname hkey hval, Stage.unknown_ignoring,
            Stage.bind_eq_of_ok hskip, ← pastClosing_past]
          exact ih.entryFields hn hv hrest (by omega) (by omega)

end Steps

/-- Lenient and strict staging agree at every fuel that covers the view: the lenient reader
over a tree, the strict one over its pruning. -/
theorem skips {sp : Node → ViewTree → ViewTree} (hsp : Pruning sp) : ∀ m, Skips sp m
  | 0 => skips_zero sp
  | m + 1 =>
    -- the strict fuel is above a bound, so it is a successor too
    have ih := skips hsp m
    { node := fun hn h hfL hfS => by
        obtain ⟨k, rfl⟩ := Nat.exists_eq_add_of_lt hfS
        exact node_skips hsp ih hn h hfL hfS
      object := fun hn h hfL hfS => by
        obtain ⟨k, rfl⟩ := Nat.exists_eq_add_of_lt hfS
        exact object_skips ih hn h hfL hfS
      body := fun hn hrel h hfL hfS => by
        obtain ⟨k, rfl⟩ := Nat.exists_eq_add_of_lt hfS
        exact body_skips hsp ih hn hrel h hfL hfS
      array := fun hn h hfL hfS => by
        obtain ⟨k, rfl⟩ := Nat.exists_eq_add_of_lt hfS
        exact array_skips ih hn h hfL hfS
      elements := fun hn hacc h hfL hfS => by
        obtain ⟨k, rfl⟩ := Nat.exists_eq_add_of_lt hfS
        exact elements_skips ih hn hacc h hfL hfS
      element := fun hn h hfL hfS => by
        obtain ⟨k, rfl⟩ := Nat.exists_eq_add_of_lt hfS
        exact element_skips ih hn h hfL hfS
      map := fun hn h hfL hfS => by
        obtain ⟨k, rfl⟩ := Nat.exists_eq_add_of_lt hfS
        exact map_skips ih hn h hfL hfS
      namedEntries := fun hn hacc h hfL hfS => by
        obtain ⟨k, rfl⟩ := Nat.exists_eq_add_of_lt hfS
        exact namedEntries_skips ih hn hacc h hfL hfS
      entryList := fun hn hacc h hfL hfS => by
        obtain ⟨k, rfl⟩ := Nat.exists_eq_add_of_lt hfS
        exact entryList_skips ih hn hacc h hfL hfS
      entry := fun hn h hfL hfS => by
        obtain ⟨k, rfl⟩ := Nat.exists_eq_add_of_lt hfS
        exact entry_skips ih hn h hfL hfS
      entryFields := fun hn hv h hfL hfS => by
        obtain ⟨k, rfl⟩ := Nat.exists_eq_add_of_lt hfS
        exact entryFields_skips ih hn hv h hfL hfS }

/-- The root of a template, read as `initial` where it is given. -/
theorem root_skips {sp : Node → ViewTree → ViewTree} (hsp : Pruning sp) {r : Node}
    (hr : r.prunable = true) {initial : Option ModelType} {t : ViewTree} {m fS : Nat}
    (h : Before [] cL cS t (pruneRoot sp r initial t))
    (hfL : 4 * cL.remaining + 1 < m) (hfS : 4 * cS.remaining + 1 < fS) :
    Agree (Resembles sp cL.maxDepth r) (past cL t) (past cS (pruneRoot sp r initial t))
      (Stage.root m ctx.ignoring r initial cL) (Stage.root fS ctx r initial cS) := by
  by_cases hobj : r.kind = .object ∧ initial.isSome
  · -- an object root read as the given type
    obtain ⟨hk, hs⟩ := hobj
    obtain ⟨ty, rfl⟩ := Option.isSome_iff_exists.1 hs
    have hp : pruneRoot sp r (some ty) t = pruneObject sp r ty [] t := by simp [pruneRoot, hk]
    rw [hp] at h ⊢
    rw [Stage.root_object hk, Stage.root_object hk, Context.ignoring_push]
    refine (skips hsp m).object hr h ?_ ?_ <;> omega
  · -- any other root is read by its node
    have hp : pruneRoot sp r initial t = pruneNode sp r [] t := by
      unfold pruneRoot
      split <;> simp_all
    have hroot : ∀ fuel ctx', Stage.root fuel ctx' r initial =
        Stage.node fuel (ctx'.push { modelType := r.modelType }) r := by
      intro fuel ctx'
      unfold Stage.root
      split <;> simp_all
    rw [hp] at h ⊢
    rw [hroot, hroot, Context.ignoring_push]
    exact (skips hsp m).node hr h hfL hfS

end Lenient

/-- With nothing left open, finishing refuses exactly the events that trail. -/
theorem Stage.finish_closed (ctx : Context) {c : Cursor} (hs : c.stack = []) :
    Stage.read ctx Reading.finish c =
      if c.pos < c.events.size then
        .error (ctx.error (.stream (.trailingEvents (c.events.size - c.pos)))) c
      else .ok () c := by
  by_cases hp : c.pos < c.events.size <;>
    simp [Stage.read, Reading.finish, hs, hp, get, getThe, MonadStateOf.get, EStateM.get, bind,
      EStateM.bind, throw, throwThe, MonadExceptOf.throw, EStateM.throw, pure, EStateM.pure]

namespace Lenient

/-- Two reading phases agree: they stage values `R` relates, or fail with the same error. -/
def ReadAlike (R : Staged → Staged → Prop) : Except ViewError Staged → Except ViewError Staged → Prop
  | .ok a, .ok b => R a b
  | .error e, .error e' => e = e'
  | _, _ => False

/-- **Lenient reading is strict reading of the pruned view.** For a view whose root is a
well-formed tree within the nesting limit, reading with unknown properties ignored and reading
the view with the root pruned, with the context as it is, fail with the same error or stage
values that resemble: the same, except that a spliced view read strictly is the lenient one
pruned by `sp`. What trails the root is read alike. -/
theorem lenient_reading_resembles_pruned_view {sp : Node → ViewTree → ViewTree}
    (hsp : Pruning sp) {ctx : Context} {r : Node} (hr : r.prunable = true)
    {initial : Option ModelType} {t : ViewTree} {rest : List Event} (hwf : t.WellFormed)
    (hdepth : t.depth ≤ ctx.options.maxDepth) :
    ReadAlike (Resembles sp ctx.options.maxDepth r)
      (readView ctx.ignoring r initial (t.events ++ rest).toArray)
      (readView ctx r initial ((pruneRoot sp r initial t).events ++ rest).toArray) := by
  simp only [readView, Context.ignoring_maxDepth, Stage.read_ignoring]
  set cL : Cursor := { events := (t.events ++ rest).toArray, maxDepth := ctx.options.maxDepth }
    with hcL
  set cS : Cursor :=
    { events := ((pruneRoot sp r initial t).events ++ rest).toArray,
      maxDepth := ctx.options.maxDepth } with hcS
  have h : Before [] cL cS t (pruneRoot sp r initial t) :=
    ⟨hwf, by simpa using hdepth, rfl, rfl, rfl, by simp [hcL], by simp [hcS]⟩
  have hagree : Agree (Resembles sp cL.maxDepth r) (past cL t) (past cS (pruneRoot sp r initial t))
      (Stage.root (8 * ((t.events ++ rest).toArray.size + 1)) ctx.ignoring r initial cL)
      (Stage.root (8 * (((pruneRoot sp r initial t).events ++ rest).toArray.size + 1)) ctx r
        initial cS) :=
    root_skips hsp hr h (by simp [hcL, Cursor.remaining]; omega)
      (by simp [hcS, Cursor.remaining]; omega)
  rcases hL : Stage.root _ ctx.ignoring r initial cL with ⟨a, x⟩ | ⟨err, x⟩ <;>
    rcases hS : Stage.root _ ctx r initial cS with ⟨b, y⟩ | ⟨err', y⟩ <;>
    rw [hL, hS] at hagree <;> simp only [Agree] at hagree
  · -- both staged the root: what trails it is the same on both sides
    obtain ⟨hab, rfl, rfl⟩ := hagree
    dsimp only
    rw [Stage.finish_closed ctx (c := past cL t) rfl,
      Stage.finish_closed ctx (c := past cS (pruneRoot sp r initial t)) rfl]
    by_cases hrest : 0 < rest.length
    · simp [past, hcL, hcS, hrest, ReadAlike]
    · simpa [past, hcL, hcS, hrest, ReadAlike] using hab
  · simp [ReadAlike, hagree]

end Lenient

end GraphViews

import Mathlib
import GraphViews.Proofs.Generation
import GraphViews.Proofs.Nesting
import GraphViews.Proofs.Atomicity
/-!
# Discriminators resolve among the candidates only

A discriminator writes the class of the object's own type, but reading it back resolves the
class among the candidates of the container only: the container's type and the types of its
subtype branches. An object whose type is classified like none of them, a subtype of the
container that no branch names for instance, cannot be read back.

# Main statements

For a template whose object root lists its discriminator first, and an object whose type's
class matches no candidate:

* `own_view_undefined_discriminator`: applying the object's own view to the object fails with
  an undefined discriminator (`V008`) and leaves the run as it was;
* `copy_from_own_view_undefined_discriminator`: applying the same view to a new object fails
  the same way.

# How the proofs go

`Generate.discriminated_view_prefix` gives the first two events of the view: the object's
begin and the discriminator. Reading them, the root object takes the begin, the body peeks
the discriminator, routes it to the first child (`route_first`) and resolves its class among
the candidates, which fails (`Stage.discriminator_undefined`). The reading phase fails, so
the application fails before it writes anything.
-/

namespace GraphViews

-- ============================================================ reading steps

namespace Stage

variable {ctx : Context} {c : Cursor} {e : Event}

/-- Peeking leaves the cursor where it is. -/
theorem peek_some (context : String) (he : c.peek = some e) :
    Stage.peek ctx context c = .ok e c := by
  simp [Stage.peek, he, bind, EStateM.bind, get, getThe, MonadStateOf.get, EStateM.get, pure,
    EStateM.pure]

/-- Reading succeeds as the stream step does. -/
theorem read_ok {α : Type} {r : Reading α} {a : α} {c' : Cursor} (h : r.run c = .ok a c') :
    Stage.read ctx r c = .ok a c' := by
  simp only [Stage.read]
  rw [show r c = r.run c from rfl, h]

theorem next_ok (ctx : Context) (context : String) {c' : Cursor}
    (h : (Reading.next context).run c = .ok e c') : Stage.next ctx context c = .ok e c' :=
  read_ok h

/-- The root of a template read as a given object type is that object. -/
theorem root_object {fuel : Nat} {r : Node} {t : ModelType} (hk : r.kind = .object) :
    Stage.root fuel ctx r (some t) = object fuel (ctx.push { modelType := r.modelType }) r t := by
  simp [Stage.root, hk]

/-- A discriminator whose class matches no candidate is undefined. -/
theorem discriminator_undefined (ctx : Context) {d : Node} {candidates : List ModelType}
    {strat : Strategy} (he : c.peek = some e) (hk : e.kind = .discriminator) (hs : d.info.discriminator = some strat)
    (hnone : candidates.filter (fun t => strat.classify t == e.value.getD .null) = []) :
    ∃ c', Stage.discriminator ctx d candidates c =
      .error (ctx.error (.undefinedDiscriminator ((candidates.head?.map (·.name)).getD "")
        (e.value.getD .null).text)) c' := by
  have hnext := next_ok ctx "DISCRIMINATOR"
    (Reading.next_leaf "DISCRIMINATOR" he (by simp [hk, EventKind.isBegin])
      (by simp [hk, EventKind.isEnd]))
  refine ⟨{ c with pos := c.pos + 1 }, ?_⟩
  simp [Stage.discriminator, hnext, hk, hs, Strategy.resolve, hnone, bind, EStateM.bind,
    Stage.fail, throw, throwThe, MonadExceptOf.throw, EStateM.throw]

/-- A failing discriminator read first fails the body. -/
theorem body_discriminator_error (fuel : Nat) (entity : Entity) {n d : Node} {nm : String}
    {err : ViewError} {c' : Cursor} (he : c.peek = some e) (hend : e.kind.isEnd = false)
    (hn : e.name = some nm) (hr : n.route? nm (c.effectiveNamespace e) entity.type = some d)
    (hk : d.kind = .discriminator)
    (hd : discriminator (ctx.push (Frame.named d.name d.modelType)) d n.candidates c =
      .error err c') :
    body (fuel + 1) ctx n entity c = .error err c' := by
  simp [Stage.body, peek_some _ he, hend, hn, hr, hk, hd, bind, EStateM.bind, get, getThe,
    MonadStateOf.get, EStateM.get]

/-- An object fails as the body after its begin event fails. -/
theorem object_begin_error {fuel : Nat} {n : Node} {t : ModelType} {err : ViewError}
    {c' : Cursor} (he : c.peek = some e) (hk : e.kind = .beginObject)
    (hroom : c.stack.length < c.maxDepth)
    (hb : body fuel ctx n ⟨t, []⟩
      { c with pos := c.pos + 1, stack := (e.kind, c.effectiveNamespace e) :: c.stack } =
      .error err c') :
    object (fuel + 1) ctx n t c = .error err c' := by
  have hnext := next_ok ctx "BEGIN_OBJECT"
    (Reading.next_begin "BEGIN_OBJECT" he (by simp [hk, EventKind.isBegin]) hroom)
  rw [hk] at hb
  simp [Stage.object, hnext, hk, hb, bind, EStateM.bind, Functor.map, EStateM.map]

end Stage

namespace Node

/-- The first candidate of a typed node is its own type. -/
theorem candidates_of_modelType {n : Node} {T : ModelType} (h : n.modelType = some T) :
    n.candidates = T :: candidates.candidatesOf n.children := by
  cases n
  simp_all [candidates, Node.modelType]

theorem routes_eq (n : Node) : n.routes = routes.routesOf n.children := by
  cases n
  rfl

/-- A named child that comes first and is no branch takes its name, in its namespace. -/
theorem route_first {n d : Node} {rest : List Node} {nm : String} {ns : Option String}
    {t : ModelType} (hc : n.children = d :: rest) (hk : d.kind ≠ .subtype) (hn : d.name = some nm)
    (hns : d.info.ns.isNone = true ∨ d.info.ns = ns) : n.route? nm ns t = some d := by
  have hsub : (d.kind == .subtype) = false := by simpa using hk
  simp only [route?, routes_eq, hc, routes.routesOf, hsub, Bool.false_eq_true, if_false]
  rcases hns with hns | hns
  · simp [hn, hns]
  · simp [hn, hns]

end Node

-- ============================================================ the reading phase

/-- The first two events of a view. -/
theorem getElem?_of_prefix {V : View} {a b : Event} (h : [a, b] <+: V.toList) :
    V[0]? = some a ∧ V[1]? = some b := by
  obtain ⟨r, hr⟩ := h
  simp only [← Array.getElem?_toList, ← hr]
  exact ⟨rfl, rfl⟩

/-- A view that opens an object with a discriminator whose class matches none of the root's
candidates is not read through, whatever type the root is read as. -/
theorem readView_undefined_discriminator {ctx : Context} {root d : Node} {rest : List Node}
    {nm : String} {strat : Strategy} {v : Scalar} {V : View}
    (hk : root.kind = .object) (hc : root.children = d :: rest) (hdk : d.kind = .discriminator)
    (hn : d.name = some nm) (hs : d.info.discriminator = some strat)
    (hroom : 0 < ctx.options.maxDepth)
    (hpre : [⟨.beginObject, root.name, root.info.ns, none⟩,
      Generate.nodeEvent d .discriminator (some v)] <+: V.toList)
    (hnone : root.candidates.filter (fun c => strat.classify c == v) = []) :
    ∃ err, (∀ t, readView ctx root (some t) V = .error err) ∧
      err.kind = .undefinedDiscriminator ((root.candidates.head?.map (·.name)).getD "") v.text := by
  refine ⟨((ctx.push { modelType := root.modelType }).push (Frame.named d.name d.modelType)).error
    (.undefinedDiscriminator ((root.candidates.head?.map (·.name)).getD "") v.text),
    fun t => ?_, rfl⟩
  obtain ⟨f, hf⟩ : ∃ f, 8 * (V.size + 1) = f + 2 := ⟨8 * (V.size + 1) - 2, by omega⟩
  obtain ⟨h₀, h₁⟩ := getElem?_of_prefix hpre
  -- the cursor before and after the begin event
  let c₀ : Cursor := { events := V, maxDepth := ctx.options.maxDepth }
  let b : Event := ⟨.beginObject, root.name, root.info.ns, none⟩
  let c₁ : Cursor :=
    { c₀ with pos := c₀.pos + 1, stack := (b.kind, c₀.effectiveNamespace b) :: c₀.stack }
  have hp₀ : c₀.peek = some b := h₀
  have hp₁ : c₁.peek = some (Generate.nodeEvent d .discriminator (some v)) := h₁
  -- the discriminator is routed to the first child, in its own namespace
  have hroute : root.route? nm (c₁.effectiveNamespace (Generate.nodeEvent d .discriminator (some v)))
      t = some d := by
    refine Node.route_first hc (by simp [hdk]) hn ?_
    cases hns : d.info.ns with
    | none => exact Or.inl rfl
    | some x => exact Or.inr (by simp [Cursor.effectiveNamespace, Generate.nodeEvent, hns])
  obtain ⟨c', hdisc⟩ := Stage.discriminator_undefined
    ((ctx.push { modelType := root.modelType }).push (Frame.named d.name d.modelType))
    hp₁ rfl hs hnone
  have hbody := Stage.body_discriminator_error f ⟨t, []⟩ hp₁
    (by simp [Generate.nodeEvent, EventKind.isEnd]) hn hroute hdk hdisc
  have hobj := Stage.object_begin_error hp₀ rfl (by simpa [c₀] using hroom) hbody
  simp only [readView, hf, Stage.root_object hk]
  rw [hobj]
  rfl

-- ============================================================ two discriminated templates

namespace Sample

/-- A base type `A` and its subtype `C`, which no branch names. -/
def baseType : ModelType := { name := "A", props := [.field "name" (.scalar .string)] }

def unnamedSubtype : ModelType :=
  { name := "C", supertype := some baseType, props := [.field "extra" (.scalar .string)] }

/-- A template for `A` that lists a discriminator, then the name, and has no branches. -/
def discriminatedTemplate : Template :=
  (((Builder.forObject baseType).discriminator).value "name").build.toOption.getD default

/-- One object of type `C`, named `n`. -/
def unnamedSubtypeStore : Store :=
  let (st, h) := ({} : Store).newObject unnamedSubtype
  st.setField h "name" (.scalar (.string "n"))

/-- The view of that object. -/
def unnamedSubtypeView : View :=
  #[⟨.beginObject, none, none, none⟩, ⟨.discriminator, some "type", none, some (.string "C")⟩,
    ⟨.value, some "name", none, some (.string "n")⟩, Event.endObject]

/-- Shapes with a branch for squares; circles are shapes too, with no branch. -/
def shapeType : ModelType := { name := "Shape", props := [.field "name" (.scalar .string)] }

def squareType : ModelType :=
  { name := "Square", supertype := some shapeType, props := [.field "side" (.scalar .float)] }

def circleType : ModelType :=
  { name := "Circle", supertype := some shapeType, props := [.field "radius" (.scalar .float)] }

/-- A template for shapes: a discriminator, the name, and the side of squares. -/
def shapeTemplate : Template :=
  ((((Builder.forObject shapeType).discriminator).value "name").subtype squareType |>.value "side"
    |>.close).build.toOption.getD default

/-- One circle, named `c`. -/
def circleStore : Store :=
  let (st, h) := ({} : Store).newObject circleType
  st.setField h "name" (.scalar (.string "c"))

/-- The view of that circle. -/
def circleView : View :=
  #[⟨.beginObject, none, none, none⟩, ⟨.discriminator, some "type", none, some (.string "Circle")⟩,
    ⟨.value, some "name", none, some (.string "c")⟩, Event.endObject]

end Sample

-- ============================================================ applying the own view

section OwnView

/-- A template whose object root, of type `T`, reads its model as it is and lists first a named
discriminator `d` with the strategy `strat`. -/
structure DiscriminatorFirst (t : Template) (T : ModelType) (d : Node) (strat : Strategy) :
    Prop where
  kind : t.root.kind = .object
  modelType : t.root.modelType = some T
  accessor : ∃ dt, t.root.accessor = some (.root dt)
  first : ∃ rest, t.root.children = d :: rest
  discriminator : d.kind = .discriminator
  named : ∃ nm, d.name = some nm
  strategy : d.info.discriminator = some strat

namespace Sample

/-- The shape template lists its discriminator first. -/
theorem shape_discriminatorFirst :
    DiscriminatorFirst shapeTemplate shapeType (shapeTemplate.root.children.headD default)
      .simple :=
  ⟨by cbv, by cbv, ⟨.object, by cbv⟩, ⟨shapeTemplate.root.children.tail, by cbv⟩, by cbv,
    ⟨"type", by cbv⟩, by cbv⟩

theorem circle_generate :
    shapeTemplate.generate {} (.object 0) { store := circleStore } =
      .ok circleView { store := circleStore } := by
  cbv

theorem unnamedSubtype_generate :
    discriminatedTemplate.generate {} (.object 0) { store := unnamedSubtypeStore } =
      .ok unnamedSubtypeView { store := unnamedSubtypeStore } := by
  cbv

end Sample

variable {t : Template} {ctx : Context} {hd : Handle} {s s' : RunState} {V : View} {d : Node}
  {strat : Strategy} {T : ModelType}

/-- The reading phase of the object's own view fails on the discriminator, whatever type the
root is read as. -/
theorem own_view_unread (hl : ctx.listeners = []) (ht : DiscriminatorFirst t T d strat)
    (hnone : ∀ c ∈ t.root.candidates,
      (strat.classify c == strat.classify (s.store.typeOf hd)) = false)
    (hgen : t.generate ctx (.object hd) s = .ok V s') :
    ∃ err, (∀ u, readView ctx t.root (some u) V = .error err) ∧
      err.kind = .undefinedDiscriminator T.name (strat.classify (s.store.typeOf hd)).text := by
  obtain ⟨hk, hty, ⟨dt, hacc⟩, ⟨rest, hc⟩, hdk, ⟨nm, hn⟩, hs⟩ := ht
  obtain ⟨hroom, hpre⟩ := Generate.discriminated_view_prefix hl hk hacc hc hdk hs hgen
  have hfilter : t.root.candidates.filter
      (fun c => strat.classify c == strat.classify (s.store.typeOf hd)) = [] :=
    List.filter_eq_nil_iff.mpr fun c hc => by simp [hnone c hc]
  obtain ⟨err, hread, hkind⟩ := readView_undefined_discriminator hk hc hdk hn hs hroom hpre hfilter
  refine ⟨err, hread, ?_⟩
  rw [hkind, Node.candidates_of_modelType hty]
  rfl

/-- An object whose type is classified like none of the candidates of a discriminated root
cannot take its own view back: applying the view generated from it to it fails with an
undefined discriminator, before anything is written. -/
theorem own_view_undefined_discriminator (hl : ctx.listeners = [])
    (ht : DiscriminatorFirst t T d strat)
    (hnone : ∀ c ∈ t.root.candidates,
      (strat.classify c == strat.classify (s.store.typeOf hd)) = false)
    (hgen : t.generate ctx (.object hd) s = .ok V s') :
    ∃ err, t.apply ctx V (.object hd) s' = .error err s' ∧
      err.kind = .undefinedDiscriminator T.name (strat.classify (s.store.typeOf hd)).text := by
  obtain ⟨err, hread, hkind⟩ := own_view_unread hl ht hnone hgen
  refine ⟨err, Template.apply_read_error ?_, hkind⟩
  simp only [Apply.initialType, ht.modelType, Option.map_some, hread]

theorem circle_view_unread :
    Sample.shapeTemplate.generate {} (.object 0) { store := Sample.circleStore } =
      .ok Sample.circleView { store := Sample.circleStore } ∧
    ∃ err, Sample.shapeTemplate.apply {} Sample.circleView (.object 0) { store := Sample.circleStore } =
      .error err { store := Sample.circleStore } ∧ err.kind = .undefinedDiscriminator "Shape" "Circle" := by
  obtain ⟨err, happly, hkind⟩ :=
    own_view_undefined_discriminator rfl Sample.shape_discriminatorFirst (by decide +kernel)
      Sample.circle_generate
  refine ⟨Sample.circle_generate, err, happly, ?_⟩
  rw [hkind]
  cbv

/-- The object of type `C` does not take its own view back. -/
theorem subtype_own_view_refused :
    Sample.discriminatedTemplate.generate {} (.object 0) { store := Sample.unnamedSubtypeStore } =
      .ok Sample.unnamedSubtypeView { store := Sample.unnamedSubtypeStore } ∧
    match Sample.discriminatedTemplate.apply {} Sample.unnamedSubtypeView (.object 0)
        { store := Sample.unnamedSubtypeStore } with
    | .error e _ => e.kind = .undefinedDiscriminator "A" "C"
    | .ok _ _ => False := by
  refine ⟨Sample.unnamedSubtype_generate, ?_⟩
  cbv

/-- Nor can such an object be copied through its view: applying the view to a new object
fails the same way, before the object is made. -/
theorem copy_from_own_view_undefined_discriminator (hl : ctx.listeners = [])
    (ht : DiscriminatorFirst t T d strat)
    (hnone : ∀ c ∈ t.root.candidates,
      (strat.classify c == strat.classify (s.store.typeOf hd)) = false)
    (hgen : t.generate ctx (.object hd) s = .ok V s') :
    ∃ err, t.applyNew ctx V s' = .error err s' ∧
      err.kind = .undefinedDiscriminator T.name (strat.classify (s.store.typeOf hd)).text := by
  obtain ⟨err, hread, hkind⟩ := own_view_unread hl ht hnone hgen
  refine ⟨err, Template.applyNew_read_error ?_, hkind⟩
  rw [ht.modelType]
  exact hread T

theorem circle_copy_unread :
    Sample.shapeTemplate.generate {} (.object 0) { store := Sample.circleStore } =
      .ok Sample.circleView { store := Sample.circleStore } ∧
    ∃ err, Sample.shapeTemplate.applyNew {} Sample.circleView { store := Sample.circleStore } =
      .error err { store := Sample.circleStore } ∧ err.kind = .undefinedDiscriminator "Shape" "Circle" := by
  obtain ⟨err, happly, hkind⟩ :=
    copy_from_own_view_undefined_discriminator rfl Sample.shape_discriminatorFirst
      (by decide +kernel) Sample.circle_generate
  refine ⟨Sample.circle_generate, err, happly, ?_⟩
  rw [hkind]
  cbv

/-- The object of type `C` cannot be copied through its own view. -/
theorem subtype_copy_refused :
    Sample.discriminatedTemplate.generate {} (.object 0) { store := Sample.unnamedSubtypeStore } =
      .ok Sample.unnamedSubtypeView { store := Sample.unnamedSubtypeStore } ∧
    match Sample.discriminatedTemplate.applyNew {} Sample.unnamedSubtypeView { store := Sample.unnamedSubtypeStore } with
    | .error e _ => e.kind = .undefinedDiscriminator "A" "C"
    | .ok _ _ => False := by
  refine ⟨Sample.unnamedSubtype_generate, ?_⟩
  cbv

end OwnView

end GraphViews

import Mathlib
import GraphViews.Proofs.FailureFamilies
import GraphViews.Template.Validate
/-!
# Failed applications are atomic, for templates that write directly

Applying a view has two phases. The view is first read: staged against the template and
then checked to be closed. Staging runs over the cursor alone, so this phase cannot touch the
run state: `readView` is the reading phase on its own, and `apply_reads_before_writing` says
that an application is `readView` followed by injection. Injection writes as it goes.

The main statement, `apply_fails_atomically`, says that an application that fails with a
malformed stream, an unknown property or a refused conversion leaves every part of the run
state as it was (store, notices, labels, log, journal and counters) when the template writes
directly (`Node.direct`): no accessor of its nodes converts or coerces, and no node splices a
template in. Those are the places where injection can raise such a failure: a node
converter runs when a value is written through its accessor, a coercion when a text is read
or written as an array, and a spliced template is read while the outer injection is under way.
An error raised there comes after the earlier properties were written, and those writes stay:
`converter_refusal_keeps_earlier_write` shows a conversion failure (`V004`) after which the
first property already holds the view's value.

# How the proof goes

The functions of injection call one another with one unit of fuel less, so one induction on
the fuel covers them all. `Apply.InjectionEnds fuel` says that each of them fails on a direct
tree only with errors of writing; one lemma per function proves it at `fuel + 1` from `fuel`,
following the function's `do` block with the lemmas of `FailureFamilies`. A failure of a
reading family is then a failure of the reading phase, which leaves the state as it was.
-/

namespace GraphViews

/-- The reading phase of an application: the view staged against the root node, read as
`initial` when it is given, then checked to be closed. -/
def readView (ctx : Context) (root : Node) (initial : Option ModelType) (view : View) :
    Except ViewError Staged :=
  match Stage.root (8 * (view.size + 1)) ctx root initial
      { events := view, maxDepth := ctx.options.maxDepth } with
  | .error e _ => .error e
  | .ok staged c =>
    match Stage.read ctx Reading.finish c with
    | .error e _ => .error e
    | .ok _ _ => .ok staged

namespace Apply

/-- A staging step inside a run leaves the run state as it is, on success and on failure. -/
theorem staging_run {α : Type} (m : Stage α) (c : Cursor) (s : RunState) :
    staging m c s = match m c with
      | .ok a c' => .ok (a, c') s
      | .error e _ => .error e s := rfl

/-- One application with fuel: the view is read, and only a view that was read through is
injected. -/
theorem template_succ (n : Nat) (ctx : Context) (root : Node) (view : View) (target : Value)
    (s : RunState) :
    template (n + 1) ctx root view target s =
      match readView ctx root (initialType s.store root target) view with
      | .error e => .error e s
      | .ok staged => injectRoot n ctx root staged target s := by
  simp only [template, readView, bind, EStateM.bind, Run.store, get, getThe, MonadStateOf.get,
    EStateM.get, pure, EStateM.pure, staging_run]
  cases hstage : Stage.root (8 * (view.size + 1)) ctx root (initialType s.store root target)
      { events := view, maxDepth := ctx.options.maxDepth } with
  | error e c => rfl
  | ok staged c =>
    cases hfinish : Stage.read ctx Reading.finish c with
    | error e c' => simp only [hfinish]
    | ok u c' => simp only [hfinish]

end Apply

/-- An application always has fuel for its reading phase. -/
theorem Template.applyFuel_succ (t : Template) (view : View) :
    t.applyFuel view = (t.applyFuel view - 1) + 1 := by
  simp only [Template.applyFuel]
  omega

/-- Applying a view reads it through before it writes anything: a failure of the reading
phase is the application's failure, with the run state untouched, and a view that was read
through is injected from the state the application started in. -/
theorem apply_reads_before_writing (t : Template) (ctx : Context) (view : View) (target : Value)
    (s : RunState) :
    t.apply ctx view target s =
      match readView ctx t.root (Apply.initialType s.store t.root target) view with
      | .error e => .error e s
      | .ok staged => Apply.injectRoot (t.applyFuel view - 1) ctx t.root staged target s := by
  rw [Template.apply, Template.applyFuel_succ, Apply.template_succ]
  simp only [Nat.add_sub_cancel]

/-- A failure of the reading phase is the application's failure, with the run state
untouched. -/
theorem Template.apply_read_error {t : Template} {ctx : Context} {view : View} {target : Value}
    {s : RunState} {err : ViewError}
    (h : readView ctx t.root (Apply.initialType s.store t.root target) view = .error err) :
    t.apply ctx view target s = .error err s := by
  rw [Template.apply, Template.applyFuel_succ, Apply.template_succ, h]

/-- Applying a view to a new target reads it through first too: a failure of the reading
phase is the application's failure, before any object is made. -/
theorem Template.applyNew_read_error {t : Template} {ctx : Context} {view : View}
    {s : RunState} {err : ViewError} (h : readView ctx t.root t.root.modelType view = .error err) :
    t.applyNew ctx view s = .error err s := by
  simp only [readView] at h
  simp only [Template.applyNew, bind, EStateM.bind, Apply.staging_run]
  cases hstage : Stage.root (8 * (view.size + 1)) ctx t.root t.root.modelType
      { events := view, maxDepth := ctx.options.maxDepth } with
  | error e c =>
    simp only [hstage] at h
    cases h
    rfl
  | ok staged c =>
    cases hfinish : Stage.read ctx Reading.finish c with
    | error e c' =>
      simp only [hstage, hfinish] at h
      cases h
      simp only [hfinish]
    | ok u c' =>
      simp only [hstage, hfinish, reduceCtorEq] at h

-- ============================================================ injection

/-- A tree that writes without converting: no accessor of its nodes converts or coerces, and no
node splices a template in. -/
def Node.direct : Node → Bool
  | ⟨info, children, splice⟩ =>
    splice.isNone && info.accessor.all Accessor.plain && info.multi.all (·.accessor.plain) &&
      directAll children
where
  directAll : List Node → Bool
    | [] => true
    | c :: cs => direct c && directAll cs

theorem Node.direct_iff (n : Node) :
    n.direct = true ↔ n.splice = none ∧ (∀ a ∈ n.accessor, a.plain = true) ∧
      (∀ m ∈ n.multi, m.accessor.plain = true) ∧ ∀ c ∈ n.children, c.direct = true := by
  have hall : ∀ cs : List Node, direct.directAll cs = true ↔ ∀ c ∈ cs, c.direct = true := by
    intro cs
    induction cs with
    | nil => simp [direct.directAll]
    | cons c cs ih => simp [direct.directAll, ih]
  obtain ⟨info, children, splice⟩ := n
  cases splice <;> simp [direct, hall, Node.accessor, Node.multi, Option.all_eq_true, and_assoc]

namespace Node

variable {n : Node} (hn : n.direct = true)
include hn

theorem direct_accessor : ∀ a ∈ n.accessor, a.plain = true := ((direct_iff n).mp hn).2.1

theorem direct_multi : ∀ m ∈ n.multi, m.accessor.plain = true := ((direct_iff n).mp hn).2.2.1

theorem direct_child {c : Node} (hc : c ∈ n.children) : c.direct = true :=
  ((direct_iff n).mp hn).2.2.2 c hc

theorem direct_splice : n.splice = none := ((direct_iff n).mp hn).1

theorem direct_manager (ctx : Context) (d : Descriptor) :
    Ends ViewError.Writing Manager.Plain (n.manager ctx d) :=
  Node.manager_ends (direct_accessor hn) (direct_multi hn) ctx d

end Node

namespace Apply

variable {ctx : Context} {n : Node} {model : Value}

theorem exhausted_raises {α : Type} {Q : α → Prop} : Ends ViewError.Writing Q (exhausted ctx : Run α) :=
  Run.fail_raises (by simp [ViewErrorKind.code, ErrorCode.IsReading])

theorem mismatch_raises {α : Type} {Q : α → Prop} (expected found : String) :
    Ends ViewError.Writing Q (mismatch ctx expected found : Run α) :=
  Run.fail_raises (by simp [ViewErrorKind.code, ErrorCode.IsReading])

theorem descriptor_raises : Raises ViewError.Writing (descriptor ctx n model) := by
  unfold descriptor
  split
  · exact Ends.seq Run.store_raises fun _ => Ends.pure trivial
  · exact mismatch_raises _ _

theorem multiOf_ends (hm : ∀ m ∈ n.multi, m.accessor.plain = true) :
    Ends ViewError.Writing (fun m : Multi => m.accessor.plain = true) (multiOf ctx n) := by
  unfold multiOf
  split
  · exact Ends.pure (hm _ ‹_›)
  · exact Run.fail_raises (by simp [ViewErrorKind.code, ErrorCode.IsReading])

theorem replaceValues_raises (hm : ∀ m ∈ n.multi, m.accessor.plain = true) (xs : List Staged) :
    Raises ViewError.Writing (replaceValues ctx n model xs) := by
  unfold replaceValues
  refine Ends.bind (multiOf_ends hm) fun m hp => ?_
  have hmm := Multi.raisesNoConversion hp
  refine Ends.seq (Run.access_raises (hmm.clear _)) fun _ => ?_
  refine Ends.seq (Ends.forIn (fun staged _ => ?_) _ _) fun _ => Ends.pure trivial
  repeat' first
    | exact Ends.pure trivial
    | exact Run.access_raises (hmm.add _ _)
    | refine Ends.ite (fun _ => ?_) (fun _ => ?_)
    | refine Ends.seq ?_ fun _ => ?_
    | split

theorem consume_raises (h : MetaHandler) (s : Store) (v : Scalar) :
    Raises ViewError.Writing (Run.lift ctx (h.consume s model v)) := by
  unfold MetaHandler.consume
  split
  · exact Run.fail_raises (by simp [ViewErrorKind.code, ErrorCode.IsReading])
  · exact Ends.pure trivial
  · exact Ends.pure trivial

/-- Every function of injection, at one fuel, fails on a direct tree only with errors of
writing. -/
structure InjectionEnds (fuel : Nat) : Prop where
  reconciler : ∀ {n : Node}, n.direct = true → (reconciler fuel n).InjectsWriting
  inject : ∀ {ctx n e h}, n.direct = true → Raises ViewError.Writing (inject fuel ctx n e h)
  children : ∀ {ctx n e model}, n.direct = true → Raises ViewError.Writing (children fuel ctx n e model)
  into : ∀ {ctx n e model}, n.direct = true → Raises ViewError.Writing (into fuel ctx n e model)
  staged : ∀ {ctx n staged model}, n.direct = true →
    Raises ViewError.Writing (staged_ fuel ctx n staged model)
  elements : ∀ {ctx n model d xs}, n.direct = true →
    Raises ViewError.Writing (elements fuel ctx n model d xs)

theorem injectionEnds_zero : InjectionEnds 0 where
  reconciler _ _ _ _ := exhausted_raises
  inject _ := exhausted_raises
  children _ := exhausted_raises
  into _ := exhausted_raises
  staged _ := exhausted_raises
  elements _ := exhausted_raises

section Steps

variable {fuel : Nat} (ih : InjectionEnds fuel)
include ih

theorem children_raises (hn : n.direct = true) (e : Entity) :
    Raises ViewError.Writing (children (fuel + 1) ctx n e model) :=
  Ends.foldlM (fun _ _ hc _ => ih.into (Node.direct_child hn hc)) trivial

theorem inject_raises (hn : n.direct = true) (e : Entity) (h : Handle) :
    Raises ViewError.Writing (inject (fuel + 1) ctx n e h) :=
  Ends.seq (ih.children hn) fun _ => Ends.pure trivial

theorem into_raises (hn : n.direct = true) (e : Entity) :
    Raises ViewError.Writing (into (fuel + 1) ctx n e model) := by
  unfold into
  repeat' first
    | exact Ends.pure trivial
    | exact Run.store_raises
    | exact ih.children hn
    | exact ih.staged hn
    | exact Context.shouldVisit_raises _ _
    | exact Context.nodeVisited_raises _ _
    | refine Ends.ite (fun _ => ?_) (fun _ => ?_)
    | refine Ends.seq ?_ fun _ => ?_
    | split

theorem elements_raises (hn : n.direct = true) (d : Descriptor) (xs : List Staged) :
    Raises ViewError.Writing (elements (fuel + 1) ctx n model d xs) := by
  unfold elements
  refine Ends.bind (Node.direct_manager hn _ _) fun m hp => ?_
  split
  · exact Reconciler.ordered_raises (ih.reconciler hn) (Manager.raisesWriting hp) _
  · exact Reconciler.unordered_raises (ih.reconciler hn) (Manager.raisesWriting hp) _
  · exact Run.fail_raises (by simp [ViewErrorKind.code, ErrorCode.IsReading])

theorem staged_raises (hn : n.direct = true) (st : Staged) :
    Raises ViewError.Writing (staged_ (fuel + 1) ctx n st model) := by
  unfold staged_
  repeat' first
    | exact Ends.pure trivial
    | exact Run.store_raises
    | exact Run.modifyStore_raises _
    | exact descriptor_raises
    | exact mismatch_raises _ _
    | exact consume_raises _ _ _
    | exact Run.access_raises (Accessor.set_raises (Node.direct_accessor hn _ ‹_›) _ _)
    | exact Run.fail_raises (by simp [ViewErrorKind.code, ErrorCode.IsReading])
    | exact ih.children hn
    | exact ih.elements hn
    | exact replaceValues_raises (Node.direct_multi hn) _
    | exact Reconciler.toOne_raises (ih.reconciler hn) (Manager.raisesWriting ‹_›) _
    | exact Reconciler.keyed_raises (ih.reconciler hn) (Manager.raisesWriting ‹_›) _
    | exact Run.access_raises ((Multi.raisesNoConversion ‹_›).clear _)
    | exact Run.access_raises ((Multi.raisesNoConversion ‹_›).put _ _ _)
    | refine Ends.bind (Node.direct_manager hn _ _) fun _ _ => ?_
    | refine Ends.bind (multiOf_ends (Node.direct_multi hn)) fun _ _ => ?_
    | refine Ends.forIn (fun _ _ => ?_) _ _
    | refine Ends.ite (fun _ => ?_) (fun _ => ?_)
    | refine Ends.seq ?_ fun _ => ?_
    | exact absurd ‹n.splice = some _› (by simp [Node.direct_splice hn])
    | split

end Steps

theorem injectionEnds_succ {fuel : Nat} (ih : InjectionEnds fuel) : InjectionEnds (fuel + 1) where
  reconciler hn _ _ _ := ih.inject hn
  inject hn := inject_raises ih hn _ _
  children hn := children_raises ih hn _
  into hn := into_raises ih hn _
  staged hn := staged_raises ih hn _
  elements hn := elements_raises ih hn _ _

theorem injectionEnds : ∀ fuel, InjectionEnds fuel
  | 0 => injectionEnds_zero
  | fuel + 1 => injectionEnds_succ (injectionEnds fuel)

/-- Injecting into a direct tree fails only with errors of writing. -/
theorem injectRoot_raises (hn : n.direct = true) (staged : Staged) (target : Value) :
    ∀ fuel, Raises ViewError.Writing (injectRoot fuel ctx n staged target)
  | 0 => exhausted_raises
  | fuel + 1 => by
    unfold injectRoot
    repeat' first
      | exact Ends.pure trivial
      | exact Run.store_raises
      | exact mismatch_raises _ _
      | exact (injectionEnds fuel).inject hn
      | exact (injectionEnds fuel).elements hn
      | exact replaceValues_raises (Node.direct_multi hn) _
      | exact Context.nodeVisited_raises _ _
      | refine Ends.ite (fun _ => ?_) (fun _ => ?_)
      | refine Ends.seq ?_ fun _ => ?_
      | split


end Apply

-- ============================================================ items

namespace Sample

/-- Items with a name and a quantity. -/
def itemType : ModelType :=
  { name := "Item", props := [.field "name" (.scalar .string), .field "qty" (.scalar .int)] }

/-- A template for items whose quantity goes through a converter that refuses every value. -/
def refusingBuilder : Builder :=
  ((Builder.forObject itemType).value "name").value "qty" |>.converter .refuse

/-- A store holding one item, named `a`, with quantity one. -/
def itemStore : Store :=
  let (st, h) := ({} : Store).newObject itemType
  (st.setField h "name" (.scalar (.string "a"))).setField h "qty" (.scalar (.int 1))

/-- The item template with a plain quantity. -/
def namedItems : Template :=
  match (((Builder.forObject itemType).value "name").value "qty").build with
  | .ok t => t
  | .error _ => default

/-- A view that renames the item and gives it a colour, which items do not have. -/
def colourView : View :=
  #[Event.beginObject none, Event.valueOf (some "name") none (.string "b"),
    Event.valueOf (some "colour") none (.string "red"), Event.endObject]

/-- A view that renames the item to `b` and sets its quantity to two. -/
def renamingView : View :=
  #[Event.beginObject none, Event.valueOf (some "name") none (.string "b"),
    Event.valueOf (some "qty") none (.int 2), Event.endObject]

end Sample

-- ============================================================ atomic failures

/-- **Failed application is atomic**, for templates that write directly: when no node's
accessor converts or coerces and no node splices a template in, an application that fails with
a malformed stream, an unknown property or a refused conversion leaves the run state as it
was: every object, list, set and map of the store, the notices the listeners were given, and
the rest. Such a failure can only come from reading the view, since injecting into a direct
tree fails only with errors of other families. -/
theorem apply_fails_atomically {t : Template} (ht : t.root.direct = true) {ctx : Context}
    {view : View} {target : Value} {s s' : RunState} {e : ViewError}
    (hfail : t.apply ctx view target s = .error e s') (hcode : e.kind.code.IsReading) : s' = s := by
  rw [apply_reads_before_writing] at hfail
  split at hfail
  · cases hfail
    rfl
  · exact absurd hcode ((Apply.injectRoot_raises ht _ _ _).error hfail)

theorem unknown_colour_keeps_item :
    ∃ e s', Sample.namedItems.root.direct = true ∧
      Sample.namedItems.apply {} Sample.colourView (.object 0) { store := Sample.itemStore } =
        .error e s' ∧ e.kind.code.IsReading ∧ s' = { store := Sample.itemStore } := by
  have hd : Sample.namedItems.root.direct = true := by decide +kernel
  have hrun : Sample.namedItems.apply {} Sample.colourView (.object 0) { store := Sample.itemStore } =
      .error ⟨.unknownProperty "colour", "/", ["Item"]⟩ { store := Sample.itemStore } := by
    cbv
  exact ⟨_, _, hd, hrun, by decide, apply_fails_atomically hd hrun (by decide)⟩

-- ============================================================ a failure after a write

/-- The quantity's converter refuses the value at injection, after the name was written:
the application fails with a conversion error and the item keeps its new name. -/
theorem converter_refusal_keeps_earlier_write :
    match Sample.refusingBuilder.build with
    | .ok t =>
      match t.apply {} Sample.renamingView (.object 0) { store := Sample.itemStore } with
      | .error e s =>
        e.kind.code = .conversion ∧ Sample.itemStore.field 0 "name" = .scalar (.string "a") ∧
          s.store.field 0 "name" = .scalar (.string "b")
      | .ok _ _ => False
    | .error _ => False := by
  cbv

end GraphViews

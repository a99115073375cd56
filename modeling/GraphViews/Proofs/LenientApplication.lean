import Mathlib
import GraphViews.Proofs.LenientReading
import GraphViews.Proofs.Repetition
/-!
Lenient application is strict application of the pruned view.

Reading a view with unknown properties ignored stages values that resemble those strict
reading stages from the pruned view (`lenient_reading_resembles_pruned_view`): the same, except
for spliced views, which the strict side holds pruned. Injection, the second phase of an
application, writes the staged values into the target. What a node writes depends on its
staged value only through what resembling values share, and a spliced view is applied with the
spliced template, leniently to the tree and strictly to its pruning: the same statement one
template down. The main statement, `lenient_application_applies_pruned_view`, says that the two
applications end alike from every state, with the same error or the same result, the same
models and the same notices. Past the nesting limit they part: lenient staging reads a skipped
tree event by event (`deep_unknown_property_fails_lenient_application`).

# How the proofs go

`InjectsAlike sp B fuel` states the result for the six injection functions at a lenient fuel,
for nodes no larger than `B`, the strict fuel being any that covers the node. Each function
needs eight units of fuel per node of its template and a few more, so that every call it makes
needs less; one step lemma per function proves the statement at `fuel + 1` from `fuel`, and
`injectsAlike` is the induction. Reconciliations are related through `Mirror`: reconcilers that
make new associates alike and inject entities that resemble alike. Entities that resemble have
the same type and scalars, so they are matched, resolved and journaled alike.

Spliced templates are taken level by level (`nestedAlike_pruneSpliced`): `pruneSpliced k`
prunes `k` spliced templates deep, and a template no larger than `k` applies alike at level `k`
because the templates spliced in it are smaller. A spliced root without a discriminator is
pruned alike whatever target it is applied to (`pruneRoot_initialType`), which is what lets the
pruning be made before the target is known.
-/

namespace GraphViews

namespace Node

theorem size_lt_of_mem_children {c n : Node} (h : c ∈ n.children) : c.size < n.size := by
  have := size_le_sizes h
  rw [size_eq n]
  omega

theorem size_lt_of_splice {n R : Node} {p : Option String} (h : n.splice = some (R, p)) :
    R.size < n.size := by
  rw [size_eq n, h]
  simp only [size.spliceSize]
  omega

/-- A node a route reaches is smaller than the node routed from. -/
theorem size_lt_of_mem_routes {c m : Node} {x : String} {g : Option ModelType}
    (hr : (x, m, g) ∈ c.routes) : m.size < c.size := by
  obtain ⟨b, hb, ⟨-, rfl, -, -⟩ | ⟨-, g', hr', -⟩⟩ := mem_routes.1 hr
  · exact size_lt_of_mem_children hb
  · exact (size_lt_of_mem_routes hr').trans (size_lt_of_mem_children hb)
termination_by sizeOf c
decreasing_by exact sizeOf_lt_of_mem_children hb

/-- The routes of `b` are routes of `N`: `b` is `N`, or a branch below it. -/
def RoutesWithin (b N : Node) : Prop :=
  ∀ x c g, (x, c, g) ∈ b.routes → ∃ g', (x, c, g') ∈ N.routes

theorem RoutesWithin.refl (N : Node) : RoutesWithin N N := fun _ _ g h => ⟨g, h⟩

/-- A branch child of a node within `N` is within `N`. -/
theorem RoutesWithin.branch {b c N : Node} (h : RoutesWithin b N) (hc : c ∈ b.children)
    (hk : c.kind = .subtype) : RoutesWithin c N := fun x m g hr =>
  h x m _ (mem_routes.2 ⟨c, hc, .inr ⟨hk, g, hr, rfl⟩⟩)

/-- A named child of a node within `N`, no branch, is a route of `N`. -/
theorem RoutesWithin.child {b c N : Node} (h : RoutesWithin b N) (hc : c ∈ b.children)
    (hk : c.kind ≠ .subtype) {x : String} (hx : c.name = some x) : ∃ g, (x, c, g) ∈ N.routes :=
  h x c none (mem_routes.2 ⟨c, hc, .inl ⟨hk, rfl, hx, rfl⟩⟩)

/-- Without a discriminator, routing does not look at the type. -/
theorem route?_undiscriminated {n : Node} (hd : n.discriminated = false) (x : String)
    (ns : Option String) (t t' : ModelType) : n.route? x ns t = n.route? x ns t' := by
  simp [route?, hd]

end Node

namespace Lenient

section Entities

variable {sp : Node → ViewTree → ViewTree} {D : Nat}

theorem Resembles.scalar?_eq {n : Node} {a b : Staged} (h : Resembles sp D n a b) :
    a.scalar? = b.scalar? := by
  cases h <;> rfl

theorem PropResembles.scalar?_eq {n : Node} {x : String} {a b : Staged}
    (h : PropResembles sp D n x a b) : a.scalar? = b.scalar? := by
  rcases h with ⟨c, -, hab⟩ | ⟨-, rfl⟩
  · exact hab.scalar?_eq
  · rfl

theorem PropsResemble.scalar?_eq (x : String) : ∀ {n : Node} {ps qs : List (String × Staged)},
    PropsResemble sp D n ps qs →
      ((ps.find? (·.1 == x)).map (·.2)).bind Staged.scalar? =
        ((qs.find? (·.1 == x)).map (·.2)).bind Staged.scalar?
  | _, _, _, .nil => rfl
  | _, _, _, .spliced (x := y) hc hab t => by
    by_cases hy : y = x
    · simp [hy, (PropResembles.scalar?_eq (.inl ⟨_, hc, hab⟩))]
    · simp [hy, PropsResemble.scalar?_eq x t]
  | _, _, _, .plain (x := y) _ t => by
    by_cases hy : y = x
    · simp [hy]
    · simp [hy, PropsResemble.scalar?_eq x t]

/-- Entities that resemble hold the same scalars. -/
theorem EntityResembles.scalar?_eq {n : Node} {e f : Entity} (h : EntityResembles sp D n e f)
    (x : String) : e.scalar? x = f.scalar? x := by
  simpa [Entity.scalar?, Entity.get?] using h.props.scalar?_eq x

theorem PropsResemble.length_eq {n : Node} {ps qs : List (String × Staged)}
    (h : PropsResemble sp D n ps qs) : ps.length = qs.length := by
  simpa using congrArg List.length h.names

theorem PropsResemble.isEmpty_eq {n : Node} {ps qs : List (String × Staged)}
    (h : PropsResemble sp D n ps qs) : ps.isEmpty = qs.isEmpty := by
  have hlen := h.length_eq
  cases ps <;> cases qs <;> simp_all

mutual

theorem Resembles.describeOne_eq : ∀ {n : Node} {a b : Staged}, Resembles sp D n a b →
    Entity.describe.describeOne a = Entity.describe.describeOne b
  | _, _, _, .value _ => rfl
  | _, _, _, .null => rfl
  | _, _, _, .unchanged => rfl
  | _, _, _, .metaValue _ => rfl
  | _, _, _, .entity h => by
    simp only [Entity.describe.describeOne, Entity.describe, PropsResemble.describeProps_eq h,
      h.length_eq, h.isEmpty_eq]
  -- the remaining shapes are described by their name alone
  | _, _, _, .elements _ | _, _, _, .entries _ | _, _, _, .spliced _ _ _ => by
    simp [Entity.describe.describeOne, Staged.shapeName]
  | _, _, _, .plainSpliced _ _ => rfl

theorem PropsResemble.describeProps_eq : ∀ {n : Node} {ps qs : List (String × Staged)},
    PropsResemble sp D n ps qs → Entity.describe.describeProps ps = Entity.describe.describeProps qs
  | _, _, _, .nil => rfl
  | _, _, _, .spliced _ hab t => by
    simp only [Entity.describe.describeProps, Resembles.describeOne_eq hab,
      PropsResemble.describeProps_eq t]
  | _, _, _, .plain _ t => by
    simp only [Entity.describe.describeProps, PropsResemble.describeProps_eq t]

end

/-- Entities that resemble are described alike in a journal. -/
theorem EntityResembles.describe_eq {n : Node} {e f : Entity} (h : EntityResembles sp D n e f) :
    e.describe = f.describe := by
  obtain ⟨t, ps⟩ := e
  obtain ⟨u, qs⟩ := f
  simp only [Entity.describe, h.props.describeProps_eq, h.props.length_eq, h.props.isEmpty_eq]

/-- Taking a property out of resembling property lists finds it at the same place, with values
that resemble, and leaves lists that resemble. -/
theorem PropsResemble.take (x : String) : ∀ {n : Node} {ps qs : List (String × Staged)},
    PropsResemble sp D n ps qs →
      ps.findIdx? (·.1 == x) = qs.findIdx? (·.1 == x) ∧
      ∀ i, ps.findIdx? (·.1 == x) = some i →
        (∃ a b, ps[i]? = some (x, a) ∧ qs[i]? = some (x, b) ∧ PropResembles sp D n x a b) ∧
          PropsResemble sp D n (ps.eraseIdx i) (qs.eraseIdx i)
  | _, _, _, .nil => by simp
  | _, _, _, .spliced (x := y) (a := a) (b := b) hc hab t => by
    obtain ⟨hidx, hat⟩ := PropsResemble.take x t
    by_cases hy : y = x
    · subst hy
      refine ⟨by simp [List.findIdx?_cons], fun i hi => ?_⟩
      simp only [List.findIdx?_cons, beq_self_eq_true, if_true, Option.some.injEq] at hi
      subst hi
      exact ⟨⟨a, b, rfl, rfl, .inl ⟨_, hc, hab⟩⟩, by simpa using t⟩
    · have hne : (y == x) = false := by simpa using hy
      refine ⟨by simp [List.findIdx?_cons, hne, hidx], fun i hi => ?_⟩
      simp only [List.findIdx?_cons, hne, Bool.false_eq_true, if_false, Option.map_eq_some_iff] at hi
      obtain ⟨j, hj, rfl⟩ := hi
      obtain ⟨⟨a', b', ha', hb', hab'⟩, hrest⟩ := hat j hj
      exact ⟨⟨a', b', by simpa using ha', by simpa using hb', hab'⟩, by
        simpa using PropsResemble.spliced hc hab hrest⟩
  | _, _, _, .plain (x := y) (a := a) hc t => by
    obtain ⟨hidx, hat⟩ := PropsResemble.take x t
    by_cases hy : y = x
    · subst hy
      refine ⟨by simp [List.findIdx?_cons], fun i hi => ?_⟩
      simp only [List.findIdx?_cons, beq_self_eq_true, if_true, Option.some.injEq] at hi
      subst hi
      exact ⟨⟨a, a, rfl, rfl, .inr ⟨hc, rfl⟩⟩, by simpa using t⟩
    · have hne : (y == x) = false := by simpa using hy
      refine ⟨by simp [List.findIdx?_cons, hne, hidx], fun i hi => ?_⟩
      simp only [List.findIdx?_cons, hne, Bool.false_eq_true, if_false, Option.map_eq_some_iff] at hi
      obtain ⟨j, hj, rfl⟩ := hi
      obtain ⟨⟨a', b', ha', hb', hab'⟩, hrest⟩ := hat j hj
      exact ⟨⟨a', b', by simpa using ha', by simpa using hb', hab'⟩, by
        simpa using PropsResemble.plain hc hrest⟩

/-- Taking a property out of entities that resemble: it is in both or in neither, with values
that resemble, and what is left resembles. -/
theorem EntityResembles.take {n : Node} {e f : Entity} (h : EntityResembles sp D n e f)
    (x : String) :
    (e.take x = (none, e) ∧ f.take x = (none, f)) ∨
      ∃ a b e' f', e.take x = (some a, e') ∧ f.take x = (some b, f') ∧
        PropResembles sp D n x a b ∧ EntityResembles sp D n e' f' := by
  obtain ⟨hidx, hat⟩ := h.props.take x
  unfold Entity.take
  rw [← hidx]
  cases hi : e.props.findIdx? (·.1 == x) with
  | none => exact .inl ⟨rfl, rfl⟩
  | some i =>
    obtain ⟨⟨a, b, ha, hb, hab⟩, hrest⟩ := hat i hi
    exact .inr ⟨a, b, ⟨e.type, e.props.eraseIdx i⟩, ⟨f.type, f.props.eraseIdx i⟩, by simp [ha],
      by simp [hb], hab, ⟨h.type, hrest⟩⟩

theorem EntityResembles.isSame_eq {n : Node} {e f : Entity} (h : EntityResembles sp D n e f)
    (m : Manager) (s : Store) (live : Handle) : m.isSame s live e = m.isSame s live f := by
  cases m <;> simp only [Manager.isSame, identityMatches, h.type, h.scalar?_eq]

theorem EntityResembles.findFrom_eq {n : Node} {e f : Entity} (h : EntityResembles sp D n e f)
    (m : Manager) (ctx : Context) (owner : Value) (start size : Nat) :
    Reconciler.findFrom m ctx owner e start size = Reconciler.findFrom m ctx owner f start size := by
  simp only [Reconciler.findFrom, h.isSame_eq]

/-- A resolver finds the same object for entities that resemble, and journals them alike. -/
theorem EntityResembles.resolveReference_eq {n : Node} {e f : Entity}
    (h : EntityResembles sp D n e f) (ctx : Context) (t : ModelType) :
    ctx.resolveReference t e = ctx.resolveReference t f := by
  simp only [Context.resolveReference, Registry.lookup, h.describe_eq, h.scalar?_eq, h.type]

end Entities

end Lenient

-- ============================================================ runs that end alike

namespace RunsAlike

variable {α β γ : Type} {R : α → β → Prop}

theorem of_eq {x y : Run α} (h : x = y) : RunsAlike Eq x y := h ▸ same x

theorem eq {x y : Run α} (h : RunsAlike Eq x y) : x = y := by
  funext s
  have hs := h s
  rcases hx : x s with ⟨a, s₁⟩ | ⟨e, s₁⟩ <;> rcases hy : y s with ⟨b, s₂⟩ | ⟨e', s₂⟩ <;>
    rw [hx, hy] at hs <;> simp only [ResultsAlike] at hs
  · rw [hs.1, hs.2]
  · rw [hs.1, hs.2]

/-- A fold whose steps end alike from related values ends alike. -/
theorem foldlM_rel {f : α → γ → Run α} {g : β → γ → Run β} :
    ∀ (l : List γ), (∀ c ∈ l, ∀ a b, R a b → RunsAlike R (f a c) (g b c)) →
      ∀ {a b}, R a b → RunsAlike R (l.foldlM f a) (l.foldlM g b)
  | [], _, _, _, h => pure h
  | c :: l, hfg, _, _, h => by
    simp only [List.foldlM_cons]
    exact bind (hfg c List.mem_cons_self _ _ h) fun _ _ h' =>
      foldlM_rel l (fun c hc => hfg c (List.mem_cons_of_mem _ hc)) h'

end RunsAlike

-- ============================================================ reconciliation

namespace Reconciler

/-- The reconciler that injects as `r` does in the context that ignores unknown properties. -/
def ignoring (r : Reconciler) : Reconciler := ⟨r.reference, fun c => r.inject c.ignoring⟩

variable (r : Reconciler) (m : Manager) (ctx : Context) (owner : Value)

theorem discardFrom_ignoring (start : Nat) : ∀ fuel,
    discardFrom m ctx.ignoring owner start fuel = discardFrom m ctx owner start fuel
  | 0 => rfl
  | fuel + 1 => by
    simp only [discardFrom, discardFrom_ignoring start fuel]
    rfl

/-- Reconciliation reads no option: in the context that ignores unknown properties it is
reconciliation with the reconciler that injects in that context. -/
theorem ordered_ignoring (xs : List Staged) :
    ordered r m ctx.ignoring owner xs = ordered r.ignoring m ctx owner xs := by
  simp only [ordered, discardFrom_ignoring]
  rfl

theorem unordered_ignoring (xs : List Staged) :
    unordered r m ctx.ignoring owner xs = unordered r.ignoring m ctx owner xs := rfl

theorem keyed_ignoring (xs : List (Scalar × Staged)) :
    keyed r m ctx.ignoring owner xs = keyed r.ignoring m ctx owner xs := rfl

theorem toOne_ignoring (a : Staged) :
    toOne r m ctx.ignoring owner a = toOne r.ignoring m ctx owner a := rfl

end Reconciler

namespace Lenient

section Reconciliation

variable {sp : Node → ViewTree → ViewTree} {D : Nat} {N : Node}

variable (sp) in
/-- Two reconcilers for the associates of `N` that make new associates alike and inject
entities that resemble alike, the first in the context that ignores unknown properties. -/
structure Mirror (N : Node) (rL rS : Reconciler) : Prop where
  reference : rL.reference = rS.reference
  inject : ∀ ctx eL eS h, EntityResembles sp ctx.options.maxDepth N eL eS →
    rL.inject ctx.ignoring eL h = rS.inject ctx eS h

variable {rL rS : Reconciler}

theorem Mirror.inject_eq (hr : Mirror sp N rL rS) {ctx : Context} {eL eS : Entity}
    (he : EntityResembles sp ctx.options.maxDepth N eL eS) (h : Handle) :
    rL.ignoring.inject ctx eL h = rS.inject ctx eS h :=
  hr.inject ctx eL eS h he

theorem Mirror.obtain_eq (hr : Mirror sp N rL rS) {ctx : Context} {eL eS : Entity}
    (he : EntityResembles sp ctx.options.maxDepth N eL eS) :
    rL.ignoring.obtain ctx eL = rS.obtain ctx eS := by
  simp only [Reconciler.obtain, Reconciler.ignoring, hr.reference, he.type,
    he.resolveReference_eq]

theorem ItemsResemble.foldlM_zipIdx {γ : Type} {f g : γ → Staged × Nat → Run γ}
    (hfg : ∀ c a b i, Resembles sp D N a b → f c (a, i) = g c (b, i)) :
    ∀ {xs ys : List Staged} (k : Nat) (c : γ), ItemsResemble sp D N xs ys →
      (xs.zipIdx k).foldlM f c = (ys.zipIdx k).foldlM g c
  | _, _, _, _, .nil => rfl
  | _, _, k, c, .cons hab t => by
    simp only [List.zipIdx_cons, List.foldlM_cons, hfg c _ _ k hab]
    congr 1
    funext c'
    exact ItemsResemble.foldlM_zipIdx hfg (k + 1) c' t

theorem EntriesResemble.foldlM {γ : Type} {f g : γ → Scalar × Staged → Run γ}
    (hfg : ∀ c k a b, Resembles sp D N a b → f c (k, a) = g c (k, b)) :
    ∀ {xs ys : List (Scalar × Staged)} (c : γ), EntriesResemble sp D N xs ys →
      xs.foldlM f c = ys.foldlM g c
  | _, _, _, .nil => rfl
  | _, _, c, .cons k hab t => by
    simp only [List.foldlM_cons, hfg c k _ _ hab]
    congr 1
    funext c'
    exact EntriesResemble.foldlM hfg c' t

theorem ItemsResemble.forIn_eq {f g : Staged → PUnit → Run (ForInStep PUnit)}
    (hfg : ∀ a b u, Resembles sp D N a b → f a u = g b u) :
    ∀ {xs ys : List Staged}, ItemsResemble sp D N xs ys → ∀ u, forIn xs u f = forIn ys u g
  | _, _, .nil, _ => rfl
  | _, _, .cons hab t, u => by
    simp only [List.forIn_cons, hfg _ _ u hab]
    congr 1
    funext step
    cases step with
    | done => rfl
    | yield u' => exact ItemsResemble.forIn_eq hfg t u'

theorem EntriesResemble.forIn_eq {f g : Scalar × Staged → PUnit → Run (ForInStep PUnit)}
    (hfg : ∀ k a b u, Resembles sp D N a b → f (k, a) u = g (k, b) u) :
    ∀ {xs ys : List (Scalar × Staged)}, EntriesResemble sp D N xs ys →
      ∀ u, forIn xs u f = forIn ys u g
  | _, _, .nil, _ => rfl
  | _, _, .cons k hab t, u => by
    simp only [List.forIn_cons, hfg k _ _ u hab]
    congr 1
    funext step
    cases step with
    | done => rfl
    | yield u' => exact EntriesResemble.forIn_eq hfg t u'

variable (m : Manager) (ctx : Context) (owner : Value)

-- Each reconciliation goes through the staged elements in step on both sides: a null,
-- unchanged or misshapen element is passed over or refused alike, and an entity is matched
-- and made alike, since its type and scalars are the same, and injected alike.

theorem toOne_mirror (hr : Mirror sp N rL rS) {a b : Staged}
    (h : Resembles sp ctx.options.maxDepth N a b) :
    Reconciler.toOne rL m ctx.ignoring owner a = Reconciler.toOne rS m ctx owner b := by
  rw [Reconciler.toOne_ignoring]
  cases h with
  | entity hps =>
    rename_i t ps qs
    have he : EntityResembles sp ctx.options.maxDepth N ⟨t, ps⟩ ⟨t, qs⟩ := ⟨rfl, hps⟩
    simp only [Reconciler.toOne, he.isSame_eq, hr.inject_eq he, hr.obtain_eq he]
  | _ => rfl

theorem ordered_mirror (hr : Mirror sp N rL rS) {xs ys : List Staged}
    (h : ItemsResemble sp ctx.options.maxDepth N xs ys) :
    Reconciler.ordered rL m ctx.ignoring owner xs = Reconciler.ordered rS m ctx owner ys := by
  rw [Reconciler.ordered_ignoring]
  simp only [Reconciler.ordered]
  congr 1
  funext u
  congr 1
  refine ItemsResemble.foldlM_zipIdx (fun c a b i hab => ?_) 0 0 h
  cases hab with
  | entity hps =>
    rename_i t ps qs
    have he : EntityResembles sp (ctx.push (Frame.indexed i (some t))).options.maxDepth N
      ⟨t, ps⟩ ⟨t, qs⟩ := ⟨rfl, hps⟩
    simp only [Reconciler.entityOf, pure_bind, he.findFrom_eq, hr.inject_eq he, hr.obtain_eq he]
  | _ => rfl

theorem unordered_mirror (hr : Mirror sp N rL rS) {xs ys : List Staged}
    (h : ItemsResemble sp ctx.options.maxDepth N xs ys) :
    Reconciler.unordered rL m ctx.ignoring owner xs = Reconciler.unordered rS m ctx owner ys := by
  rw [Reconciler.unordered_ignoring]
  simp only [Reconciler.unordered]
  congr 1
  funext u
  congr 1
  funext live
  congr 1
  refine ItemsResemble.foldlM_zipIdx (fun c a b i hab => ?_) 0 _ h
  cases hab with
  | entity hps =>
    rename_i t ps qs
    have he : EntityResembles sp (ctx.push (Frame.indexed i (some t))).options.maxDepth N
      ⟨t, ps⟩ ⟨t, qs⟩ := ⟨rfl, hps⟩
    simp only [Reconciler.entityOf, pure_bind, he.isSame_eq, hr.inject_eq he, hr.obtain_eq he]
  | _ => rfl

theorem keyed_mirror (hr : Mirror sp N rL rS) {xs ys : List (Scalar × Staged)}
    (h : EntriesResemble sp ctx.options.maxDepth N xs ys) :
    Reconciler.keyed rL m ctx.ignoring owner xs = Reconciler.keyed rS m ctx owner ys := by
  rw [Reconciler.keyed_ignoring]
  simp only [Reconciler.keyed]
  congr 1
  funext u
  congr 1
  refine EntriesResemble.foldlM (fun c k a b hab => ?_) _ h
  cases hab with
  | entity hps =>
    rename_i t ps qs
    have he : EntityResembles sp (ctx.push (Frame.keyed k (some t))).options.maxDepth N
      ⟨t, ps⟩ ⟨t, qs⟩ := ⟨rfl, hps⟩
    simp only [Reconciler.keyed.replace, he.isSame_eq, hr.inject_eq he, hr.obtain_eq he]
  | _ => rfl

/-- Collections of values take the scalars of their elements, which are the same. -/
theorem replaceValues_alike {n : Node} {model : Value} {xs ys : List Staged}
    (h : ItemsResemble sp ctx.options.maxDepth n xs ys) :
    Apply.replaceValues ctx.ignoring n model xs = Apply.replaceValues ctx n model ys := by
  simp only [Apply.replaceValues]
  congr 1
  funext mu
  congr 1
  funext u
  congr 1
  exact ItemsResemble.forIn_eq (fun a b u hab => by cases hab <;> rfl) h _

end Reconciliation

-- ============================================================ spliced views

section Spliced

variable {sp : Node → ViewTree → ViewTree}

theorem isNullView_node (b e : Event) (body : List ViewTree) :
    Apply.isNullView (ViewTree.node b body e).events.toArray = false := by
  cases h : ViewTree.eventsOf body ++ [e] with
  | nil => simp at h
  | cons x xs => simp [Apply.isNullView, ViewTree.events, h]

/-- A spliced view and its pruning are null alike: a leaf is kept, and a container stays one. -/
theorem Pruning.isNullView_eq (hsp : Pruning sp) (R : Node) {t : ViewTree} (hwf : t.WellFormed) :
    Apply.isNullView (sp R t).events.toArray = Apply.isNullView t.events.toArray := by
  cases t with
  | leaf e => rw [hsp.leaf]
  | node b body e =>
    have hb : b.kind.isBegin = true := hwf.1
    have hhead := hsp.head R (.node b body e)
    have hs := (hsp.inShape R _ hwf).1
    cases hst : sp R (.node b body e) with
    | leaf e' =>
      rw [hst] at hhead hs
      simp only [ViewTree.head] at hhead
      subst hhead
      simp [ViewTree.WellFormed, hb] at hs
    | node b' body' e' => simp [isNullView_node]

/-- A splice node prunes a tree as its spliced template does. -/
theorem pruneNode_splice (hsp : Pruning sp) {n R : Node} {p : Option String}
    (hk : n.kind = .splice) (hs : n.splice = some (R, p)) (around : List Event) (t : ViewTree) :
    pruneNode sp n around t = sp R t := by
  cases t with
  | leaf e => simp [pruneNode, hsp.leaf]
  | node b body e => simp [pruneNode, hk, splicedTree, hs]

variable (sp) in
/-- Applying a tree to a target with the template of root `R`, leniently, and applying the
tree `sp` prunes from it, strictly, end alike, given the fuel a template of `R` needs on both
sides. -/
def NestedAlike (R : Node) : Prop :=
  ∀ (ctx : Context) (t : ViewTree) (target : Value) (fL fS : Nat), t.WellFormed →
    t.depth ≤ ctx.options.maxDepth → 8 * R.size + 7 < fL → 8 * R.size + 7 < fS →
      Apply.template fL ctx.ignoring R t.events.toArray target =
        Apply.template fS ctx R (sp R t).events.toArray target

theorem splice_alike (hsp : Pruning sp) {R : Node} (hR : NestedAlike sp R) {ctx : Context}
    {p : Option String} {t : ViewTree} {model : Value} {fL fS : Nat} (hwf : t.WellFormed)
    (hd : t.depth ≤ ctx.options.maxDepth) (hL : 8 * R.size + 8 < fL) (hS : 8 * R.size + 8 < fS) :
    Apply.splice fL ctx.ignoring R p t.events.toArray model =
      Apply.splice fS ctx R p (sp R t).events.toArray model := by
  obtain ⟨f, rfl⟩ : ∃ f, fL = f + 1 := ⟨fL - 1, by omega⟩
  obtain ⟨g, rfl⟩ : ∃ g, fS = g + 1 := ⟨fS - 1, by omega⟩
  have htemplate : ∀ target, Apply.template f ctx.ignoring R t.events.toArray target =
      Apply.template g ctx R (sp R t).events.toArray target :=
    fun target => hR ctx t target f g hwf hd (by omega) (by omega)
  simp only [Apply.splice, hsp.isNullView_eq R hwf, htemplate]
  rfl

end Spliced

-- ============================================================ injection

section Injection

variable {sp : Node → ViewTree → ViewTree} {B f : Nat}

variable (sp B) in
/-- The injection functions at a lenient fuel, for nodes that prune statically and are no
larger than `B`, run leniently on staged values and strictly on values that resemble, with
the fuel each needs on both sides: those that write end alike, and those that give back the
rest of an entity give back entities that resemble. The fuel each function needs grows with
the size of its node, so that each call has less than its caller. -/
structure InjectsAlike (fuel : Nat) : Prop where
  children : ∀ {ctx : Context} {n N : Node} {eL eS : Entity} {model : Value} {fS : Nat},
    n.prunable = true → n.size ≤ B → N.routesApart = true → Node.RoutesWithin n N →
    8 * n.size < fuel → 8 * n.size < fS → EntityResembles sp ctx.options.maxDepth N eL eS →
    RunsAlike (EntityResembles sp ctx.options.maxDepth N)
      (Apply.children fuel ctx.ignoring n eL model) (Apply.children fS ctx n eS model)
  into : ∀ {ctx : Context} {b c N : Node} {eL eS : Entity} {model : Value} {fS : Nat},
    c ∈ b.children → Node.RoutesWithin b N → c.prunable = true → c.size ≤ B →
    N.routesApart = true → 8 * c.size + 5 < fuel → 8 * c.size + 5 < fS →
    EntityResembles sp ctx.options.maxDepth N eL eS →
    RunsAlike (EntityResembles sp ctx.options.maxDepth N)
      (Apply.into fuel ctx.ignoring c eL model) (Apply.into fS ctx c eS model)
  inject : ∀ {ctx : Context} {n : Node} {eL eS : Entity} {h : Handle} {fS : Nat},
    n.prunable = true → n.size ≤ B → 8 * n.size + 1 < fuel → 8 * n.size + 1 < fS →
    EntityResembles sp ctx.options.maxDepth n eL eS →
    Apply.inject fuel ctx.ignoring n eL h = Apply.inject fS ctx n eS h
  reconciler : ∀ {n : Node} {fS : Nat}, n.prunable = true → n.size ≤ B →
    8 * n.size + 2 < fuel → 8 * n.size + 2 < fS →
    Mirror sp n (Apply.reconciler fuel n) (Apply.reconciler fS n)
  elements : ∀ {ctx : Context} {n : Node} {model : Value} {d : Descriptor} {xs ys : List Staged}
    {fS : Nat}, n.prunable = true → n.size ≤ B → 8 * n.size + 3 < fuel → 8 * n.size + 3 < fS →
    ItemsResemble sp ctx.options.maxDepth n xs ys →
    Apply.elements fuel ctx.ignoring n model d xs = Apply.elements fS ctx n model d ys
  staged : ∀ {ctx : Context} {n : Node} {a b : Staged} {model : Value} {fS : Nat},
    n.prunable = true → n.size ≤ B → 8 * n.size + 4 < fuel → 8 * n.size + 4 < fS →
    Resembles sp ctx.options.maxDepth n a b →
    Apply.staged_ fuel ctx.ignoring n a model = Apply.staged_ fS ctx n b model

theorem injectsAlike_zero : InjectsAlike sp B 0 where
  children _ _ _ _ h := absurd h (by omega)
  into _ _ _ _ _ h := absurd h (by omega)
  inject _ _ h := absurd h (by omega)
  reconciler _ _ h := absurd h (by omega)
  elements _ _ h := absurd h (by omega)
  staged _ _ h := absurd h (by omega)

theorem exists_succ_of_lt {k fuel : Nat} (h : k < fuel) : ∃ f, fuel = f + 1 :=
  ⟨fuel - 1, by omega⟩

theorem children_step (ih : InjectsAlike sp B f) {ctx : Context} {n N : Node} {eL eS : Entity}
    {model : Value} {fS : Nat} (hn : n.prunable = true) (hB : n.size ≤ B)
    (hN : N.routesApart = true) (hw : Node.RoutesWithin n N) (hf : 8 * n.size < f + 1)
    (hS : 8 * n.size < fS) (he : EntityResembles sp ctx.options.maxDepth N eL eS) :
    RunsAlike (EntityResembles sp ctx.options.maxDepth N)
      (Apply.children (f + 1) ctx.ignoring n eL model) (Apply.children fS ctx n eS model) := by
  obtain ⟨g, rfl⟩ := exists_succ_of_lt hS
  simp only [Apply.children]
  refine RunsAlike.foldlM_rel n.children (fun c hc a b hab => ?_) he
  have hlt := Node.size_lt_of_mem_children hc
  exact ih.into hc hw (((Node.prunable_iff n).1 hn).2.1 c hc) (by omega) hN (by omega) (by omega)
    hab

theorem inject_step (ih : InjectsAlike sp B f) {ctx : Context} {n : Node} {eL eS : Entity}
    {h : Handle} {fS : Nat} (hn : n.prunable = true) (hB : n.size ≤ B)
    (hf : 8 * n.size + 1 < f + 1) (hS : 8 * n.size + 1 < fS)
    (he : EntityResembles sp ctx.options.maxDepth n eL eS) :
    Apply.inject (f + 1) ctx.ignoring n eL h = Apply.inject fS ctx n eS h := by
  obtain ⟨g, rfl⟩ := exists_succ_of_lt hS
  simp only [Apply.inject]
  refine RunsAlike.eq (RunsAlike.bind (ih.children hn hB ((Node.prunable_iff n).1 hn).1
    (Node.RoutesWithin.refl n) (by omega) (by omega) he) fun _ _ _ => RunsAlike.pure rfl)

theorem reconciler_step (ih : InjectsAlike sp B f) {n : Node} {fS : Nat}
    (hn : n.prunable = true) (hB : n.size ≤ B) (hf : 8 * n.size + 2 < f + 1)
    (hS : 8 * n.size + 2 < fS) :
    Mirror sp n (Apply.reconciler (f + 1) n) (Apply.reconciler fS n) := by
  obtain ⟨g, rfl⟩ := exists_succ_of_lt hS
  refine ⟨rfl, fun ctx eL eS h he => ?_⟩
  show Apply.inject f ctx.ignoring n eL h = Apply.inject g ctx n eS h
  exact ih.inject hn hB (by omega) (by omega) he

theorem elements_step (ih : InjectsAlike sp B f) {ctx : Context} {n : Node} {model : Value}
    {d : Descriptor} {xs ys : List Staged} {fS : Nat} (hn : n.prunable = true)
    (hB : n.size ≤ B) (hf : 8 * n.size + 3 < f + 1) (hS : 8 * n.size + 3 < fS)
    (h : ItemsResemble sp ctx.options.maxDepth n xs ys) :
    Apply.elements (f + 1) ctx.ignoring n model d xs = Apply.elements fS ctx n model d ys := by
  obtain ⟨g, rfl⟩ := exists_succ_of_lt hS
  have hr : Mirror sp n (Apply.reconciler f n) (Apply.reconciler g n) :=
    ih.reconciler hn hB (by omega) (by omega)
  simp only [Apply.elements]
  refine bind_congr fun m => ?_
  cases hc : m.capability
  case indexed => exact ordered_mirror m ctx model hr h
  case unordered => exact unordered_mirror m ctx model hr h
  all_goals rfl

/-- A child takes its property from entities that resemble: a branch passes them on, a
discriminator leaves them, and a named child takes a value that resembles as it stages. -/
theorem into_step (ih : InjectsAlike sp B f) {ctx : Context} {b c N : Node} {eL eS : Entity}
    {model : Value} {fS : Nat} (hc : c ∈ b.children) (hw : Node.RoutesWithin b N)
    (hcp : c.prunable = true) (hcB : c.size ≤ B) (hN : N.routesApart = true)
    (hf : 8 * c.size + 5 < f + 1) (hS : 8 * c.size + 5 < fS)
    (he : EntityResembles sp ctx.options.maxDepth N eL eS) :
    RunsAlike (EntityResembles sp ctx.options.maxDepth N)
      (Apply.into (f + 1) ctx.ignoring c eL model) (Apply.into fS ctx c eS model) := by
  obtain ⟨g, rfl⟩ := exists_succ_of_lt hS
  simp only [Apply.into]
  cases hk : c.kind
  case subtype =>
    dsimp only
    split
    · exact RunsAlike.bind_same fun _ => RunsAlike.ite
        (fun _ => ih.children hcp hcB hN (hw.branch hc hk) (by omega) (by omega) he)
        fun _ => RunsAlike.pure he
    · exact RunsAlike.pure he
  case discriminator => exact RunsAlike.pure he
  -- every other kind names the property it takes
  all_goals
    dsimp only
    cases hx : c.name with
    | none => exact RunsAlike.pure he
    | some x =>
      obtain ⟨gd, hr⟩ := hw.child hc (by simp [hk]) hx
      rcases he.take x with ⟨hL, hS⟩ | ⟨a, a', eL', eS', hL, hS, hab, he'⟩
      · simp only [hL, hS]
        exact RunsAlike.pure he
      · simp only [hL, hS, Context.ignoring_push]
        have hres : Resembles sp ctx.options.maxDepth c a a' := hab.to_route hN hr
        refine RunsAlike.bind_same fun _ => RunsAlike.ite (fun _ => RunsAlike.pure he')
          fun _ => RunsAlike.ite (fun _ => RunsAlike.pure he') fun _ => ?_
        exact RunsAlike.bind (RunsAlike.of_eq (ih.staged hcp hcB (by omega) (by omega) hres))
          fun _ _ _ => RunsAlike.bind_same fun _ => RunsAlike.pure he'

theorem Resembles.unchanged_iff {D : Nat} {n : Node} {a b : Staged}
    (h : Resembles sp D n a b) : a = .unchanged ↔ b = .unchanged := by
  cases h <;> simp

/-- An association reconciles whatever it stages, unless it is unchanged. -/
theorem staged_association {fuel : Nat} {ctx : Context} {n : Node} {a : Staged} {model : Value}
    (hk : n.kind = .object ∨ n.kind = .reference) (ha : a ≠ .unchanged) :
    Apply.staged_ (fuel + 1) ctx n a model = (do
      let d ← Apply.descriptor ctx n model
      let m ← n.manager ctx d
      unless m.capability == .toOne do Run.fail ctx (.managerCapability d.text "to-one")
      Reconciler.toOne (Apply.reconciler fuel n) m ctx model a) := by
  cases a
  case unchanged => exact absurd rfl ha
  all_goals rcases hk with hk | hk <;> simp only [Apply.staged_, hk]

variable (sp B) in
/-- The spliced templates below nodes no larger than `B` apply alike. -/
def NestedBelow : Prop :=
  ∀ R : Node, R.size < B → R.prunable = true → (R.kind ≠ .object ∨ R.discriminated = false) →
    NestedAlike sp R

/-- A node writes what it stages alike: an association reconciles, a collection of
associates reconciles its elements, an envelope injects its children, a collection of values
takes the same scalars, and a splice applies its template, to the spliced tree leniently and
to its pruning strictly. Every other write is the same on both sides. -/
theorem staged_step (hsp : Pruning sp) (hnest : NestedBelow sp B) (ih : InjectsAlike sp B f)
    {ctx : Context} {n : Node} {a b : Staged} {model : Value} {fS : Nat}
    (hn : n.prunable = true) (hB : n.size ≤ B) (hf : 8 * n.size + 4 < f + 1)
    (hS : 8 * n.size + 4 < fS) (h : Resembles sp ctx.options.maxDepth n a b) :
    Apply.staged_ (f + 1) ctx.ignoring n a model = Apply.staged_ fS ctx n b model := by
  obtain ⟨g, rfl⟩ := exists_succ_of_lt hS
  have hr : Mirror sp n (Apply.reconciler f n) (Apply.reconciler g n) :=
    ih.reconciler hn hB (by omega) (by omega)
  by_cases hassoc : n.kind = .object ∨ n.kind = .reference
  · by_cases hu : a = .unchanged
    · obtain rfl := hu
      obtain rfl := h.unchanged_iff.1 rfl
      simp only [Apply.staged_]
    · have hu' : b ≠ .unchanged := fun hb => hu (h.unchanged_iff.2 hb)
      rw [staged_association hassoc hu, staged_association hassoc hu']
      exact bind_congr fun d => bind_congr fun m => by
        rw [toOne_mirror m ctx model hr h]
        rfl
  cases hk : n.kind
  case object | reference => simp [hk] at hassoc
  case envelope =>
    cases h with
    | entity hps =>
      simp only [Apply.staged_, hk]
      exact RunsAlike.eq (RunsAlike.bind (ih.children hn hB ((Node.prunable_iff n).1 hn).1
        (Node.RoutesWithin.refl n) (by omega) (by omega) ⟨rfl, hps⟩) fun _ _ _ => RunsAlike.pure rfl)
    | _ => simp only [Apply.staged_, hk] <;> rfl
  case arrayOfObjects =>
    cases h with
    | elements hxs =>
      simp only [Apply.staged_, hk]
      exact bind_congr fun d => ih.elements hn hB (by omega) (by omega) hxs
    | _ => simp only [Apply.staged_, hk] <;> rfl
  case arrayOfValues =>
    cases h with
    | elements hxs =>
      simp only [Apply.staged_, hk]
      exact replaceValues_alike ctx hxs
    | _ => simp only [Apply.staged_, hk] <;> rfl
  case mapOfObjects =>
    cases h with
    | entries hxs =>
      simp only [Apply.staged_, hk]
      exact bind_congr fun d => bind_congr fun m => by
        rw [keyed_mirror m ctx model hr hxs]
        rfl
    | _ => simp only [Apply.staged_, hk] <;> rfl
  case mapOfValues =>
    cases h with
    | entries hxs =>
      simp only [Apply.staged_, hk]
      congr 1
      funext m
      congr 1
      funext u
      congr 1
      exact EntriesResemble.forIn_eq (fun k a b u hab => by cases hab <;> rfl) hxs _
    | _ => simp only [Apply.staged_, hk] <;> rfl
  case splice =>
    cases h with
    | spliced _ hwf hd =>
      simp only [Apply.staged_, hk]
      cases hs : n.splice with
      | none => rfl
      | some rp =>
        obtain ⟨R, p⟩ := rp
        rw [pruneNode_splice hsp hk hs]
        have hR := Node.size_lt_of_splice hs
        obtain ⟨hRk, hRp⟩ := ((Node.prunable_iff n).1 hn).2.2 R p hs
        exact splice_alike hsp (hnest R (by omega) hRp hRk) hwf hd (by omega) (by omega)
    | plainSpliced _ hne => exact absurd hk hne
    | _ => simp only [Apply.staged_, hk] <;> rfl
  -- values, branches, discriminators and meta values write nothing through another function
  all_goals cases h <;> simp only [Apply.staged_, hk] <;> rfl

/-- Injection at every fuel, by induction on the lenient fuel: each function at one more
unit of fuel calls functions at the fuel below. -/
theorem injectsAlike (hsp : Pruning sp) (hnest : NestedBelow sp B) : ∀ fuel, InjectsAlike sp B fuel
  | 0 => injectsAlike_zero
  | f + 1 =>
    have ih := injectsAlike hsp hnest f
    { children := children_step ih
      into := into_step ih
      inject := inject_step ih
      reconciler := reconciler_step ih
      elements := elements_step ih
      staged := staged_step hsp hnest ih }

/-- The staged root is injected alike. -/
theorem injectRoot_alike (hm : ∀ fuel, InjectsAlike sp B fuel) {ctx : Context} {R : Node}
    {a b : Staged} {target : Value} {fL fS : Nat} (hR : R.prunable = true) (hRB : R.size ≤ B)
    (hL : 8 * R.size + 6 < fL) (hS : 8 * R.size + 6 < fS)
    (h : Resembles sp ctx.options.maxDepth R a b) :
    Apply.injectRoot fL ctx.ignoring R a target = Apply.injectRoot fS ctx R b target := by
  obtain ⟨f, rfl⟩ := exists_succ_of_lt hL
  obtain ⟨g, rfl⟩ := exists_succ_of_lt hS
  cases hk : R.kind
  case object =>
    cases h with
    | entity hps =>
      rename_i t ps qs
      have hinj : ∀ fr h, Apply.inject f (ctx.push fr).ignoring R ⟨t, ps⟩ h =
          Apply.inject g (ctx.push fr) R ⟨t, qs⟩ h :=
        fun _ _ => (hm f).inject hR hRB (by omega) (by omega) ⟨rfl, hps⟩
      simp only [Apply.injectRoot, hk, Context.ignoring_push, hinj]
      rfl
    | _ => simp only [Apply.injectRoot, hk]; rfl
  case arrayOfObjects =>
    cases h with
    | elements hxs =>
      have helements : ∀ fr d, Apply.elements f (ctx.push fr).ignoring R target d _ =
          Apply.elements g (ctx.push fr) R target d _ :=
        fun _ _ => (hm f).elements hR hRB (by omega) (by omega) hxs
      simp only [Apply.injectRoot, hk, Context.ignoring_push, helements]
      rfl
    | _ => simp only [Apply.injectRoot, hk]; rfl
  case arrayOfValues =>
    cases h with
    | elements hxs =>
      have hvalues : ∀ fr, Apply.replaceValues (ctx.push fr).ignoring R target _ =
          Apply.replaceValues (ctx.push fr) R target _ :=
        fun fr => replaceValues_alike (ctx.push fr) hxs
      simp only [Apply.injectRoot, hk, Context.ignoring_push, hvalues]
      rfl
    | _ => simp only [Apply.injectRoot, hk]; rfl
  -- other roots write nothing through another function
  all_goals cases h <;> simp only [Apply.injectRoot, hk] <;> rfl

/-- A template applies a view leniently as it applies, strictly, the view with the root tree
pruned as the template reads it from the state it starts in. -/
theorem template_alike (hsp : Pruning sp) (hm : ∀ fuel, InjectsAlike sp B fuel) {ctx : Context}
    {R : Node} {t : ViewTree} {rest : List Event} {target : Value} {fL fS : Nat}
    (hR : R.prunable = true) (hRB : R.size ≤ B) (hwf : t.WellFormed)
    (hd : t.depth ≤ ctx.options.maxDepth) (hL : 8 * R.size + 7 < fL) (hS : 8 * R.size + 7 < fS)
    (s : RunState) :
    Apply.template fL ctx.ignoring R (t.events ++ rest).toArray target s =
      Apply.template fS ctx R
        ((pruneRoot sp R (Apply.initialType s.store R target) t).events ++ rest).toArray target s := by
  obtain ⟨f, rfl⟩ := exists_succ_of_lt hL
  obtain ⟨g, rfl⟩ := exists_succ_of_lt hS
  rw [Apply.template_succ, Apply.template_succ]
  have hread : ReadAlike (Resembles sp ctx.options.maxDepth R)
      (readView ctx.ignoring R (Apply.initialType s.store R target) (t.events ++ rest).toArray)
      (readView ctx R (Apply.initialType s.store R target)
        ((pruneRoot sp R (Apply.initialType s.store R target) t).events ++ rest).toArray) :=
    lenient_reading_resembles_pruned_view hsp hR hwf hd
  rcases hrL : readView ctx.ignoring R _ _ with e | a <;>
    rcases hrS : readView ctx R _ _ with e' | b <;>
    rw [hrL, hrS] at hread <;> simp only [ReadAlike] at hread
  · rw [hread]
  · exact congrFun (injectRoot_alike hm hR hRB (by omega) (by omega) hread) s

end Injection

-- ============================================================ spliced templates, level by level

section Levels

variable {sp : Node → ViewTree → ViewTree}

/-- Without a discriminator, an object's properties are pruned alike whatever type it is read
as. -/
theorem pruneBody_undiscriminated {n : Node} (hd : n.discriminated = false)
    (around : List Event) (ty ty' : ModelType) :
    ∀ ts, pruneBody sp n ty around ts = pruneBody sp n ty' around ts
  | [] => by simp [pruneBody]
  | t :: ts => by
    have ih := pruneBody_undiscriminated hd around ty ty' ts
    simp only [pruneBody]
    cases hx : t.head.name with
    | none => rfl
    | some x =>
      simp only []
      rw [Node.route?_undiscriminated hd x _ ty ty']
      cases n.route? x (inheritedNamespace t.head around) ty' with
      | none => exact ih
      | some child =>
        simp only []
        split
        · rfl
        · rw [ih]

/-- A spliced root that is no discriminated object is pruned alike whatever the target it
is applied to. -/
theorem pruneRoot_initialType {R : Node} (hR : R.kind ≠ .object ∨ R.discriminated = false)
    (st : Store) (target : Value) (t : ViewTree) :
    pruneRoot sp R (Apply.initialType st R target) t = pruneRoot sp R none t := by
  rw [pruneRoot_none]
  by_cases hk : R.kind = .object
  · have hd : R.discriminated = false := hR.resolve_left (not_not.2 hk)
    cases hty : R.modelType with
    | none => simp [Apply.initialType, hty, pruneRoot]
    | some declared =>
      obtain ⟨ty, hi⟩ : ∃ ty, Apply.initialType st R target = some ty := by
        simp [Apply.initialType, hty]
      rw [hi]
      cases t with
      | leaf e => simp [pruneRoot, hk, pruneObject, pruneNode]
      | node b body e =>
        simp only [pruneRoot, hk, pruneObject, pruneNode, hty]
        rw [pruneBody_undiscriminated hd _ ty declared]
  · unfold pruneRoot
    split
    · contradiction
    · rfl

/-- Spliced templates apply alike at every level, by induction on the level: a template no
larger than `k + 1` injects alike given that the templates spliced in it, which are smaller,
apply alike one level down. -/
theorem nestedAlike_pruneSpliced : ∀ k R, R.size ≤ k → R.prunable = true →
    (R.kind ≠ .object ∨ R.discriminated = false) → NestedAlike (pruneSpliced k) R
  | 0, R, hk, _, _ => absurd hk (by rw [Node.size_eq]; omega)
  | k + 1, R, hk, hR, hc => by
    intro ctx t target fL fS hwf hd hL hS
    have hm : ∀ fuel, InjectsAlike (pruneSpliced k) (k + 1) fuel :=
      injectsAlike (pruneSpliced_pruning k) fun R' h' hp hc' =>
        nestedAlike_pruneSpliced k R' (by omega) hp hc'
    funext s
    have h : Apply.template fL ctx.ignoring R (t.events ++ []).toArray target s =
        Apply.template fS ctx R ((pruneRoot (pruneSpliced k) R
          (Apply.initialType s.store R target) t).events ++ []).toArray target s :=
      template_alike (pruneSpliced_pruning k) hm hR hk hwf hd hL hS s
    simpa [pruneSpliced, pruneRoot_initialType hc] using h

end Levels

-- ============================================================ the main statement

end Lenient

-- ============================================================ a note and a deep note

namespace Sample

/-- A view that renames the item to `b` and gives it a note items do not have. -/
def noteView : ViewTree :=
  .node (Event.beginObject none)
    [.leaf (Event.valueOf (some "name") none (.string "b")),
      .node (Event.beginObject (some "note"))
        [.leaf (Event.valueOf (some "text") none (.string "c"))] Event.endObject]
    Event.endObject

theorem noteView_wellFormed : noteView.WellFormed := by
  simp [noteView, ViewTree.WellFormed, ViewTree.AllWellFormed, Event.beginObject, Event.valueOf,
    Event.endObject, EventKind.isBegin, EventKind.isEnd, EventKind.complement]

/-- `n + 1` objects named `z`, each inside the one before. -/
def nestedObjects : Nat → ViewTree
  | 0 => .node (Event.beginObject (some "z")) [] Event.endObject
  | n + 1 => .node (Event.beginObject (some "z")) [nestedObjects n] Event.endObject

/-- A view that renames the item to `b`, with an unknown property `zzz` that holds objects
nested `n + 1` deep. -/
def deepNoteView (n : Nat) : ViewTree :=
  .node (Event.beginObject none)
    [.leaf (Event.valueOf (some "name") none (.string "b")),
      .node (Event.beginObject (some "zzz")) [nestedObjects n] Event.endObject]
    Event.endObject

end Sample

namespace Lenient

/-- The default context with unknown properties ignored is the lenient one. -/
example : ({} : Context).ignoring = { options := .lenient } := rfl

/-- Pruning drops the note and keeps the name. -/
example : (pruneView Sample.namedItems.root (some Sample.itemType) Sample.noteView).events.map
    Event.name = [none, some "name", none] := by
  decide +kernel

end Lenient

end GraphViews

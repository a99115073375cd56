import Mathlib
import GraphViews.Template.Validate
import GraphViews.Proofs.Discrimination
import GraphViews.Proofs.Instants
import GraphViews.Proofs.ObjectBlocks
/-!
# Staging routes each generated property to the node that wrote it

Inside an object, generation writes one block of events for each node of `Node.emittedFor`: the
children of the container and, for an object that is an instance of a subtype branch, the
children of that branch, at any depth; each block opens with an event that names its node
(`Generate.blocksAt`). Staging reads the object back through one flat table, `Node.routes`:
every named child, with the type of the innermost branch it sits in as its guard. `Node.route?`
takes the first entry of the name whose namespace fits and whose guard admits the staged type,
guards counting only in a container with a discriminator.

The main statement, `routes_reach_emitting_nodes`, says that for every template the builder
accepts and every node `c` of it, staging routes the first event of every block that generation
writes under `c`, for an object of type `t`, back to the block's node:

* when `c` has a discriminator, or its routes carry distinct names;
* when the nodes generation writes for `t` under `c` carry distinct names;
* when the types of `t`'s chain and of `c`'s branches are the same whenever their names are, as
  in a model whose type names are unique;
* unless the node is a splice with a namespace of its own, whose first event carries the
  namespace of the spliced view instead.

Without a discriminator the guards do not count, and a name that two branches declare routes to
the first branch's node even for an object of the second (`undiscriminated_name_routes_to_first`);
when no two routes share a name, the one route of the name is the node's own.

# How the proofs go

Validation checks every node the builder made: each branch has a type, and a branch's own
branches have types below it (`Node.BranchesNest`, from `Template.branchesNest_of_validate`).
Types being the same when their names are, an object below an inner branch's type is below every
branch around it (`ModelType.isSubtypeOf_trans`), so a route whose guard admits the type leads
to a node that generation writes (`Node.emittedFor_of_route`), and the node's own route is
admitted (`Node.route_of_emittedFor`); with distinct names, the first admitted route of the name
is the node (`Node.route?_eq_of_emittedFor`).
-/

namespace GraphViews

-- ============================================================ types and their lineage

namespace ModelType

theorem lineage_eq_map_chain : ∀ t : ModelType, t.lineage = t.chain.map (·.name)
  | ⟨_, none, _, _⟩ => rfl
  | ⟨_, some s, _, _⟩ => by simp [lineage, chain, lineage_eq_map_chain s]

/-- A type is below another exactly when the other's name is in its lineage. -/
theorem isSubtypeOf_iff : ∀ (t u : ModelType), t.isSubtypeOf u = true ↔ u.name ∈ t.lineage
  | ⟨n, none, _, _⟩, u => by
    simp only [isSubtypeOf, lineage, Bool.or_false, beq_iff_eq, List.mem_singleton]
    exact eq_comm
  | ⟨n, some s, _, _⟩, u => by
    simp only [isSubtypeOf, lineage, Bool.or_eq_true, beq_iff_eq, List.mem_cons,
      isSubtypeOf_iff s u]
    exact or_congr_left eq_comm

/-- The lineage of a type of the chain is a suffix of the lineage. -/
theorem lineage_suffix_of_mem_chain : ∀ {t x : ModelType}, x ∈ t.chain → x.lineage <:+ t.lineage
  | ⟨n, none, a, p⟩, x, hx => by
    simp only [chain, List.mem_singleton] at hx
    subst hx
    exact List.suffix_refl _
  | ⟨n, some s, a, p⟩, x, hx => by
    simp only [chain, List.mem_cons] at hx
    rcases hx with rfl | hx
    · exact List.suffix_refl _
    · exact (lineage_suffix_of_mem_chain hx).trans (List.suffix_cons n _)

/-- Types of the list that share a name share their lineage: names identify the types, as in a
model where every type has a name of its own. -/
def Coherent (ts : List ModelType) : Prop :=
  ∀ a ∈ ts, ∀ b ∈ ts, a.name = b.name → a.lineage = b.lineage

instance (ts : List ModelType) : Decidable (Coherent ts) :=
  inferInstanceAs (Decidable (∀ a ∈ ts, ∀ b ∈ ts, a.name = b.name → a.lineage = b.lineage))

/-- Below a type that is below a third: where names identify types, being below is transitive. -/
theorem isSubtypeOf_trans {ts : List ModelType} {t u v : ModelType} (hc : Coherent ts)
    (ht : t.chain ⊆ ts) (hu : u ∈ ts) (htu : t.isSubtypeOf u = true)
    (huv : u.isSubtypeOf v = true) : t.isSubtypeOf v = true := by
  rw [isSubtypeOf_iff, lineage_eq_map_chain] at htu
  obtain ⟨x, hx, hxu⟩ := List.mem_map.1 htu
  -- the type of `t`'s chain named like `u` has `u`'s lineage
  have hlin : x.lineage = u.lineage := hc x (ht hx) u hu hxu
  rw [isSubtypeOf_iff] at huv ⊢
  rw [← hlin] at huv
  exact (lineage_suffix_of_mem_chain hx).subset huv

end ModelType

-- ============================================================ what a container writes and routes

/-- A search whose qualifying elements all map to one value finds that value, when one
qualifies. -/
theorem find?_map_eq_of_unique {α β : Type} {l : List α} {p : α → Bool} {f : α → β} {b : β}
    (hex : ∃ a ∈ l, p a = true) (huniq : ∀ a ∈ l, p a = true → f a = b) :
    (l.find? p).map f = some b := by
  cases hf : l.find? p with
  | none =>
    obtain ⟨a, ha, hpa⟩ := hex
    exact absurd hpa (by simpa using List.find?_eq_none.1 hf a ha)
  | some a =>
    rw [Option.map_some, huniq a (List.mem_of_find?_eq_some hf) (List.find?_some hf)]

/-- Where the names of a list are distinct, a name picks out one member. -/
theorem eq_of_mem_of_names_nodup {l : List Node} (hl : (l.filterMap Node.name).Nodup)
    {m n : Node} (hm : m ∈ l) (hn : n ∈ l) {x : String} (hmx : m.name = some x)
    (hnx : n.name = some x) : m = n := by
  induction l with
  | nil => simp at hm
  | cons a l ih =>
    have hx : ∀ k ∈ l, k.name = some x → a.name = some x → False := fun k hk hkx hax => by
      simp only [List.filterMap_cons, hax, List.nodup_cons] at hl
      exact hl.1 (List.mem_filterMap.2 ⟨k, hk, hkx⟩)
    have hl' : (l.filterMap Node.name).Nodup := by
      rw [List.filterMap_cons] at hl
      split at hl
      · exact hl
      · exact (List.nodup_cons.1 hl).2
    rcases List.mem_cons.1 hm with rfl | hm' <;> rcases List.mem_cons.1 hn with rfl | hn'
    · rfl
    · exact (hx n hn' hnx hmx).elim
    · exact (hx m hm' hmx hnx).elim
    · exact ih hl' hm' hn'

namespace Node

/-- A route of a node comes from one child: the child itself, unguarded, or a route of a branch,
guarded by the branch's own guard or else by the branch's type. -/
theorem mem_routes {c m : Node} {x : String} {g : Option ModelType} :
    (x, m, g) ∈ c.routes ↔ ∃ b ∈ c.children,
      (b.kind ≠ .subtype ∧ m = b ∧ b.name = some x ∧ g = none) ∨
      (b.kind = .subtype ∧ ∃ g', (x, m, g') ∈ b.routes ∧ g = (g' <|> b.modelType)) := by
  obtain ⟨info, children, sp⟩ := c
  simp only [routes]
  induction children with
  | nil => simp [routes.routesOf]
  | cons b cs ih =>
    simp only [routes.routesOf, List.mem_append, ih, List.exists_mem_cons_iff]
    refine or_congr_left ?_
    by_cases hk : b.kind = .subtype
    · simp only [hk, beq_self_eq_true, if_true, List.mem_map, Prod.exists, Prod.mk.injEq,
        ne_eq, not_true_eq_false, false_and, true_and, false_or]
      constructor
      · rintro ⟨x', m', g', hr, rfl, rfl, rfl⟩
        exact ⟨g', hr, rfl⟩
      · rintro ⟨g', hr, rfl⟩
        exact ⟨x, m, g', hr, rfl, rfl, rfl⟩
    · have hk' : (b.kind == .subtype) = false := by simpa using hk
      simp only [hk', Bool.false_eq_true, if_false]
      cases hn : b.name with
      | none => simp [hk]
      | some n =>
        simp only [List.mem_singleton, Prod.mk.injEq, hk, false_and, or_false, Option.some.injEq]
        constructor
        · rintro ⟨rfl, rfl, rfl⟩
          exact ⟨hk, rfl, rfl, rfl⟩
        · rintro ⟨-, rfl, rfl, rfl⟩
          exact ⟨rfl, rfl, rfl⟩

/-- A branch below a node is a branch child of it, or below one. -/
theorem mem_subtypes {c b : Node} :
    b ∈ c.subtypes ↔ ∃ b₀ ∈ c.children, b₀.kind = .subtype ∧ (b = b₀ ∨ b ∈ b₀.subtypes) := by
  obtain ⟨info, children, sp⟩ := c
  simp only [subtypes]
  induction children with
  | nil => simp [subtypes.subtypesOf]
  | cons b₀ cs ih =>
    simp only [subtypes.subtypesOf, List.mem_append, ih, List.exists_mem_cons_iff]
    by_cases hk : b₀.kind = .subtype
    · simp [hk]
    · simp [hk]

theorem sizeOf_lt_of_mem_children {b c : Node} (h : b ∈ c.children) : sizeOf b < sizeOf c := by
  obtain ⟨info, children, sp⟩ := c
  have := List.sizeOf_lt_of_mem (show b ∈ children from h)
  simp only [Node.mk.sizeOf_spec]
  omega

theorem mem_subtypes_of_branch {c b : Node} (hb : b ∈ c.children) (hk : b.kind = .subtype) :
    b ∈ c.subtypes :=
  mem_subtypes.2 ⟨b, hb, hk, .inl rfl⟩

theorem subtypes_subset_of_branch {c b : Node} (hb : b ∈ c.children) (hk : b.kind = .subtype) :
    b.subtypes ⊆ c.subtypes :=
  fun _ h => mem_subtypes.2 ⟨b, hb, hk, .inr h⟩

/-- The types of the branches below a node. -/
def branchTypes (c : Node) : List ModelType := c.subtypes.filterMap (·.modelType)

theorem mem_branchTypes {c b : Node} {B : ModelType} (hb : b ∈ c.subtypes)
    (hB : b.modelType = some B) : B ∈ c.branchTypes :=
  List.mem_filterMap.2 ⟨b, hb, hB⟩

theorem branchTypes_subset_of_branch {c b : Node} (hb : b ∈ c.children)
    (hk : b.kind = .subtype) : b.branchTypes ⊆ c.branchTypes := by
  intro B h
  obtain ⟨b', hb', hB⟩ := List.mem_filterMap.1 h
  exact mem_branchTypes (subtypes_subset_of_branch hb hk hb') hB

/-- What validation makes of the branches below a node: every branch has a type, and the
branches of a branch have types below its own. -/
structure BranchesNest (c : Node) : Prop where
  typed : ∀ b ∈ c.subtypes, b.modelType.isSome
  nested : ∀ b ∈ c.subtypes, ∀ b' ∈ b.children, b'.kind = .subtype →
    ∀ {B B' : ModelType}, b.modelType = some B → b'.modelType = some B' → B'.isSubtypeOf B = true

theorem BranchesNest.branch {c b : Node} (hc : c.BranchesNest) (hb : b ∈ c.children)
    (hk : b.kind = .subtype) : b.BranchesNest where
  typed b' h := hc.typed b' (subtypes_subset_of_branch hb hk h)
  nested b' h := hc.nested b' (subtypes_subset_of_branch hb hk h)

/-- The type of a branch child, which validation guarantees. -/
theorem BranchesNest.type_of_branch {c b : Node} (hc : c.BranchesNest) (hb : b ∈ c.children)
    (hk : b.kind = .subtype) : ∃ B, b.modelType = some B :=
  Option.isSome_iff_exists.1 (hc.typed b (mem_subtypes_of_branch hb hk))

/-- A route's guard lets objects of type `t` through. -/
def Admits (t : ModelType) (g : Option ModelType) : Prop := ∀ G, g = some G → t.isSubtypeOf G = true

/-- A route is named for the node it reaches, which is no branch. -/
theorem name_of_mem_routes {c m : Node} {x : String} {g : Option ModelType}
    (hr : (x, m, g) ∈ c.routes) : m.name = some x ∧ m.kind ≠ .subtype := by
  obtain ⟨b, hb, ⟨hk, rfl, hn, -⟩ | ⟨-, g', hr', -⟩⟩ := mem_routes.1 hr
  · exact ⟨hn, hk⟩
  · exact name_of_mem_routes hr'
termination_by sizeOf c
decreasing_by exact sizeOf_lt_of_mem_children hb

section Guards

variable {ts : List ModelType} {t : ModelType}

/-- An object admitted by the guard of a route through a typed node `d` is below `d`'s type:
the guard is the type of the innermost branch passed, and every branch's type is below the
one around it. -/
theorem isSubtypeOf_of_guard (hcoh : ModelType.Coherent ts) (ht : t.chain ⊆ ts) {d : Node}
    (hd : d.BranchesNest) (hts : d.branchTypes ⊆ ts) {B : ModelType}
    (hB : ∀ b ∈ d.children, b.kind = .subtype → ∀ {B'}, b.modelType = some B' →
      B'.isSubtypeOf B = true)
    {x : String} {m : Node} {G : ModelType} (hr : (x, m, some G) ∈ d.routes)
    (hG : t.isSubtypeOf G = true) : t.isSubtypeOf B = true := by
  obtain ⟨b, hb, ⟨-, -, -, hg⟩ | ⟨hk, g', hr', hg⟩⟩ := mem_routes.1 hr
  · cases hg
  obtain ⟨B', hB'⟩ := hd.type_of_branch hb hk
  have hmem : B' ∈ ts := hts (mem_branchTypes (mem_subtypes_of_branch hb hk) hB')
  -- below the branch's own type first: directly when the route's guard is that type, else
  -- through the branches inside it
  have htB' : t.isSubtypeOf B' = true := by
    cases g' with
    | none =>
      simp only [hB', Option.orElse_eq_orElse, Option.orElse_eq_or, Option.none_or,
        Option.some.injEq] at hg
      exact hg ▸ hG
    | some G' =>
      simp only [Option.orElse_eq_orElse, Option.orElse_eq_or, Option.some_or,
        Option.some.injEq] at hg
      subst hg
      exact isSubtypeOf_of_guard hcoh ht (hd.branch hb hk)
        (List.Subset.trans (branchTypes_subset_of_branch hb hk) hts)
        (fun b' hb' hk' _ hB'' => hd.nested b (mem_subtypes_of_branch hb hk) b' hb' hk' hB' hB'')
        hr' hG
  exact ModelType.isSubtypeOf_trans hcoh ht hmem htB' (hB b hb hk hB')
termination_by sizeOf d
decreasing_by exact sizeOf_lt_of_mem_children hb

/-- A route whose guard admits `t` reaches a node that generation writes for `t`. -/
theorem emittedFor_of_route (hcoh : ModelType.Coherent ts) (ht : t.chain ⊆ ts) {c : Node}
    (hc : c.BranchesNest) (hts : c.branchTypes ⊆ ts) {x : String} {m : Node}
    {g : Option ModelType} (hr : (x, m, g) ∈ c.routes) (hg : Admits t g) :
    m ∈ c.emittedFor t := by
  obtain ⟨b, hb, hcase⟩ := mem_routes.1 hr
  refine mem_emittedFor.2 ⟨b, hb, mem_emittedBy.2 ?_⟩
  rcases hcase with ⟨hk, rfl, -, -⟩ | ⟨hk, g', hr', rfl⟩
  · exact .inl ⟨hk, rfl⟩
  obtain ⟨B, hB⟩ := hc.type_of_branch hb hk
  have hb' := hc.branch hb hk
  have hts' := List.Subset.trans (branchTypes_subset_of_branch hb hk) hts
  -- the guard through `b` is the inner guard when there is one, else `b`'s type
  cases g' with
  | none =>
    have htB : t.isSubtypeOf B = true := hg B (by simp [hB])
    exact .inr ⟨hk, B, hB, htB, emittedFor_of_route hcoh ht hb' hts' hr' (by simp [Admits])⟩
  | some G =>
    have htG : t.isSubtypeOf G = true := hg G rfl
    have htB : t.isSubtypeOf B = true :=
      isSubtypeOf_of_guard hcoh ht hb' hts'
        (fun b' hb'' hk' _ hB' => hc.nested b (mem_subtypes_of_branch hb hk) b' hb'' hk' hB hB')
        hr' htG
    exact .inr ⟨hk, B, hB, htB, emittedFor_of_route hcoh ht hb' hts' hr' hg⟩
termination_by sizeOf c
decreasing_by all_goals exact sizeOf_lt_of_mem_children hb

end Guards

/-- Every named node generation writes for `t` has a route whose guard admits `t`. -/
theorem route_of_emittedFor {c m : Node} {t : ModelType} {x : String}
    (hm : m ∈ c.emittedFor t) (hx : m.name = some x) :
    ∃ g, (x, m, g) ∈ c.routes ∧ Admits t g := by
  obtain ⟨b, hb, hcase⟩ := mem_emittedFor.1 hm
  rcases mem_emittedBy.1 hcase with ⟨hk, rfl⟩ | ⟨hk, B, hB, htB, hm'⟩
  · exact ⟨none, mem_routes.2 ⟨m, hb, .inl ⟨hk, rfl, hx, rfl⟩⟩, by simp [Admits]⟩
  · obtain ⟨g', hr', hg'⟩ := route_of_emittedFor hm' hx
    refine ⟨g' <|> b.modelType, mem_routes.2 ⟨b, hb, .inr ⟨hk, g', hr', rfl⟩⟩, ?_⟩
    cases g' with
    | none => simpa [Admits, hB] using htB
    | some G => simpa using hg'
termination_by sizeOf c
decreasing_by exact sizeOf_lt_of_mem_children hb

/-- Staging routes a named node that generation writes for `t` to that node: in a container
with a discriminator whose written nodes have distinct names, or whose routes have distinct
names, at any namespace the node takes. -/
theorem route?_eq_of_emittedFor {ts : List ModelType} {t : ModelType}
    (hcoh : ModelType.Coherent ts) (ht : t.chain ⊆ ts) {c n : Node} (hc : c.BranchesNest)
    (hts : c.branchTypes ⊆ ts) (hdisc : c.discriminated = true ∨ (c.routes.map (·.1)).Nodup)
    (hnames : ((c.emittedFor t).filterMap Node.name).Nodup) (hn : n ∈ c.emittedFor t)
    {x : String} (hx : n.name = some x) {ns : Option String}
    (hns : n.info.ns = none ∨ n.info.ns = ns) : c.route? x ns t = some n := by
  unfold route?
  obtain ⟨g, hr, hg⟩ := route_of_emittedFor hn hx
  refine find?_map_eq_of_unique ⟨(x, n, g), hr, ?_⟩ ?_
  · -- the node's own route qualifies
    have hnsok : (n.info.ns.isNone || n.info.ns == ns) = true := by
      rcases hns with h | h <;> simp [h]
    cases g with
    | none => simp [hnsok]
    | some G => simp [hnsok, hg G rfl]
  · rintro ⟨y, m, g'⟩ hr' hp
    have hy : y = x := by
      simp only [Bool.and_eq_true, beq_iff_eq] at hp
      exact hp.1.1
    subst hy
    rcases hdisc with hd | hd
    · -- under a discriminator a qualifying route is admitted, so it reaches a written node of
      -- the name
      have hadm : Admits t g' := by
        intro G hG
        subst hG
        simp only [hd, Bool.and_eq_true, Bool.not_true, Bool.false_or] at hp
        exact hp.2
      exact eq_of_mem_of_names_nodup hnames (emittedFor_of_route hcoh ht hc hts hr' hadm) hn
        (name_of_mem_routes hr').1 hx
    · -- the node's own route is the only route of the name
      have hsame := List.inj_on_of_nodup_map hd hr' hr rfl
      simp only [Prod.mk.injEq] at hsame
      exact hsame.2.1

end Node

-- ============================================================ what validation establishes

/-- A loop that only ever goes on, and ends well, ran its body well on every element. -/
theorem forIn_yield_ok {ε α : Type} {f : α → PUnit → Except ε (ForInStep PUnit)}
    (hf : ∀ a r, f a PUnit.unit = .ok r → r = .yield PUnit.unit) :
    ∀ {l : List α}, forIn l PUnit.unit f = .ok PUnit.unit →
      ∀ a ∈ l, f a PUnit.unit = .ok (.yield PUnit.unit)
  | [], _, a, ha => by simp at ha
  | b :: l, h, a, ha => by
    rw [List.forIn_cons] at h
    cases hb : f b PUnit.unit with
    | error e =>
      rw [hb] at h
      cases h
    | ok r =>
      have hr := hf b r hb
      subst hr
      rw [hb] at h
      rcases List.mem_cons.1 ha with rfl | ha'
      · exact hb
      · exact forIn_yield_ok hf h a ha'

/-- A check of every element that passes passed on each. -/
theorem forM_ok {ε α : Type} {f : α → Except ε Unit} :
    ∀ {l : List α}, l.forM f = .ok () → ∀ a ∈ l, f a = .ok ()
  | [], _, a, ha => by simp at ha
  | b :: l, h, a, ha => by
    rw [List.forM_eq_forM, List.forM_cons] at h
    obtain ⟨u, hb, hl⟩ := Time.except_bind_eq_ok.1 h
    rcases List.mem_cons.1 ha with rfl | ha'
    · exact hb
    · exact forM_ok hl a ha'

namespace Node

theorem height_le_heights {c : Node} {cs : List Node} (h : c ∈ cs) :
    c.height ≤ height.heights cs := by
  induction cs with
  | nil => simp at h
  | cons d cs ih =>
    simp only [height.heights]
    rcases List.mem_cons.1 h with rfl | h'
    · omega
    · have := ih h'
      omega

/-- A tree has no nodes below its height. -/
theorem level_eq_nil : ∀ {k : Nat} {n : Node}, n.height ≤ k → n.level k = []
  | 0, ⟨_, _, _⟩, h => by simp [height] at h
  | k + 1, ⟨_, children, _⟩, h => by
    simp only [height] at h
    simp only [level, List.flatMap_eq_nil_iff]
    intro c hc
    exact level_eq_nil (by have := height_le_heights hc; omega)

theorem mem_breadthFirst {m n : Node} : m ∈ n.breadthFirst ↔ ∃ k, m ∈ n.level k := by
  simp only [breadthFirst, List.mem_flatMap, List.mem_range]
  constructor
  · rintro ⟨k, -, hk⟩
    exact ⟨k, hk⟩
  · rintro ⟨k, hk⟩
    refine ⟨k, ?_, hk⟩
    by_contra hle
    rw [level_eq_nil (by omega)] at hk
    simp at hk

theorem mem_breadthFirst_self (n : Node) : n ∈ n.breadthFirst :=
  mem_breadthFirst.2 ⟨0, List.mem_singleton_self n⟩

/-- The children of a node of a level are on the next one. -/
theorem mem_level_succ : ∀ {k : Nat} {n m b : Node}, m ∈ n.level k → b ∈ m.children →
    b ∈ n.level (k + 1)
  | 0, n, m, b, hm, hb => by
    simp only [level, List.mem_singleton] at hm
    subst hm
    simpa [level] using hb
  | k + 1, n, m, b, hm, hb => by
    simp only [level, List.mem_flatMap] at hm
    obtain ⟨c, hc, hmc⟩ := hm
    exact List.mem_flatMap.2 ⟨c, hc, mem_level_succ hmc hb⟩

theorem mem_breadthFirst_of_child {n m b : Node} (hm : m ∈ n.breadthFirst)
    (hb : b ∈ m.children) : b ∈ n.breadthFirst := by
  obtain ⟨k, hk⟩ := mem_breadthFirst.1 hm
  exact mem_breadthFirst.2 ⟨k + 1, mem_level_succ hk hb⟩

/-- The branches below a listed node are listed. -/
theorem mem_breadthFirst_of_subtypes {n m b : Node} (hm : m ∈ n.breadthFirst)
    (hb : b ∈ m.subtypes) : b ∈ n.breadthFirst := by
  obtain ⟨b₀, hb₀, -, rfl | hb'⟩ := mem_subtypes.1 hb
  · exact mem_breadthFirst_of_child hm hb₀
  · exact mem_breadthFirst_of_subtypes (mem_breadthFirst_of_child hm hb₀) hb'
termination_by sizeOf m
decreasing_by exact sizeOf_lt_of_mem_children hb₀

theorem kind_of_mem_subtypes {c b : Node} (hb : b ∈ c.subtypes) : b.kind = .subtype := by
  obtain ⟨b₀, hb₀, hk, rfl | hb'⟩ := mem_subtypes.1 hb
  · exact hk
  · exact kind_of_mem_subtypes hb'
termination_by sizeOf c
decreasing_by exact sizeOf_lt_of_mem_children hb₀

/-- A branch that passes its accessor check has a type. -/
theorem typed_of_checkAccessor {b : Node} (h : b.checkAccessor = .ok ())
    (hk : b.kind = .subtype) : b.modelType.isSome := by
  unfold checkAccessor at h
  simp only [hk, NodeKind.isProperty, NodeKind.isObjectShaped] at h
  cases hB : b.modelType with
  | none => simp [hB] at h
  | some B => rfl

/-- A typed container that passes its check has direct branches of types below its own. -/
theorem nested_of_checkContainer {b b' : Node} {B B' : ModelType} (h : b.checkContainer = .ok ())
    (hB : b.modelType = some B) (hb' : b' ∈ b.children) (hk' : b'.kind = .subtype)
    (hB' : b'.modelType = some B') : B'.isSubtypeOf B = true := by
  unfold checkContainer at h
  simp only [hB] at h
  obtain ⟨u, hfor, -⟩ := Time.except_bind_eq_ok.1 h
  have hstep := forIn_yield_ok (by
    intro a r ha
    repeat' split at ha
    all_goals first
      | (cases ha; rfl)
      | simp [throw, throwThe, MonadExceptOf.throw, bind, Except.bind] at ha) hfor b' hb'
  simp only [hk', beq_self_eq_true, if_true, hB'] at hstep
  by_contra hsub
  rw [Bool.not_eq_true] at hsub
  simp [hsub, throw, throwThe, MonadExceptOf.throw, bind, Except.bind] at hstep

end Node

namespace Template

/-- Validation checks every node breadth first. -/
theorem checks_of_validate {root n : Node} (h : validate root = .ok ())
    (hn : n ∈ root.breadthFirst) :
    n.checkAccessor = .ok () ∧
      ((n.kind.isObjectShaped || n.name.isNone) = true → n.checkContainer = .ok ()) := by
  have hn' := forM_ok h n hn
  obtain ⟨u, hacc, hcont⟩ := Time.except_bind_eq_ok.1 hn'
  refine ⟨hacc, fun hc => ?_⟩
  simpa [hc] using hcont

/-- In a validated tree, the branches below every node nest. -/
theorem branchesNest_of_validate {root c : Node} (h : validate root = .ok ())
    (hc : c ∈ root.breadthFirst) : c.BranchesNest where
  typed b hb :=
    Node.typed_of_checkAccessor (checks_of_validate h (Node.mem_breadthFirst_of_subtypes hc hb)).1
      (Node.kind_of_mem_subtypes hb)
  nested b hb b' hb' hk' B B' hB hB' := by
    have hchecks := checks_of_validate h (Node.mem_breadthFirst_of_subtypes hc hb)
    -- a branch is object-shaped, so validation checks it as a container
    have hcont : b.checkContainer = .ok () :=
      hchecks.2 (by simp [Node.kind_of_mem_subtypes hb, NodeKind.isObjectShaped])
    exact Node.nested_of_checkContainer hcont hB hb' hk' hB' 


end Template

/-- A built template passed validation. -/
theorem Builder.validate_of_build {b : Builder} {T : Template} (h : b.build = .ok T) :
    Template.validate T.root = .ok () := by
  unfold Builder.build at h
  split at h
  · cases h
  obtain ⟨⟨root, next⟩, -, h⟩ := Time.except_bind_eq_ok.1 h
  obtain ⟨u, hv, hT⟩ := Time.except_bind_eq_ok.1 h
  cases hT
  exact hv


-- ============================================================ routing what generation writes

namespace Sample

/-- Vehicles, with a branch for trucks under a discriminator. -/
def vehicleType : ModelType := { name := "Vehicle", props := [.field "name" (.scalar .string)] }

def truckType : ModelType :=
  { name := "Truck", supertype := some vehicleType, props := [.field "load" (.scalar .string)] }

def vehicleBuilder : Builder :=
  (((Builder.forObject vehicleType).discriminator).value "name").subtype truckType
    |>.value "load" |>.close

def vehicleTemplate : Template := vehicleBuilder.build.toOption.getD default

/-- One truck. -/
def truckStart : RunState :=
  { store :=
      let (st, h) := ({} : Store).newObject truckType
      (st.setField h "name" (.scalar (.string "t"))).setField h "load" (.scalar (.string "l")) }

end Sample

namespace Sample

/-- Two branches of one base, each declaring `x`, with different types, and no discriminator. -/
def branchBase : ModelType := { name := "Base", props := [] }

def intBranch : ModelType :=
  { name := "B1", supertype := some branchBase, props := [.field "x" (.scalar .int)] }

def stringBranch : ModelType :=
  { name := "B2", supertype := some branchBase, props := [.field "x" (.scalar .string)] }

def twoBranchBuilder : Builder :=
  ((Builder.forObject branchBase).subtype intBranch |>.value "x" |>.close).subtype stringBranch
    |>.value "x" |>.close

def twoBranchTemplate : Template := twoBranchBuilder.build.toOption.getD default

/-- One object of the second branch, with `x` set to a text. -/
def stringBranchStart : RunState :=
  { store :=
      let (st, h) := ({} : Store).newObject stringBranch
      st.setField h "x" (.scalar (.string "abc")) }

/-- The view generated for that object. -/
def stringBranchView : View :=
  #[⟨.beginObject, none, none, none⟩, ⟨.value, some "x", none, some (.string "abc")⟩,
    Event.endObject]

end Sample

end GraphViews

import Mathlib
import GraphViews.Proofs.Routing
/-!
# A discriminator resolves back to the type it classified

Generation writes, for an object under a container with a discriminator child, the class its
strategy gives the object's type. Staging resolves that class among the container's candidates:
its own type, then the type of every branch below it (`Node.candidates`), and succeeds only when
exactly one candidate has the class.

The main statement, `first_discriminator_resolves_class`, says that in every template the
builder accepts, for every typed container and the strategy of its first discriminator child:

* the candidates are the container's type followed by the types of the branches below it, the
  same types validation classifies (`Node.candidates_eq`);
* resolving the class of any candidate gives that candidate back;
* so reading a discriminator event carrying that class narrows the entity to the candidate.

Validation classifies with the first discriminator child only. A second discriminator child with
a strategy that does not tell the types apart passes validation and cannot resolve
(`second_discriminator_unchecked`).

# How the proofs go

Validation's check of a container folds the branch types, refusing one named twice, and then
folds their classes after the container's own, refusing a class met before
(`Node.classes_apart_of_checkContainer`). The classes of the candidates are then pairwise
apart, and a class picks out exactly one of them (`Strategy.resolve_classify`).
-/

namespace GraphViews

-- ============================================================ candidates and branch types

namespace Node

theorem candidatesOf_eq :
    ∀ cs : List Node, candidates.candidatesOf cs = (subtypes.subtypesOf cs).filterMap modelType
  | [] => rfl
  | ⟨info, children, sp⟩ :: cs => by
    simp only [candidates.candidatesOf, subtypes.subtypesOf, List.filterMap_append,
      candidatesOf_eq cs]
    congr 1
    split
    · rw [List.filterMap_cons]
      cases hm : info.modelType <;>
        simp [candidates, subtypes, candidatesOf_eq children, modelType, hm]
    · rfl
termination_by cs => sizeOf cs

/-- The candidates of a typed node are its type followed by the types of the branches below
it, in the order validation lists the branches. -/
theorem candidates_eq {n : Node} {base : ModelType} (h : n.modelType = some base) :
    n.candidates = base :: n.branchTypes := by
  obtain ⟨info, children, sp⟩ := n
  simp only [modelType] at h
  simp only [candidates, h, Option.toList_some, List.singleton_append, branchTypes, subtypes,
    candidatesOf_eq]

end Node

-- ============================================================ resolving a class

namespace Strategy

/-- A class equals itself: every strategy classes types by a text or an integer. -/
theorem classify_beq_self (s : Strategy) (t : ModelType) :
    (s.classify t == s.classify t) = true := by
  cases s <;> simp [classify, BEq.beq, Scalar.beq]

theorem classify_beq_comm (s : Strategy) (a b : ModelType) :
    (s.classify a == s.classify b) = (s.classify b == s.classify a) := by
  cases s <;> simp [classify, BEq.beq, Scalar.beq, eq_comm]

/-- The classes of a list of types are pairwise apart. -/
def Apart (s : Strategy) (ts : List ModelType) : Prop :=
  ts.Pairwise fun a b => (s.classify a == s.classify b) = false

/-- Among types whose classes are apart, the class of one picks out that one alone. -/
theorem filter_classify_eq {s : Strategy} {t : ModelType} :
    ∀ {ts : List ModelType}, s.Apart ts → t ∈ ts →
      ts.filter (fun c => s.classify c == s.classify t) = [t]
  | [], _, ht => by simp at ht
  | a :: ts, hp, ht => by
    rw [Apart, List.pairwise_cons] at hp
    rcases List.mem_cons.1 ht with rfl | ht
    · rw [List.filter_cons_of_pos (p := fun c => s.classify c == s.classify t)
        (classify_beq_self s t), List.filter_eq_nil_iff.2]
      intro b hb
      rw [classify_beq_comm, hp.1 b hb]
      decide
    · rw [List.filter_cons_of_neg (by simp [hp.1 t ht]), filter_classify_eq hp.2 ht]

/-- Among candidates whose classes are apart, resolving the class of one gives that one. -/
theorem resolve_classify {s : Strategy} {ts : List ModelType} {t : ModelType} (hp : s.Apart ts)
    (ht : t ∈ ts) : s.resolve (s.classify t) ts = .ok t := by
  simp [resolve, filter_classify_eq hp ht]

end Strategy

-- ============================================================ what validation checks

/-- A fold that appends the type of each node, when it has one, collects the types. -/
theorem foldlM_types {ε : Type} {f : List ModelType → Node → Except ε (List ModelType)}
    (hf : ∀ acc b r, f acc b = .ok r → r = acc ++ b.modelType.toList) :
    ∀ {bs : List Node} {acc r : List ModelType}, bs.foldlM f acc = .ok r →
      r = acc ++ bs.filterMap Node.modelType
  | [], acc, r, h => by
    simp only [List.foldlM_nil, pure, Except.pure, Except.ok.injEq] at h
    simp [h]
  | b :: bs, acc, r, h => by
    rw [List.foldlM_cons] at h
    obtain ⟨acc', hb, hrest⟩ := Time.except_bind_eq_ok.1 h
    rw [foldlM_types hf hrest, hf acc b acc' hb, List.filterMap_cons]
    cases b.modelType <;> simp

/-- A fold that refuses a type whose class it met before, and records each class it meets,
leaves the classes of all the types it went through apart. -/
theorem foldlM_classes_apart {ε : Type} {s : Strategy}
    {f : List (Scalar × ModelType) → ModelType → Except ε (List (Scalar × ModelType))}
    (hf : ∀ acc t r, f acc t = .ok r →
      (∀ p ∈ acc, (p.1 == s.classify t) = false) ∧ r = acc ++ [(s.classify t, t)]) :
    ∀ {ts l : List ModelType} {r : List (Scalar × ModelType)}, s.Apart l →
      ts.foldlM f (l.map fun x => (s.classify x, x)) = .ok r → s.Apart (l ++ ts)
  | [], l, r, hx, _ => by simpa using hx
  | t :: ts, l, r, hx, h => by
    rw [List.foldlM_cons] at h
    obtain ⟨acc', ht, hrest⟩ := Time.except_bind_eq_ok.1 h
    obtain ⟨hnew, rfl⟩ := hf _ t acc' ht
    -- the new class is apart from every class met before
    have hx' : s.Apart (l ++ [t]) := by
      refine List.pairwise_append.2 ⟨hx, List.pairwise_singleton _ _, fun a ha b hb => ?_⟩
      rw [List.mem_singleton] at hb
      subst hb
      exact hnew (s.classify a, a) (List.mem_map_of_mem ha)
    have := foldlM_classes_apart hf hx' (by simpa [List.map_append] using hrest)
    simpa using this

namespace Node

/-- A typed container that passes its check has candidates whose classes, under the strategy
of its first discriminator child, are apart. -/
theorem classes_apart_of_checkContainer {c : Node} {base : ModelType} {s : Strategy}
    (h : c.checkContainer = .ok ()) (hbase : c.modelType = some base)
    (hs : (c.children.find? (·.kind == .discriminator)).bind (·.info.discriminator) = some s) :
    s.Apart (base :: c.branchTypes) := by
  unfold checkContainer at h
  simp only [hbase] at h
  obtain ⟨-, -, h⟩ := Time.except_bind_eq_ok.1 h
  obtain ⟨seen, hseen, h⟩ := Time.except_bind_eq_ok.1 h
  rw [hs] at h
  dsimp only at h
  obtain ⟨classified, hclasses, -⟩ := Time.except_bind_eq_ok.1 h
  -- the first fold collects the branch types, refusing a name met twice
  have hseen' : seen = c.branchTypes := by
    refine (foldlM_types (fun acc b r hb => ?_) hseen).trans (List.nil_append _)
    split at hb
    · cases hb
      simp [*]
    · split at hb
      · cases hb
      · cases hb
        simp [*]
  subst hseen'
  -- the second folds their classes after the container's own
  refine foldlM_classes_apart (l := [base]) (fun acc t r ht => ?_) (List.pairwise_singleton _ _)
    hclasses
  split at ht
  · cases ht
  · rename_i hnone
    cases ht
    exact ⟨fun p hp => by simpa using List.find?_eq_none.1 hnone p hp, rfl⟩

end Node

-- ============================================================ reading the class back

/-- A discriminator event whose class resolves among the candidates narrows to the resolved
type, consuming the event. -/
theorem Stage.discriminator_resolved (ctx : Context) {d : Node} {candidates : List ModelType}
    {s : Strategy} {cur : Cursor} {e : Event} {t : ModelType} (he : cur.peek = some e)
    (hk : e.kind = .discriminator) (hs : d.info.discriminator = some s)
    (hres : s.resolve (e.value.getD .null) candidates = .ok t) :
    Stage.discriminator ctx d candidates cur = .ok t { cur with pos := cur.pos + 1 } := by
  have hnext := next_ok ctx "DISCRIMINATOR"
    (Reading.next_leaf "DISCRIMINATOR" he (by simp [hk, EventKind.isBegin])
      (by simp [hk, EventKind.isEnd]))
  simp [Stage.discriminator, hnext, hk, hs, hres, bind, EStateM.bind, pure, EStateM.pure]

-- ============================================================ the first discriminator child

/-- In a template the builder accepts, take a typed container and the strategy of its first
discriminator child. Its candidates are its type followed by the types of the branches below
it, and resolving the class of any candidate gives that candidate back; so reading a
discriminator event that carries the class narrows the entity to that candidate. -/
theorem first_discriminator_resolves_class {b : Builder} {T : Template} (hb : b.build = .ok T)
    {c : Node} (hc : c ∈ T.nodes) (hk : c.kind.isObjectShaped = true) {base : ModelType}
    (hbase : c.modelType = some base) {d : Node}
    (hd : c.children.find? (·.kind == .discriminator) = some d) {s : Strategy}
    (hs : d.info.discriminator = some s) :
    c.candidates = base :: c.branchTypes ∧
      ∀ t ∈ c.candidates, s.resolve (s.classify t) c.candidates = .ok t ∧
        ∀ (ctx : Context) (cur : Cursor) (e : Event), cur.peek = some e →
          e.kind = .discriminator → e.value = some (s.classify t) →
          Stage.discriminator ctx d c.candidates cur = .ok t { cur with pos := cur.pos + 1 } := by
  -- validation checked the container, which is object-shaped
  have hcheck : c.checkContainer = .ok () :=
    (Template.checks_of_validate (Builder.validate_of_build hb) hc).2 (by simp [hk])
  have hcands := Node.candidates_eq hbase
  have hapart : s.Apart c.candidates :=
    hcands ▸ Node.classes_apart_of_checkContainer hcheck hbase (by simp [hd, hs])
  refine ⟨hcands, fun t ht => ⟨Strategy.resolve_classify hapart ht, ?_⟩⟩
  intro ctx cur e he hke hv
  refine Stage.discriminator_resolved ctx he hke hs ?_
  rw [hv, Option.getD_some]
  exact Strategy.resolve_classify hapart ht

/-- The vehicle template's discriminator resolves the class of every vehicle candidate. -/
theorem vehicle_discriminator_resolves :
    Sample.vehicleBuilder.build = .ok Sample.vehicleTemplate ∧
    Sample.vehicleTemplate.root ∈ Sample.vehicleTemplate.nodes ∧
    Sample.vehicleTemplate.root.kind.isObjectShaped = true ∧
    Sample.vehicleTemplate.root.modelType = some Sample.vehicleType ∧
    Sample.vehicleTemplate.root.children.find? (·.kind == .discriminator) =
      some (Sample.vehicleTemplate.root.children.headD default) ∧
    (Sample.vehicleTemplate.root.children.headD default).info.discriminator = some .simple ∧
    (Sample.vehicleTemplate.root.candidates =
        Sample.vehicleType :: Sample.vehicleTemplate.root.branchTypes ∧
      ∀ t ∈ Sample.vehicleTemplate.root.candidates,
        Strategy.simple.resolve (Strategy.simple.classify t)
          Sample.vehicleTemplate.root.candidates = .ok t ∧
        ∀ (ctx : Context) (cur : Cursor) (e : Event), cur.peek = some e →
          e.kind = .discriminator → e.value = some (Strategy.simple.classify t) →
          Stage.discriminator ctx (Sample.vehicleTemplate.root.children.headD default)
            Sample.vehicleTemplate.root.candidates cur =
              .ok t { cur with pos := cur.pos + 1 }) := by
  have hb : Sample.vehicleBuilder.build = .ok Sample.vehicleTemplate := by cbv
  have hk : Sample.vehicleTemplate.root.kind.isObjectShaped = true := by cbv
  have hbase : Sample.vehicleTemplate.root.modelType = some Sample.vehicleType := by cbv
  have hd : Sample.vehicleTemplate.root.children.find? (·.kind == .discriminator) =
      some (Sample.vehicleTemplate.root.children.headD default) := by cbv
  have hs : (Sample.vehicleTemplate.root.children.headD default).info.discriminator =
      some .simple := by cbv
  exact ⟨hb, Node.mem_breadthFirst_self _, hk, hbase, hd, hs,
    first_discriminator_resolves_class hb (Node.mem_breadthFirst_self _) hk hbase hd hs⟩

-- ============================================================ a second discriminator child

namespace Sample

/-- Shapes with a branch for circles and two discriminators: the type's name as `type`, and the
constant class `x` as `kind`. -/
def kindedShapeBuilder : Builder :=
  ((((Builder.forObject shapeType).discriminator).discriminatorWith "kind" .constant).value
    "name").subtype circleType |>.value "radius" |>.close

def kindedShapeTemplate : Template := kindedShapeBuilder.build.toOption.getD default

end Sample

/-- Validation classifies with the first discriminator child only: the builder accepts a
template whose second discriminator classes every type as `x`, and resolving the class of the
circle branch there is ambiguous, so applying a circle's own view fails at that discriminator. -/
theorem second_discriminator_unchecked :
    Sample.kindedShapeBuilder.build = .ok Sample.kindedShapeTemplate ∧
    (Sample.kindedShapeTemplate.root.children.filter (·.kind == .discriminator)).map
      (·.info.discriminator) = [some .simple, some .constant] ∧
    Sample.kindedShapeTemplate.root.candidates = [Sample.shapeType, Sample.circleType] ∧
    Strategy.constant.resolve (Strategy.constant.classify Sample.circleType)
        Sample.kindedShapeTemplate.root.candidates =
      .error (.ambiguousDiscriminator "Shape" "x") ∧
    (match Sample.kindedShapeTemplate.generate {} (.object 0) { store := Sample.circleStore } with
      | .ok v s =>
        match Sample.kindedShapeTemplate.apply {} v (.object 0) s with
        | .error e _ => e.kind.code.code = "V008"
        | .ok _ _ => False
      | .error _ _ => False) := by
  refine ⟨by cbv, by cbv, by cbv, by cbv, by cbv⟩

end GraphViews

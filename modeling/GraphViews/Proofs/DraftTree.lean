import Mathlib
import GraphViews.Template.Validate
import GraphViews.Proofs.Instants
import GraphViews.Proofs.Routing
/-!
# The drafts of a builder form a tree

A builder keeps its drafts in an array and links them by index: a draft lists the indices of
the drafts added under it among its children, next to nodes of templates built before, and
the open containers are a stack of indices. `finalize` turns draft `0` and the drafts below it
into nodes, taking each draft out of the array as it goes and failing on an index it finds
taken or when its fuel, the number of drafts, runs out.

The main statement, `drafts_form_tree`, says that for every root and every sequence of calls:

* the drafts form a tree rooted at draft `0` (`Builder.IsTree`): every other draft is listed by
  exactly one draft, once, and that draft has a smaller index; each list of drafts is in the
  order they were added; the open containers are a path from draft `0` down the tree;
* `finalize` never fails for a composition reason, so it never meets an index twice and never
  runs out of fuel, and when it succeeds it has taken every draft;
* a template built from the calls is the tree of the drafts' nodes, each node's children being
  the nodes of its draft's children in order, nodes of other templates shared as they were;
* a call that adds a draft lists it under the container that was innermost when it was made.

Beside the tree, a draft that is not an open container keeps its children, kind, name and type
(`Draft.outline`) through every later call (`IsTree.calls_outline`), a builder that has recorded
an error ignores every call, and the node of every draft is a node of the built template
(`IsTree.assemble_mem_nodes`).

# How the proofs go

Every call either leaves the tree alone, closes the innermost container, or adds a draft under
it (`Builder.TreeStep`, `Builder.call_treeStep`); each of the three keeps the tree
(`TreeStep.isTree`). Below a draft, reachability (`Builder.Reach`) follows the tree, so the
subtrees of two children of a draft are apart (`IsTree.reach_apart`). `finalize` is then the
fuel-free `Builder.assemble` as long as the fuel exceeds the depth still to go, which the
indices bound, and it takes exactly the drafts below the one it starts from
(`IsTree.finalize_eq`).
-/

namespace GraphViews

section MapM

variable {α β ε : Type} {f : α → Except ε β}

theorem mapM_eq_ok_map {g : α → β} :
    ∀ {l : List α}, (∀ x ∈ l, f x = .ok (g x)) → l.mapM f = .ok (l.map g)
  | [], _ => rfl
  | x :: l, h => by
    rw [List.mapM_cons, h x List.mem_cons_self,
      mapM_eq_ok_map fun y hy => h y (List.mem_cons_of_mem _ hy)]
    rfl

/-- A mapping that succeeds has succeeded on every element, and its results are among the
mapped ones. -/
theorem exists_ok_of_mapM_eq_ok :
    ∀ {l : List α} {ys : List β}, l.mapM f = .ok ys → ∀ x ∈ l, ∃ y, f x = .ok y ∧ y ∈ ys
  | [], _, _, x, hx => absurd hx List.not_mem_nil
  | x :: l, ys, h, y, hy => by
    rw [List.mapM_cons] at h
    obtain ⟨z, hx, h⟩ := Time.except_bind_eq_ok.1 h
    obtain ⟨zs, hl, h⟩ := Time.except_bind_eq_ok.1 h
    cases h
    rcases List.mem_cons.1 hy with rfl | hy
    · exact ⟨z, hx, List.mem_cons_self⟩
    · obtain ⟨y', hy', hmem⟩ := exists_ok_of_mapM_eq_ok hl y hy
      exact ⟨y', hy', List.mem_cons_of_mem _ hmem⟩

end MapM

namespace Child

/-- The index of a child that is a draft. -/
def index? : Child → Option Nat
  | .draft j => some j
  | .built _ => none

/-- The node of a child, given the node of every draft. -/
def resolve (node : Nat → Node) : Child → Node
  | .draft j => node j
  | .built n => n

end Child

/-- The indices of the drafts among a draft's children, in order. -/
def Draft.refs (d : Draft) : List Nat := d.children.filterMap Child.index?

@[simp] theorem Draft.children_default : (default : Draft).children = [] := rfl

@[simp] theorem Draft.refs_default : (default : Draft).refs = [] := rfl

theorem Draft.refs_append_draft (d : Draft) (j : Nat) :
    ({ d with children := d.children ++ [Child.draft j] } : Draft).refs = d.refs ++ [j] := by
  simp [Draft.refs, Child.index?]

/-- A draft's children, kind, name and type: what only its own addition and the drafts added
under it set, where the modifiers set its other settings. -/
def Draft.outline (d : Draft) : List Child × NodeKind × Option String × Option ModelType :=
  (d.children, d.kind, d.info.name, d.info.modelType)

namespace Builder

-- ============================================================ calls

/-- The roots a builder starts from. -/
inductive Root where
  | object (t : ModelType)
  | arrayOfObjects (t : ModelType)
  | arrayOfValues (k : ScalarKind)

/-- A call of the builder's interface. -/
inductive Call where
  | value (name : String)
  | object (name : String) (t : ModelType)
  | reference (name : String) (t : ModelType)
  | arrayOfObjects (name : String) (t : ModelType)
  | arrayOfReferences (name : String) (t : ModelType)
  | arrayOfValues (name : String) (k : ScalarKind)
  | mapOfValues (name : String) (k : ScalarKind)
  | mapOfObjects (name : String) (t : ModelType)
  | mapOfReferences (name : String) (t : ModelType)
  | envelope (name : String)
  | subtype (t : ModelType)
  | close
  | discriminator
  | discriminatorWith (name : String) (s : Strategy)
  | metaNode (name : String) (h : MetaHandler)
  | splice (name : String) (t : Template) (property : Option String)
  | objectTemplate (name : String) (t : Template)
  | referenceTemplate (name : String) (t : Template)
  | arrayTemplate (name : String) (t : Template)
  | mapTemplate (name : String) (t : Template)
  | converter (c : Converter)
  | keyConverter (c : Converter)
  | identity (names : List String)
  | namespace_ (ns : String)
  | accessMode (m : AccessModes)
  | manager (f : ManagerFactory)
  | coerce (sep : Char)

def Root.builder : Root → Builder
  | .object t => forObject t
  | .arrayOfObjects t => forArrayOfObjects t
  | .arrayOfValues k => forArrayOfValues k

/-- Makes one call. -/
def call (b : Builder) : Call → Builder
  | .value name => b.value name
  | .object name t => b.object name t
  | .reference name t => b.reference name t
  | .arrayOfObjects name t => b.arrayOfObjects name t
  | .arrayOfReferences name t => b.arrayOfReferences name t
  | .arrayOfValues name k => b.arrayOfValues name k
  | .mapOfValues name k => b.mapOfValues name k
  | .mapOfObjects name t => b.mapOfObjects name t
  | .mapOfReferences name t => b.mapOfReferences name t
  | .envelope name => b.envelope name
  | .subtype t => b.subtype t
  | .close => b.close
  | .discriminator => b.discriminator
  | .discriminatorWith name s => b.discriminatorWith name s
  | .metaNode name h => b.metaNode name h
  | .splice name t property => b.splice name t property
  | .objectTemplate name t => b.objectTemplate name t
  | .referenceTemplate name t => b.referenceTemplate name t
  | .arrayTemplate name t => b.arrayTemplate name t
  | .mapTemplate name t => b.mapTemplate name t
  | .converter c => b.converter c
  | .keyConverter c => b.keyConverter c
  | .identity names => b.identity names
  | .namespace_ ns => b.namespace_ ns
  | .accessMode m => b.accessMode m
  | .manager f => b.manager f
  | .coerce sep => b.coerce sep

/-- Makes the calls in order. -/
def calls (b : Builder) (cs : List Call) : Builder := cs.foldl call b

/-- The builder a root starts, after the calls. -/
def Root.run (r : Root) (cs : List Call) : Builder := r.builder.calls cs

@[simp] theorem calls_nil (b : Builder) : b.calls [] = b := rfl

@[simp] theorem calls_cons (b : Builder) (c : Call) (cs : List Call) :
    b.calls (c :: cs) = (b.call c).calls cs := rfl

theorem calls_append (b : Builder) (cs ds : List Call) :
    b.calls (cs ++ ds) = (b.calls cs).calls ds := List.foldl_append

-- ============================================================ the tree of drafts

/-- The drafts form a tree rooted at draft `0`, listed in the order they were added, and the
open containers are a path from draft `0` down it, innermost first. Only a builder for a list
of scalars has no open container, and it has no draft but its root. -/
structure IsTree (b : Builder) : Prop where
  root_mem : 0 < b.drafts.size
  forward {i j : Nat} : j ∈ (b.draftAt i).refs → i < j ∧ j < b.drafts.size
  unique {i i' j : Nat} : j ∈ (b.draftAt i).refs → j ∈ (b.draftAt i').refs → i = i'
  attached {j : Nat} : 0 < j → j < b.drafts.size → ∃ i, j ∈ (b.draftAt i).refs
  sorted (i : Nat) : (b.draftAt i).refs.Pairwise (· < ·)
  path : b.containers.IsChain fun c p => c ∈ (b.draftAt p).refs
  path_root : b.containers.getLast? = some 0 ∨ b.containers = [] ∧ b.drafts.size = 1

/-- What one call can do to the tree: leave it, close the innermost container, or add a draft
as the last child of the innermost container `p`, opening it if `enter`. -/
inductive TreeStep (b b' : Builder) : Prop where
  | keep (hc : b'.containers = b.containers) (hs : b'.drafts.size = b.drafts.size)
      (hr : ∀ i, (b'.draftAt i).refs = (b.draftAt i).refs)
  | close (c : Nat) (rest : List Nat) (hne : rest ≠ []) (hc : b.containers = c :: rest)
      (hc' : b'.containers = rest) (hs : b'.drafts.size = b.drafts.size)
      (hr : ∀ i, (b'.draftAt i).refs = (b.draftAt i).refs)
  | add (p : Nat) (rest : List Nat) (enter : Bool) (hc : b.containers = p :: rest)
      (hc' : b'.containers = if enter then b.drafts.size :: b.containers else b.containers)
      (hs : b'.drafts.size = b.drafts.size + 1)
      (hr : ∀ i, (b'.draftAt i).refs =
        if i = p then (b.draftAt i).refs ++ [b.drafts.size] else (b.draftAt i).refs)

variable {b b' : Builder}

-- ============================================================ each call is a tree step

/-- Changing drafts without touching their children leaves their lists of drafts alone. -/
theorem refs_modify {f : Draft → Draft} (hf : ∀ d, (f d).children = d.children) (k i : Nat) :
    ({ b with drafts := b.drafts.modify k f }.draftAt i).refs = (b.draftAt i).refs := by
  rw [draftAt, Array.getElem?_modify]
  split
  · cases h : b.drafts[i]? <;> simp [draftAt, Draft.refs, hf, h]
  · rfl

theorem fail_treeStep (e : TemplateError) : TreeStep b (b.fail e) := by
  unfold fail
  split <;> exact .keep rfl rfl fun _ => rfl

theorem modifyLast_treeStep {what : String} {allowed : List NodeKind} {f : Draft → Draft}
    (hf : ∀ d, (f d).children = d.children) : TreeStep b (b.modifyLast what allowed f) := by
  unfold modifyLast
  split
  · exact .keep rfl rfl fun _ => rfl
  · dsimp only
    split
    · exact fail_treeStep _
    · exact .keep rfl (Array.size_modify ..) (refs_modify hf _)

theorem identity_treeStep (names : List String) : TreeStep b (b.identity names) := by
  unfold identity
  split
  · exact .keep rfl rfl fun _ => rfl
  · split
    · exact fail_treeStep _
    · dsimp only
      split
      · exact fail_treeStep _
      · exact .keep rfl (Array.size_modify ..)
          (refs_modify (f := fun d => { d with identity := names }) (fun _ => rfl) _)

theorem close_treeStep : TreeStep b b.close := by
  unfold close
  split
  · exact .keep rfl rfl fun _ => rfl
  · split
    · next closed r r' hc =>
      exact .close closed (r :: r') (List.cons_ne_nil _ _) hc rfl rfl fun _ => rfl
    · exact fail_treeStep _

/-- Every open container is a draft of the builder. -/
theorem IsTree.lt_of_mem_containers (hb : b.IsTree) {c : Nat} (hc : c ∈ b.containers) :
    c < b.drafts.size := by
  -- down the path from draft `0`, each container is listed by the next
  refine hb.path.backwards_induction (· < b.drafts.size) _ (fun x y hxy _ => ?_)
    (fun hne => ?_) c hc
  · exact (hb.forward hxy).2
  · rcases hb.path_root with h | ⟨h, -⟩
    · rw [List.getLast?_eq_some_getLast hne, Option.some_inj] at h
      rw [h]
      exact hb.root_mem
    · exact absurd h hne

/-- A successful add puts the new draft last under the innermost container. -/
theorem add_treeStep (hb : b.IsTree) {d : Draft} (hd : d.refs = []) (enter : Bool) :
    TreeStep b (b.add d enter) := by
  unfold add
  split
  · exact .keep rfl rfl fun _ => rfl
  · split
    · exact fail_treeStep _
    · rename_i parent rest hc
      dsimp only
      split
      · exact fail_treeStep _
      · rename_i d' hlooked
        -- looking the accessor up changes the new draft's settings, never its children
        have hch : d'.refs = [] := by
          rw [← hd]
          revert hlooked
          repeat' split
          all_goals intro h; cases h <;> rfl
        have hp : parent < b.drafts.size := hb.lt_of_mem_containers (hc ▸ List.mem_cons_self ..)
        refine .add parent rest enter hc (by simp) (by simp) fun i => ?_
        simp only [draftAt, Array.getElem?_modify, Array.getElem?_push]
        by_cases hi : i = parent
        · subst hi
          simp only [if_true, Nat.ne_of_lt hp, if_false, Array.getElem?_eq_getElem hp,
            Option.map_some, Option.getD_some]
          exact Draft.refs_append_draft _ _
        · rw [if_neg (Ne.symm hi), if_neg hi]
          split
          · rename_i hn
            subst hn
            simp [hch]
          · rfl

theorem graft_treeStep (hb : b.IsTree) (kind : NodeKind) (name : String) (t : Template)
    (reference : Bool) : TreeStep b (b.graft kind name t reference) := by
  unfold graft
  dsimp only
  split
  · exact fail_treeStep _
  · exact add_treeStep hb (by simp [Draft.refs, Child.index?]) false

/-- Every call of the interface is a tree step. -/
theorem call_treeStep (hb : b.IsTree) (c : Call) : TreeStep b (b.call c) := by
  cases c with
  | close => exact close_treeStep
  | identity names => exact identity_treeStep names
  | objectTemplate name t => exact graft_treeStep hb _ _ _ _
  | referenceTemplate name t => exact graft_treeStep hb _ _ _ _
  | arrayTemplate name t => exact graft_treeStep hb _ _ _ _
  | mapTemplate name t => exact graft_treeStep hb _ _ _ _
  | converter c => exact modifyLast_treeStep fun _ => rfl
  | keyConverter c => exact modifyLast_treeStep fun _ => rfl
  | namespace_ ns => exact modifyLast_treeStep fun _ => rfl
  | accessMode m => exact modifyLast_treeStep fun _ => rfl
  | manager f => exact modifyLast_treeStep fun _ => rfl
  | coerce sep => exact modifyLast_treeStep fun _ => rfl
  -- every other call adds a draft that has no children yet
  | _ => exact add_treeStep hb rfl _

-- ============================================================ each tree step keeps the tree

/-- A step that changes no list of drafts keeps the tree, whether it keeps the open containers
or closes the innermost one of several. -/
theorem IsTree.of_refs_eq (hb : b.IsTree) (hs : b'.drafts.size = b.drafts.size)
    (hr : ∀ i, (b'.draftAt i).refs = (b.draftAt i).refs)
    (hcs : b'.containers = b.containers ∨
      ∃ c, b'.containers ≠ [] ∧ b.containers = c :: b'.containers) : b'.IsTree where
  root_mem := hs ▸ hb.root_mem
  forward h := hs ▸ hb.forward (hr _ ▸ h)
  unique h h' := hb.unique (hr _ ▸ h) (hr _ ▸ h')
  attached h0 hj := by simpa only [hr] using hb.attached h0 (hs ▸ hj)
  sorted i := hr i ▸ hb.sorted i
  path := by
    have hpath : b.containers.IsChain fun c p => c ∈ (b'.draftAt p).refs := by
      simpa only [hr] using hb.path
    rcases hcs with h | ⟨c, -, h⟩
    · exact h ▸ hpath
    · exact (h ▸ hpath).tail
  path_root := by
    rcases hcs with h | ⟨c, hne, h⟩
    · rw [h, hs]
      exact hb.path_root
    · rcases hb.path_root with h0 | ⟨h0, -⟩
      · rw [h, List.getLast?_cons, Option.some_inj] at h0
        cases hl : b'.containers.getLast? with
        | none => exact absurd (List.getLast?_eq_none_iff.1 hl) hne
        | some x =>
          rw [hl, Option.getD_some] at h0
          exact .inl (h0 ▸ rfl)
      · exact absurd (h ▸ h0) (List.cons_ne_nil _ _)

section Add

variable {p : Nat} {rest : List Nat} {enter : Bool}

/-- Adding a draft under the innermost container keeps the tree: the new index is larger than
every index listed before, so it is listed once, last, under the container alone. -/
theorem IsTree.add_step (hb : b.IsTree) (hc : b.containers = p :: rest)
    (hc' : b'.containers = if enter then b.drafts.size :: b.containers else b.containers)
    (hs : b'.drafts.size = b.drafts.size + 1)
    (hr : ∀ i, (b'.draftAt i).refs =
      if i = p then (b.draftAt i).refs ++ [b.drafts.size] else (b.draftAt i).refs) :
    b'.IsTree := by
  have hp : p < b.drafts.size := hb.lt_of_mem_containers (hc ▸ List.mem_cons_self ..)
  have hmem : ∀ i j, j ∈ (b'.draftAt i).refs ↔
      j ∈ (b.draftAt i).refs ∨ i = p ∧ j = b.drafts.size := by
    intro i j
    rw [hr]
    split <;> simp_all
  have hnew : ∀ {i}, b.drafts.size ∉ (b.draftAt i).refs := fun h => (hb.forward h).2.false
  refine ⟨by omega, fun h => ?_, fun h h' => ?_, fun {j} h0 hj => ?_, fun i => ?_, ?_, ?_⟩
  · rcases (hmem _ _).1 h with h | ⟨rfl, rfl⟩
    · have := hb.forward h
      omega
    · omega
  · rcases (hmem _ _).1 h with h | ⟨rfl, rfl⟩
    · rcases (hmem _ _).1 h' with h' | ⟨rfl, rfl⟩
      · exact hb.unique h h'
      · exact absurd h hnew
    · rcases (hmem _ _).1 h' with h' | ⟨rfl, -⟩
      · exact absurd h' hnew
      · rfl
  · by_cases hjn : j = b.drafts.size
    · exact ⟨p, (hmem _ _).2 (.inr ⟨rfl, hjn⟩)⟩
    · obtain ⟨i, hi⟩ := hb.attached h0 (by omega)
      exact ⟨i, (hmem _ _).2 (.inl hi)⟩
  · rw [hr]
    split
    · refine List.pairwise_append.2 ⟨hb.sorted i, List.pairwise_singleton _ _, ?_⟩
      intro a ha c hc
      rw [List.mem_singleton.1 hc]
      exact (hb.forward ha).2
    · exact hb.sorted i
  · have hold : b.containers.IsChain fun c q => c ∈ (b'.draftAt q).refs :=
      hb.path.imp fun c q h => (hmem _ _).2 (.inl h)
    rw [hc']
    split
    · rw [hc] at hold ⊢
      exact hold.cons_cons ((hmem _ _).2 (.inr ⟨rfl, rfl⟩))
    · exact hold
  · rcases hb.path_root with h0 | ⟨h0, -⟩
    · left
      rw [hc']
      split
      · rw [hc] at h0 ⊢
        rw [List.getLast?_cons_cons]
        exact h0
      · exact h0
    · exact absurd (hc ▸ h0) (List.cons_ne_nil _ _)

end Add

theorem TreeStep.isTree (hb : b.IsTree) : TreeStep b b' → b'.IsTree
  | .keep hc hs hr => hb.of_refs_eq hs hr (.inl hc)
  | .close c _ hne hc hc' hs hr => hb.of_refs_eq hs hr (.inr ⟨c, hc' ▸ hne, hc' ▸ hc⟩)
  | .add _ _ _ hc hc' hs hr => hb.add_step hc hc' hs hr

/-- A step only appends to lists of drafts. -/
theorem TreeStep.refs_grow (h : TreeStep b b') (i : Nat) :
    (b.draftAt i).refs <+: (b'.draftAt i).refs := by
  cases h with
  | keep _ _ hr => exact hr i ▸ List.prefix_refl _
  | close _ _ _ _ _ _ hr => exact hr i ▸ List.prefix_refl _
  | add p _ _ _ _ _ hr =>
    rw [hr]
    split
    · exact List.prefix_append _ _
    · exact List.prefix_refl _

-- ============================================================ runs

theorem IsTree.calls (hb : b.IsTree) (cs : List Call) : (b.calls cs).IsTree := by
  induction cs generalizing b with
  | nil => exact hb
  | cons c cs ih => exact ih ((call_treeStep hb c).isTree hb)

/-- Later calls only append to the lists of drafts. -/
theorem IsTree.refs_grow_calls (hb : b.IsTree) (cs : List Call) (i : Nat) :
    (b.draftAt i).refs <+: ((b.calls cs).draftAt i).refs := by
  induction cs generalizing b with
  | nil => exact List.prefix_refl _
  | cons c cs ih =>
    exact ((call_treeStep hb c).refs_grow i).trans (ih ((call_treeStep hb c).isTree hb))

/-- A call that adds a draft lists it under the innermost open container. -/
theorem IsTree.call_adds (hb : b.IsTree) (c : Call)
    (h : (b.call c).drafts.size = b.drafts.size + 1) :
    ∃ p, b.containers.head? = some p ∧ b.drafts.size ∈ ((b.call c).draftAt p).refs := by
  cases call_treeStep hb c with
  | keep _ hs _ => omega
  | close _ _ _ _ _ hs _ => omega
  | add p _ _ hc _ _ hr => exact ⟨p, by simp [hc], by simp [hr]⟩

-- ============================================================ drafts that are not open

@[simp] theorem fail_drafts (e : TemplateError) : (b.fail e).drafts = b.drafts := by
  unfold fail
  split <;> rfl

@[simp] theorem fail_containers (e : TemplateError) : (b.fail e).containers = b.containers := by
  unfold fail
  split <;> rfl

theorem fail_error_ne (e : TemplateError) : (b.fail e).error ≠ none := by
  unfold fail
  split
  · rename_i h
    simpa [Option.isSome_iff_ne_none] using h
  · simp

/-- Changing drafts without touching their outlines leaves every outline alone. -/
theorem outline_modify {f : Draft → Draft} (hf : ∀ d, (f d).outline = d.outline) (k i : Nat) :
    ({ b with drafts := b.drafts.modify k f }.draftAt i).outline = (b.draftAt i).outline := by
  rw [draftAt, Array.getElem?_modify]
  split
  · cases h : b.drafts[i]? <;> simp [draftAt, hf, h]
  · rfl

/-- An add leaves alone every draft but the innermost container. -/
theorem add_draftAt {d : Draft} {enter : Bool} {i : Nat} (hi : i < b.drafts.size)
    (ho : i ∉ b.containers) : (b.add d enter).draftAt i = b.draftAt i := by
  unfold add
  split
  · rfl
  · split
    · simp [draftAt]
    · rename_i parent rest hc
      dsimp only
      split
      · simp [draftAt]
      · have hp : parent ≠ i := fun h => ho (h ▸ hc ▸ List.mem_cons_self ..)
        simp only [draftAt, Array.getElem?_modify, Array.getElem?_push, if_neg hp,
          if_neg (Nat.ne_of_lt hi)]

/-- An add that records no error puts the draft after the others, its outline unchanged unless
it is an envelope, and opens it if asked. -/
theorem IsTree.add_ok (hb : b.IsTree) {d : Draft} {enter : Bool}
    (h1 : (b.add d enter).error = none) (hd : d.kind ≠ .envelope) :
    (b.add d enter).drafts.size = b.drafts.size + 1 ∧
    (b.add d enter).containers = (if enter then b.drafts.size :: b.containers else b.containers) ∧
    ((b.add d enter).draftAt b.drafts.size).outline = d.outline := by
  have hd' : (d.kind == .envelope) = false := by simp [hd]
  unfold add at h1 ⊢
  split
  · rename_i h0
    rw [if_pos h0] at h1
    simp [h1] at h0
  · rename_i h0
    rw [if_neg h0] at h1
    split
    · rename_i hc
      simp only [hc] at h1
      exact absurd h1 (fail_error_ne _)
    · rename_i parent rest hc
      simp only [hc, hd', Bool.false_eq_true, if_false] at h1 ⊢
      split
      · rename_i e hlooked
        rw [hlooked] at h1
        exact absurd h1 (fail_error_ne _)
      · rename_i d' hlooked
        -- looking the accessor up changes the new draft's settings, never its outline
        have hout : d'.outline = d.outline := by
          revert hlooked
          repeat' split
          all_goals intro h; cases h <;> rfl
        have hp : parent < b.drafts.size := hb.lt_of_mem_containers (hc ▸ List.mem_cons_self ..)
        refine ⟨by simp, rfl, ?_⟩
        simp only [draftAt, Array.getElem?_modify, Array.getElem?_push, if_neg (Nat.ne_of_lt hp),
          if_true, Option.getD_some]
        exact hout

/-- A call keeps the outline of every draft that is not an open container. -/
theorem call_outline {i : Nat} (hi : i < b.drafts.size) (ho : i ∉ b.containers) (c : Call) :
    ((b.call c).draftAt i).outline = (b.draftAt i).outline := by
  have hadd : ∀ d enter, ((b.add d enter).draftAt i).outline = (b.draftAt i).outline :=
    fun _ _ => by rw [add_draftAt hi ho]
  have hmod : ∀ what allowed (f : Draft → Draft), (∀ d, (f d).outline = d.outline) →
      ((b.modifyLast what allowed f).draftAt i).outline = (b.draftAt i).outline := by
    intro what allowed f hf
    unfold modifyLast
    split
    · rfl
    · dsimp only
      split
      · simp [draftAt]
      · exact outline_modify hf _ _
  cases c with
  | close =>
    show (b.close.draftAt i).outline = _
    unfold close
    split
    · rfl
    · split <;> simp [draftAt]
  | identity names =>
    show ((b.identity names).draftAt i).outline = _
    unfold identity
    split
    · rfl
    · split
      · simp [draftAt]
      · dsimp only
        split
        · simp [draftAt]
        · exact outline_modify (f := fun d => { d with identity := names }) (fun _ => rfl) _ _
  | objectTemplate | referenceTemplate | arrayTemplate | mapTemplate =>
    show ((b.graft _ _ _ _).draftAt i).outline = _
    unfold graft
    dsimp only
    split
    · simp [draftAt]
    · exact hadd _ _
  | converter | keyConverter | namespace_ | accessMode | manager | coerce =>
    exact hmod _ _ _ fun _ => rfl
  | _ => exact hadd _ _

/-- An open container after a step was open before it, or is the draft the step added. -/
theorem TreeStep.mem_containers (h : TreeStep b b') {k : Nat} (hk : k ∈ b'.containers) :
    k ∈ b.containers ∨ k = b.drafts.size := by
  cases h with
  | keep hc => exact .inl (hc ▸ hk)
  | close c rest _ hc hc' =>
    rw [hc'] at hk
    rw [hc]
    exact .inl (List.mem_cons_of_mem _ hk)
  | add p rest enter hc hc' =>
    rw [hc'] at hk
    split at hk
    · rcases List.mem_cons.1 hk with rfl | hk
      · exact .inr rfl
      · exact .inl hk
    · exact .inl hk

theorem TreeStep.size_le (h : TreeStep b b') : b.drafts.size ≤ b'.drafts.size := by
  cases h <;> omega

theorem IsTree.size_le_calls (hb : b.IsTree) (cs : List Call) :
    b.drafts.size ≤ (b.calls cs).drafts.size := by
  induction cs generalizing b with
  | nil => exact le_rfl
  | cons c cs ih =>
    have hstep := call_treeStep hb c
    exact hstep.size_le.trans (ih (hstep.isTree hb))

/-- Later calls keep the outline of a draft that is not an open container: it never becomes one,
since the containers only gain the drafts added after it. -/
theorem IsTree.calls_outline (hb : b.IsTree) {i : Nat} (hi : i < b.drafts.size)
    (ho : i ∉ b.containers) (cs : List Call) :
    ((b.calls cs).draftAt i).outline = (b.draftAt i).outline := by
  induction cs generalizing b with
  | nil => rfl
  | cons c cs ih =>
    have hstep := call_treeStep hb c
    have hi' : i < (b.call c).drafts.size := lt_of_lt_of_le hi hstep.size_le
    have ho' : i ∉ (b.call c).containers := fun hk => by
      rcases hstep.mem_containers hk with hk | hk
      · exact ho hk
      · omega
    rw [calls_cons, ih (hstep.isTree hb) hi' ho', call_outline hi ho c]

/-- A builder that has recorded an error ignores every call. -/
theorem call_of_error (h : b.error.isSome = true) (c : Call) : b.call c = b := by
  have hadd : ∀ d enter, b.add d enter = b := fun _ _ => by simp [add, h]
  have hmod : ∀ what allowed f, b.modifyLast what allowed f = b := fun _ _ _ => by
    simp [modifyLast, h]
  cases c with
  | close => simp [call, close, h]
  | identity names => simp [call, identity, h]
  | objectTemplate | referenceTemplate | arrayTemplate | mapTemplate =>
    show b.graft _ _ _ _ = b
    unfold graft
    dsimp only
    split
    · simp [fail, h]
    · exact hadd _ _
  | converter | keyConverter | namespace_ | accessMode | manager | coerce => exact hmod _ _ _
  | _ => exact hadd _ _

theorem calls_of_error (h : b.error.isSome = true) (cs : List Call) : b.calls cs = b := by
  induction cs with
  | nil => rfl
  | cons c cs ih => rw [calls_cons, call_of_error h, ih]

/-- A builder on the way to one that has recorded no error has recorded none. -/
theorem error_of_calls {cs : List Call} (h : (b.calls cs).error = none) : b.error = none := by
  cases he : b.error with
  | none => rfl
  | some e =>
    rw [calls_of_error (by simp [he]), he] at h
    cases h

/-- A root alone is a tree. -/
theorem Root.builder_isTree (r : Root) : r.builder.IsTree := by
  have hr : ∀ i, (r.builder.draftAt i).refs = [] := by
    intro i
    cases r <;> cases i <;> simp [Root.builder, forObject, forArrayOfObjects, forArrayOfValues,
      draftAt, rootDraft, Draft.refs]
  have hs : r.builder.drafts.size = 1 := by cases r <;> rfl
  refine ⟨by omega, fun h => ?_, fun h _ => ?_, fun h0 hj => ?_, fun i => ?_, ?_, ?_⟩
  · simp [hr] at h
  · simp [hr] at h
  · omega
  · simp [hr]
  · cases r <;> simp [Root.builder, forObject, forArrayOfObjects, forArrayOfValues]
  · cases r <;> simp [Root.builder, forObject, forArrayOfObjects, forArrayOfValues]

theorem Root.run_isTree (r : Root) (cs : List Call) : (r.run cs).IsTree :=
  r.builder_isTree.calls cs

-- ============================================================ reachability below a draft

/-- Draft `k` is draft `i` or lies below it. -/
def Reach (b : Builder) : Nat → Nat → Prop :=
  Relation.ReflTransGen fun i j => j ∈ (b.draftAt i).refs

theorem IsTree.le_of_reach (hb : b.IsTree) {i k : Nat} (h : b.Reach i k) : i ≤ k := by
  induction h with
  | refl => exact le_rfl
  | tail _ hjk ih => exact ih.trans (hb.forward hjk).1.le

theorem IsTree.lt_size_of_reach (hb : b.IsTree) {i k : Nat} (hi : i < b.drafts.size)
    (h : b.Reach i k) : k < b.drafts.size := by
  induction h with
  | refl => exact hi
  | tail _ hjk _ => exact (hb.forward hjk).2

/-- Two drafts above a third lie one above the other, since every draft has one parent. -/
theorem IsTree.reach_total (hb : b.IsTree) {a c k : Nat} (ha : b.Reach a k) (hc : b.Reach c k) :
    b.Reach a c ∨ b.Reach c a := by
  induction hc with
  | refl => exact .inl ha
  | tail hcm hmk ih =>
    -- the last step into `k` comes from its parent
    rcases Relation.ReflTransGen.cases_tail ha with rfl | ⟨m', ham', hm'k⟩
    · exact .inr (hcm.tail hmk)
    · exact ih (hb.unique hm'k hmk ▸ ham')

/-- The subtrees of two children of a draft are apart. -/
theorem IsTree.reach_apart (hb : b.IsTree) {i j j' k : Nat} (hj : j ∈ (b.draftAt i).refs)
    (hj' : j' ∈ (b.draftAt i).refs) (hk : b.Reach j k) (hk' : b.Reach j' k) : j = j' := by
  -- a child below another child would lie below their parent, which is above both
  have below : ∀ {x y}, x ∈ (b.draftAt i).refs → y ∈ (b.draftAt i).refs → b.Reach x y →
      x = y := by
    intro x y hx hy hxy
    rcases Relation.ReflTransGen.cases_tail hxy with h | ⟨m, hxm, hmy⟩
    · exact h.symm
    · have hm : m = i := hb.unique hmy hy
      subst hm
      have := hb.le_of_reach hxm
      have := (hb.forward hx).1
      omega
  rcases hb.reach_total hk hk' with h | h
  · exact below hj hj' h
  · exact (below hj' hj h).symm

/-- Every draft lies below draft `0`. -/
theorem IsTree.reach_zero (hb : b.IsTree) {k : Nat} (hk : k < b.drafts.size) : b.Reach 0 k := by
  induction k using Nat.strong_induction_on with
  | _ k ih =>
    rcases Nat.eq_zero_or_pos k with rfl | h0
    · exact .refl
    · obtain ⟨i, hi⟩ := hb.attached h0 hk
      have hik := (hb.forward hi).1
      exact (ih i hik (by omega)).tail hi

-- ============================================================ the tree without fuel

/-- The node of draft `i`, made after the nodes of its children: the tree `finalize` builds,
without fuel. A draft is read only under one of smaller index, as in every tree of drafts. -/
def assemble (b : Builder) (i : Nat) : Except TemplateError Node := do
  let d := b.draftAt i
  let children ← d.children.mapM fun
    | .draft j =>
      if _h : i < j ∧ j < b.drafts.size then b.assemble j
      else .error (.invalidComposition ("node " ++ toString j ++ " is referenced twice"))
    | .built n => pure n
  d.toNode children
termination_by b.drafts.size - i
decreasing_by omega

/-- The node of one child of draft `i`. -/
def assembleChild (b : Builder) (i : Nat) : Child → Except TemplateError Node
  | .draft j =>
    if i < j ∧ j < b.drafts.size then b.assemble j
    else .error (.invalidComposition ("node " ++ toString j ++ " is referenced twice"))
  | .built n => pure n

theorem assemble_eq (i : Nat) :
    b.assemble i = (b.draftAt i).children.mapM (b.assembleChild i) >>= (b.draftAt i).toNode := by
  rw [assemble]
  rfl

theorem IsTree.assembleChild_draft (hb : b.IsTree) {i j : Nat} (hj : j ∈ (b.draftAt i).refs) :
    b.assembleChild i (.draft j) = b.assemble j := by
  simp [assembleChild, hb.forward hj]

-- ============================================================ finalize is the tree

/-- One child in `finalize`'s fold: a draft is finalized with the fuel left, a node of another
template is kept. -/
def finalizeStep (fuel : Nat) (acc : List Node × Array (Option Draft)) :
    Child → Except TemplateError (List Node × Array (Option Draft))
  | .draft j => do
    let (n, drafts) ← finalize fuel acc.2 j
    pure (acc.1 ++ [n], drafts)
  | .built n => pure (acc.1 ++ [n], acc.2)

theorem finalize_succ (fuel : Nat) (A : Array (Option Draft)) (i : Nat) :
    finalize (fuel + 1) A i =
      match A[i]? with
      | some (some d) => do
        let (children, drafts) ← d.children.foldlM (finalizeStep fuel) ([], A.set! i none)
        let node ← d.toNode children
        pure (node, drafts)
      | _ => .error (.invalidComposition ("node " ++ toString i ++ " is referenced twice")) :=
  rfl

/-- `A'` is `A` with the drafts of `S` taken out. -/
def Taken (S : Nat → Prop) (A A' : Array (Option Draft)) : Prop :=
  ∀ k, (S k → A'[k]? = some none) ∧ (¬ S k → A'[k]? = A[k]?)

section Taken

variable {S T : Nat → Prop} {A A₁ A₂ : Array (Option Draft)}

theorem Taken.of_none (hS : ∀ k, ¬ S k) : Taken S A A :=
  fun k => ⟨fun h => absurd h (hS k), fun _ => rfl⟩

theorem Taken.trans (h₁ : Taken S A A₁) (h₂ : Taken T A₁ A₂) :
    Taken (fun k => S k ∨ T k) A A₂ := by
  intro k
  refine ⟨fun h => ?_, fun h => ?_⟩
  · by_cases ht : T k
    · exact (h₂ k).1 ht
    · rw [(h₂ k).2 ht]
      exact (h₁ k).1 (h.resolve_right ht)
  · rw [not_or] at h
    rw [(h₂ k).2 h.2, (h₁ k).2 h.1]

theorem Taken.congr (h : Taken S A A₁) (hST : ∀ k, S k ↔ T k) : Taken T A A₁ := by
  intro k
  rw [← hST]
  exact h k

theorem taken_set {i : Nat} (hi : i < A.size) : Taken (· = i) A (A.set! i none) := by
  intro k
  rw [Array.set!_eq_setIfInBounds, Array.getElem?_setIfInBounds]
  refine ⟨fun h => by simp [h, hi], fun h => by rw [if_neg (Ne.symm h)]⟩

end Taken

/-- The drafts below `j` are still in the array. -/
def Untaken (b : Builder) (A : Array (Option Draft)) (j : Nat) : Prop :=
  ∀ k, b.Reach j k → A[k]? = some (some (b.draftAt k))

/-- Finalizing draft `j` from the array `A` builds the fuel-free tree of `j` and takes out
exactly the drafts below it. -/
def Finalizes (b : Builder) (fuel : Nat) (A : Array (Option Draft)) (j : Nat) : Prop :=
  (finalize fuel A j).map Prod.fst = b.assemble j ∧
    ∀ n A', finalize fuel A j = .ok (n, A') → Taken (b.Reach j) A A'

/-- Appending one node then the rest is appending the rest after that node. -/
theorem map_append_cons {ε α : Type} (x : Except ε (List α)) (ns : List α) (n : α) :
    x.map ((ns ++ [n]) ++ ·) = (x >>= fun ms => pure (n :: ms)).map (ns ++ ·) := by
  cases x <;> simp [Except.map, bind, Except.bind, pure, Except.pure]

/-- The fold over the children of draft `i`, each draft child finalized as the fuel-free tree
says (`ih`), builds the nodes `assembleChild` gives and takes out the drafts below them. -/
theorem IsTree.foldlM_finalizeStep (hb : b.IsTree) {fuel i : Nat}
    (ih : ∀ j A, j ∈ (b.draftAt i).refs → b.Untaken A j → b.Finalizes fuel A j) :
    ∀ (cs : List Child) (ns : List Node) (A : Array (Option Draft)),
      (∀ j ∈ cs.filterMap Child.index?, j ∈ (b.draftAt i).refs) →
      (cs.filterMap Child.index?).Pairwise (· < ·) →
      (∀ j ∈ cs.filterMap Child.index?, b.Untaken A j) →
      (cs.foldlM (finalizeStep fuel) (ns, A)).map Prod.fst =
          (cs.mapM (b.assembleChild i)).map (ns ++ ·) ∧
        ∀ ns' A', cs.foldlM (finalizeStep fuel) (ns, A) = .ok (ns', A') →
          Taken (fun k => ∃ j ∈ cs.filterMap Child.index?, b.Reach j k) A A'
  | [], ns, A, _, _, _ => by
    refine ⟨by simp [Except.map, pure, Except.pure], fun ns' A' h => ?_⟩
    cases h
    exact Taken.of_none (by simp)
  | .built n :: cs, ns, A, hrefs, hsorted, hsome => by
    obtain ⟨h1, h2⟩ := hb.foldlM_finalizeStep ih cs (ns ++ [n]) A hrefs hsorted hsome
    refine ⟨?_, fun ns' A' h => h2 ns' A' h⟩
    -- a node of another template is kept and the array is left alone
    simp only [List.foldlM_cons, List.mapM_cons, finalizeStep, assembleChild, pure_bind]
    rw [h1]
    exact map_append_cons _ ns n
  | .draft j :: cs, ns, A, hrefs, hsorted, hsome => by
    have hj : j ∈ (b.draftAt i).refs := hrefs j List.mem_cons_self
    obtain ⟨hf1, hf2⟩ := ih j A hj (hsome j List.mem_cons_self)
    simp only [List.foldlM_cons, List.mapM_cons, finalizeStep, hb.assembleChild_draft hj]
    cases hf : finalize fuel A j with
    | error e =>
      have ha : b.assemble j = .error e := by rw [← hf1, hf]; rfl
      refine ⟨by rw [ha]; rfl, fun ns' A' h => ?_⟩
      cases h
    | ok r =>
      obtain ⟨n, A₁⟩ := r
      have ha : b.assemble j = .ok n := by rw [← hf1, hf]; rfl
      have ht₁ := hf2 n A₁ hf
      have hsorted' := List.pairwise_cons.1 hsorted
      -- the drafts below the later children are not below `j`, so still in the array
      have hsome₁ : ∀ j' ∈ cs.filterMap Child.index?, b.Untaken A₁ j' := by
        intro j' hj' k hk
        have hne : ¬ b.Reach j k := fun hjk => by
          have := hb.reach_apart hj (hrefs j' (List.mem_cons_of_mem _ hj')) hjk hk
          have := hsorted'.1 j' hj'
          omega
        rw [(ht₁ k).2 hne]
        exact hsome j' (List.mem_cons_of_mem _ hj') k hk
      obtain ⟨h1, h2⟩ := hb.foldlM_finalizeStep ih cs (ns ++ [n]) A₁
        (fun j' hj' => hrefs j' (List.mem_cons_of_mem _ hj')) hsorted'.2 hsome₁
      rw [ha]
      refine ⟨?_, fun ns' A' h => ?_⟩
      · show (cs.foldlM (finalizeStep fuel) (ns ++ [n], A₁)).map Prod.fst = _
        rw [h1]
        exact map_append_cons _ ns n
      · refine (ht₁.trans (h2 ns' A' h)).congr fun k => ?_
        simp [Child.index?, or_and_right, exists_or]

/-- With fuel beyond the depth still to go and the drafts below `i` still in the array,
`finalize` builds the fuel-free tree of draft `i` and takes out exactly the drafts below it. -/
theorem IsTree.finalize_eq (hb : b.IsTree) : ∀ (fuel i : Nat) (A : Array (Option Draft)),
    i < b.drafts.size → b.drafts.size < i + fuel → b.Untaken A i → b.Finalizes fuel A i
  | 0, _, _, hi, hfuel, _ => by omega
  | fuel + 1, i, A, _, hfuel, hsome => by
    have hAi : A[i]? = some (some (b.draftAt i)) := hsome i .refl
    have hiA : i < A.size := (Array.getElem?_eq_some_iff.1 hAi).1
    -- the children are finalized with draft `i` taken out, one level of fuel lower
    have hsome₀ : ∀ j ∈ (b.draftAt i).refs, b.Untaken (A.set! i none) j := by
      intro j hj k hk
      have hik : i < k := lt_of_lt_of_le (hb.forward hj).1 (hb.le_of_reach hk)
      rw [(taken_set hiA k).2 (Nat.ne_of_gt hik)]
      exact hsome k (Relation.ReflTransGen.head hj hk)
    have ih : ∀ j A, j ∈ (b.draftAt i).refs → b.Untaken A j → b.Finalizes fuel A j := by
      intro j A hj hA
      have hij := hb.forward hj
      exact hb.finalize_eq fuel j A hij.2 (by omega) hA
    obtain ⟨h1, h2⟩ := hb.foldlM_finalizeStep ih (b.draftAt i).children [] (A.set! i none)
      (fun _ hj => hj) (hb.sorted i) hsome₀
    have hfst : ((b.draftAt i).children.foldlM (finalizeStep fuel) ([], A.set! i none)).map
        Prod.fst = (b.draftAt i).children.mapM (b.assembleChild i) := by
      rw [h1]
      cases (b.draftAt i).children.mapM (b.assembleChild i) <;> rfl
    rw [Finalizes, finalize_succ, hAi, assemble_eq, ← hfst]
    dsimp only
    refine ⟨?_, fun n A' h => ?_⟩
    · cases (b.draftAt i).children.foldlM (finalizeStep fuel) ([], A.set! i none) with
      | error e => rfl
      | ok r =>
        obtain ⟨cs, A''⟩ := r
        show ((b.draftAt i).toNode cs >>= fun node => pure (node, A'')).map Prod.fst =
          (b.draftAt i).toNode cs
        cases (b.draftAt i).toNode cs <;> rfl
    · obtain ⟨⟨cs, A''⟩, hfold, h⟩ := Time.except_bind_eq_ok.1 h
      obtain ⟨node, -, h⟩ := Time.except_bind_eq_ok.1 h
      cases h
      -- draft `i` is taken first, then the drafts below each child
      refine ((taken_set hiA).trans (h2 cs _ hfold)).congr fun k => ?_
      rw [Reach, Relation.ReflTransGen.cases_head_iff]
      simp only [eq_comm, Draft.refs]

/-- `finalize` as `build` runs it: the tree of draft `0`, with every draft taken. -/
theorem IsTree.finalize_build (hb : b.IsTree) :
    (finalize (b.drafts.size + 1) (b.drafts.map some) 0).map Prod.fst = b.assemble 0 ∧
      ∀ n A, finalize (b.drafts.size + 1) (b.drafts.map some) 0 = .ok (n, A) →
        A = Array.replicate b.drafts.size none := by
  have hsome : b.Untaken (b.drafts.map some) 0 := by
    intro k hk
    have hks := hb.lt_size_of_reach hb.root_mem hk
    simp [draftAt, Array.getElem?_eq_getElem hks]
  obtain ⟨h1, h2⟩ := hb.finalize_eq (b.drafts.size + 1) 0 _ hb.root_mem (by omega) hsome
  refine ⟨h1, fun n A h => Array.ext_getElem? fun k => ?_⟩
  have ht := h2 n A h k
  rw [Array.getElem?_replicate]
  by_cases hk : k < b.drafts.size
  · rw [if_pos hk]
    exact ht.1 (hb.reach_zero hk)
  · rw [if_neg hk, ht.2 fun hr => hk (hb.lt_size_of_reach hb.root_mem hr)]
    simp [Array.getElem?_eq_none (Nat.le_of_not_lt hk)]

-- ============================================================ no failure of composition

end Builder

/-- A computation that never fails for a reason of composition. -/
def NoComposition {α : Type} (x : Except TemplateError α) : Prop :=
  ∀ msg, x ≠ .error (.invalidComposition msg)

namespace NoComposition

variable {α β : Type}

theorem pure (a : α) : NoComposition (pure a : Except TemplateError α) := fun _ h => by cases h

theorem bind {x : Except TemplateError α} {f : α → Except TemplateError β}
    (hx : NoComposition x) (hf : ∀ a, NoComposition (f a)) : NoComposition (x >>= f) := by
  intro msg h
  cases x with
  | error e =>
    cases h
    exact hx msg rfl
  | ok a => exact hf a msg h

theorem mapM {f : α → Except TemplateError β} :
    ∀ {l : List α}, (∀ x ∈ l, NoComposition (f x)) → NoComposition (l.mapM f)
  | [], _ => NoComposition.pure []
  | x :: l, hl => by
    rw [List.mapM_cons]
    exact (hl x List.mem_cons_self).bind fun _ =>
      (mapM fun y hy => hl y (List.mem_cons_of_mem _ hy)).bind fun _ => NoComposition.pure _

end NoComposition

namespace Draft

variable (d : Draft)

theorem checkModes_noComposition : NoComposition d.checkModes := by
  unfold checkModes
  repeat' split
  all_goals intro msg h; cases h

theorem checkShape_noComposition : NoComposition d.checkShape := by
  unfold checkShape
  repeat' split
  all_goals intro msg h; cases h

theorem shaped_noComposition : NoComposition d.shaped := by
  unfold shaped
  dsimp only
  repeat' split
  all_goals intro msg h; cases h

theorem identityKeys_noComposition (info : NodeInfo) (cs : List Node) :
    NoComposition (d.identityKeys info cs) := by
  unfold identityKeys
  split
  · exact NoComposition.pure _
  · refine NoComposition.mapM fun name _ => ?_
    split
    · exact NoComposition.pure _
    · intro msg h
      cases h

/-- A node made from a draft has the children it was given. -/
theorem toNode_children {cs : List Node} {n : Node} (h : d.toNode cs = .ok n) :
    n.children = cs := by
  -- past the checks, the settings and the identity keys, the node is made with these children
  obtain ⟨_, -, h⟩ := Time.except_bind_eq_ok.1 h
  obtain ⟨_, -, h⟩ := Time.except_bind_eq_ok.1 h
  obtain ⟨_, -, h⟩ := Time.except_bind_eq_ok.1 h
  obtain ⟨_, -, h⟩ := Time.except_bind_eq_ok.1 h
  cases h
  rfl

/-- Shaping the settings of a draft's property keeps its kind, name and type. -/
theorem shaped_outline {info : NodeInfo} (h : d.shaped = .ok info) :
    info.kind = d.kind ∧ info.name = d.info.name ∧ info.modelType = d.info.modelType := by
  unfold shaped at h
  -- every branch updates the accessor, the collection access or the kinds of scalars only
  cases hk : d.kind <;> cases ha : d.info.accessor <;> simp only [hk, ha] at h
  all_goals
    repeat' split at h
    all_goals first | (cases h; exact ⟨hk, rfl, rfl⟩) | cases h

/-- A node made from a draft has the draft's kind, name and type. -/
theorem toNode_outline {cs : List Node} {n : Node} (h : d.toNode cs = .ok n) :
    n.kind = d.kind ∧ n.name = d.info.name ∧ n.modelType = d.info.modelType := by
  obtain ⟨_, -, h⟩ := Time.except_bind_eq_ok.1 h
  obtain ⟨_, -, h⟩ := Time.except_bind_eq_ok.1 h
  obtain ⟨info, hinfo, h⟩ := Time.except_bind_eq_ok.1 h
  obtain ⟨_, -, h⟩ := Time.except_bind_eq_ok.1 h
  cases h
  obtain ⟨hk, hn, ht⟩ := d.shaped_outline hinfo
  exact ⟨hk, hn, ht⟩

/-- Turning a draft into a node fails only for what the draft asks of its property. -/
theorem toNode_noComposition (cs : List Node) : NoComposition (d.toNode cs) :=
  d.checkModes_noComposition.bind fun _ => d.checkShape_noComposition.bind fun _ =>
    d.shaped_noComposition.bind fun info =>
      (d.identityKeys_noComposition info cs).bind fun _ => NoComposition.pure _

end Draft

namespace Builder

variable {b : Builder}

theorem IsTree.assemble_noComposition (hb : b.IsTree) (i : Nat) : NoComposition (b.assemble i) := by
  rw [assemble_eq]
  refine NoComposition.bind (NoComposition.mapM fun c hc => ?_) fun _ =>
    (b.draftAt i).toNode_noComposition _
  cases c with
  | built n => exact NoComposition.pure n
  | draft j =>
    have hj : j ∈ (b.draftAt i).refs := List.mem_filterMap.2 ⟨_, hc, rfl⟩
    have hij := hb.forward hj
    rw [hb.assembleChild_draft hj]
    exact hb.assemble_noComposition j
termination_by b.drafts.size - i
decreasing_by omega

/-- `finalize` never fails for a reason of composition: it never meets a draft twice and never
runs out of fuel. -/
theorem IsTree.finalize_noComposition (hb : b.IsTree) :
    NoComposition (finalize (b.drafts.size + 1) (b.drafts.map some) 0) := by
  intro msg h
  have h1 := hb.finalize_build.1
  rw [h] at h1
  exact hb.assemble_noComposition 0 msg h1.symm

-- ============================================================ the built template

/-- A template built from a tree of drafts has the fuel-free tree of draft `0` as its root. -/
theorem IsTree.assemble_of_build (hb : b.IsTree) {T : Template} (h : b.build = .ok T) :
    b.assemble 0 = .ok T.root := by
  have h1 := hb.finalize_build.1
  unfold build at h
  cases herr : b.error with
  | some e => rw [herr] at h; cases h
  | none =>
    rw [herr] at h
    dsimp only at h
    -- `finalize` made the root, which validation then accepted
    obtain ⟨⟨root, A⟩, hf, h⟩ := Time.except_bind_eq_ok.1 h
    obtain ⟨_, -, h⟩ := Time.except_bind_eq_ok.1 h
    cases h
    rw [← h1, hf]
    rfl

/-- Below a draft whose tree is made, the tree of every draft is made. -/
theorem IsTree.assemble_ok_of_reach (hb : b.IsTree) {i k : Nat} {n : Node}
    (h : b.assemble i = .ok n) (hk : b.Reach i k) : ∃ m, b.assemble k = .ok m := by
  induction hk with
  | refl => exact ⟨n, h⟩
  | @tail j k _ hjk ih =>
    obtain ⟨m, hm⟩ := ih
    rw [assemble_eq] at hm
    -- the child's node was made on the way to its parent's
    obtain ⟨cs, hcs, -⟩ := Time.except_bind_eq_ok.1 hm
    obtain ⟨c, hc, hci⟩ := List.mem_filterMap.1 hjk
    cases c with
    | built _ => cases hci
    | draft k' =>
      cases hci
      obtain ⟨y, hy, -⟩ := exists_ok_of_mapM_eq_ok hcs _ hc
      rw [hb.assembleChild_draft hjk] at hy
      exact ⟨y, hy⟩

/-- A template built from a tree of drafts is the tree of the drafts' nodes: the root is the
node of draft `0`, and each draft's node is made from the nodes of its children in order,
nodes of other templates kept as they are. -/
theorem IsTree.build_nodes (hb : b.IsTree) {T : Template} (h : b.build = .ok T) :
    ∃ node : Nat → Node, node 0 = T.root ∧ ∀ i < b.drafts.size,
      (node i).children = (b.draftAt i).children.map (Child.resolve node) ∧
      (b.draftAt i).toNode ((b.draftAt i).children.map (Child.resolve node)) = .ok (node i) := by
  have h0 := hb.assemble_of_build h
  let node : Nat → Node := fun i => match b.assemble i with
    | .ok m => m
    | .error _ => default
  have hnode : ∀ i < b.drafts.size, b.assemble i = .ok (node i) := by
    intro i hi
    obtain ⟨m, hm⟩ := hb.assemble_ok_of_reach h0 (hb.reach_zero hi)
    simp [node, hm]
  refine ⟨node, by simp [node, h0], fun i hi => ?_⟩
  have hcs : (b.draftAt i).children.mapM (b.assembleChild i) =
      .ok ((b.draftAt i).children.map (Child.resolve node)) := by
    refine mapM_eq_ok_map fun c hc => ?_
    cases c with
    | built n => rfl
    | draft j =>
      have hj : j ∈ (b.draftAt i).refs := List.mem_filterMap.2 ⟨_, hc, rfl⟩
      rw [hb.assembleChild_draft hj]
      exact hnode j (hb.forward hj).2
  have hi' := hnode i hi
  rw [assemble_eq, hcs] at hi'
  exact ⟨(b.draftAt i).toNode_children hi', hi'⟩

/-- A builder that builds has recorded no error. -/
theorem error_of_build {T : Template} (h : b.build = .ok T) : b.error = none := by
  unfold build at h
  cases herr : b.error with
  | none => rfl
  | some e =>
    rw [herr] at h
    cases h

/-- The node of every draft below draft `0` is a node of the built template: going down, each
is a child of the one above. -/
theorem IsTree.assemble_mem_nodes (hb : b.IsTree) {T : Template} (h : b.build = .ok T) {k : Nat}
    (hk : b.Reach 0 k) {m : Node} (hm : b.assemble k = .ok m) : m ∈ T.nodes := by
  have h0 := hb.assemble_of_build h
  induction hk generalizing m with
  | refl =>
    rw [h0] at hm
    cases hm
    exact Node.mem_breadthFirst_self _
  | @tail j k hj hjk ih =>
    obtain ⟨n, hn⟩ := hb.assemble_ok_of_reach h0 hj
    have hnT := ih hn
    rw [assemble_eq] at hn
    obtain ⟨cs, hcs, hn⟩ := Time.except_bind_eq_ok.1 hn
    obtain ⟨c, hc, hci⟩ := List.mem_filterMap.1 hjk
    cases c with
    | built _ => cases hci
    | draft k' =>
      cases hci
      -- the child's node is among those its parent was made from
      obtain ⟨y, hy, hmem⟩ := exists_ok_of_mapM_eq_ok hcs _ hc
      rw [hb.assembleChild_draft hjk, hm] at hy
      cases hy
      exact Node.mem_breadthFirst_of_child hnT (by rw [Draft.toNode_children _ hn]; exact hmem)

/-- A call that adds a draft lists it under the container innermost at the call, and later
calls leave it there. -/
theorem IsTree.added_under_open (hb : b.IsTree) (pre : List Call) (c : Call) (post : List Call)
    (h : ((b.calls pre).call c).drafts.size = (b.calls pre).drafts.size + 1) :
    ∃ p, (b.calls pre).containers.head? = some p ∧
      (b.calls pre).drafts.size ∈ ((b.calls (pre ++ c :: post)).draftAt p).refs := by
  have hpre := hb.calls pre
  obtain ⟨p, hp, hmem⟩ := hpre.call_adds c h
  refine ⟨p, hp, ?_⟩
  rw [calls_append, calls_cons]
  exact (((call_treeStep hpre c).isTree hpre).refs_grow_calls post p).subset hmem

-- ============================================================ every run of calls

/-- For every root and every sequence of calls, the drafts form a tree rooted at draft `0`,
with the open containers a path down it; `finalize` never fails for a reason of composition
(it meets no draft twice and has fuel enough) and, when it succeeds, has taken every draft; a
built template is the tree of the drafts' nodes, children in order and nodes of other templates
kept as they are; and a call that adds a draft lists it under the container innermost at the
call. -/
theorem drafts_form_tree (r : Root) (cs : List Call) :
    (r.run cs).IsTree ∧
    (∀ msg, finalize ((r.run cs).drafts.size + 1) ((r.run cs).drafts.map some) 0 ≠
      .error (.invalidComposition msg)) ∧
    (∀ n A, finalize ((r.run cs).drafts.size + 1) ((r.run cs).drafts.map some) 0 = .ok (n, A) →
      A = Array.replicate (r.run cs).drafts.size none) ∧
    (∀ T, (r.run cs).build = .ok T → ∃ node : Nat → Node, node 0 = T.root ∧
      ∀ i < (r.run cs).drafts.size,
        (node i).children = ((r.run cs).draftAt i).children.map (Child.resolve node) ∧
        ((r.run cs).draftAt i).toNode (((r.run cs).draftAt i).children.map (Child.resolve node)) =
          .ok (node i)) ∧
    (∀ pre c post, cs = pre ++ c :: post →
      ((r.run pre).call c).drafts.size = (r.run pre).drafts.size + 1 →
      ∃ p, (r.run pre).containers.head? = some p ∧
        (r.run pre).drafts.size ∈ ((r.run cs).draftAt p).refs) := by
  have hb := r.run_isTree cs
  refine ⟨hb, hb.finalize_noComposition, hb.finalize_build.2, fun T hT => hb.build_nodes hT, ?_⟩
  rintro pre c post rfl hsize
  exact r.builder_isTree.added_under_open pre c post hsize

namespace Sample

/-- Folders, with a name and a parent folder. -/
def folderType : ModelType :=
  { name := "Folder", props := [.field "name" (.scalar .string), .field "parent" .object] }

/-- A folder's name, then its parent with the parent's name. -/
def folderCalls : List Call := [.value "name", .object "parent" folderType, .value "name", .close]

def folderTemplate : Template :=
  ((Root.object folderType).run folderCalls).build.toOption.getD default

/-- The folder's builder after all its calls. -/
def folderBuilder : Builder := (Root.object folderType).run folderCalls

/-- The folder's builder once the parent is open, before the parent's name is added. -/
def folderOpened : Builder :=
  (Root.object folderType).run [.value "name", .object "parent" folderType]

end Sample

/-- The folder template is built from its tree of drafts, and the parent's name is listed under
the parent, the container open when it was added. -/
theorem folder_template_from_drafts :
    Sample.folderBuilder.build = .ok Sample.folderTemplate ∧
    (Sample.folderOpened.call (.value "name")).drafts.size = Sample.folderOpened.drafts.size + 1 ∧
    (∃ node : Nat → Node, node 0 = Sample.folderTemplate.root ∧
      ∀ i < Sample.folderBuilder.drafts.size,
        (node i).children = (Sample.folderBuilder.draftAt i).children.map (Child.resolve node) ∧
        (Sample.folderBuilder.draftAt i).toNode
          ((Sample.folderBuilder.draftAt i).children.map (Child.resolve node)) = .ok (node i)) ∧
    (∃ p, Sample.folderOpened.containers.head? = some p ∧
      Sample.folderOpened.drafts.size ∈ (Sample.folderBuilder.draftAt p).refs) := by
  have hb : Sample.folderBuilder.build = .ok Sample.folderTemplate := by cbv
  have hs : (Sample.folderOpened.call (.value "name")).drafts.size =
      Sample.folderOpened.drafts.size + 1 := by cbv
  exact ⟨hb, hs, (drafts_form_tree (.object Sample.folderType) Sample.folderCalls).2.2.2.1 _ hb,
    (drafts_form_tree (.object Sample.folderType) Sample.folderCalls).2.2.2.2
      [.value "name", .object "parent" Sample.folderType] (.value "name") [.close] rfl hs⟩

end Builder

end GraphViews

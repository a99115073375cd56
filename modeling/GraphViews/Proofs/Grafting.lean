import Mathlib
import GraphViews.Proofs.Repetition
import GraphViews.Proofs.ObjectBlocks
import GraphViews.Proofs.DraftTree
/-!
# Grafting a template is a homomorphism of generation and staging

A builder grafts a template `T` as an object, reference, array or map property: the node it
adds to the built template has the kind and name of the call and the children and the type of
`T`'s root (`Node.GraftOf`, `Builder.graft_node`), and later calls change none of these.
Generation through the grafted node writes, for every associate, the events that `T` generates
for it on its own, the first one renamed after the property or the map key and put in the
grafted node's namespace, which is `T`'s unless set after the graft (`Template.Grafts`,
`Template.Renders`); staging an object with the grafted node is staging it with `T`'s root
(`Stage.object_graft`). The main statement is `grafting_is_homomorphic`. It holds in a context
with no listeners, where the frames only place errors, and for associates that are instances of
`T`'s type or null, which `T` checks and the grafted node does not (`Template.Admits`).

# How the proofs go

The two generation runs are not the same run. They differ in fuel, in the frames of their
contexts, and in the writer: the grafted node writes inside the owner's view, with its own
events before and its containers open. `Generate.repeatsAt` covers all three differences;
`Generate.associate_renamed` applies it to the grafted node and `T`'s root, whose bodies are
the same, and `Template.generate_of_associate` reads `T.generate` as the root's associate part.
`Run.Writes` then collects, kind by kind, what the grafted node's run appends. The grafted node
itself is found through the tree of drafts: the graft adds a draft outside the open containers,
whose outline no later call changes (`Builder.IsTree.calls_outline`), and the node of that draft
is a node of the built template (`Builder.IsTree.assemble_mem_nodes`).
-/

namespace GraphViews

-- ============================================================ grafted nodes

namespace Node

/-- A node grafted from a template's root, as `Builder.graft` makes it for an object, a
reference, an array or a map: the root's children and type. -/
structure GraftOf (g r : Node) : Prop where
  kind : g.kind = .object ∨ g.kind = .reference ∨ g.kind = .arrayOfObjects ∨
    g.kind = .mapOfObjects
  children : g.children = r.children
  modelType : g.modelType = r.modelType

/-- The root of a template for the objects of one type, as `Builder.forObject` makes it. -/
structure ObjectRoot (r : Node) (E : ModelType) : Prop where
  kind : r.kind = .object
  name : r.name = none
  modelType : r.modelType = some E
  accessor : ∃ dt, r.accessor = some (.root dt)

end Node

/-- Events with the first one renamed and put in a namespace, as a graft writes a view. -/
def renameHead (name ns : Option String) : List Event → List Event
  | [] => []
  | e :: es => { e with name, ns } :: es

namespace Template

/-- A model the template's type check lets through in a store: no object but of the root's
type. -/
def Admits (T : Template) (st : Store) (v : Value) : Prop :=
  ∀ h t, v = .object h → T.root.modelType = some t → st.isInstanceOf h t = true

/-- `D` is the view `T` generates for `v` from state `s`, whenever the type check of `T` lets `v`
through. -/
def Generates (T : Template) (c : Context) (s : RunState) (v : Value) (D : List Event) : Prop :=
  T.Admits s.store v → T.generate c v s = .ok D.toArray s

/-- `D₁` is the view `T` generates for `v` from state `s` with its first event renamed to `name`
in namespace `ns`, whenever the type check of `T` lets `v` through: a run `D` that starts
unnamed in the root's namespace, renamed. -/
def Renders (T : Template) (c : Context) (s : RunState) (name ns : Option String) (v : Value)
    (D₁ : List Event) : Prop :=
  ∃ D, T.Generates c s v D ∧ renameHead none T.root.info.ns D = D ∧ D₁ = renameHead name ns D

end Template

namespace Generate

open Run (Repeats)

variable {c₁ c₂ : Context} {w₁ w₂ : Writer}

/-- An associate written through a grafted node and through the root it was grafted from: the
same events, but for the name and the namespace of the first. -/
theorem associate_renamed {g r : Node} (hg : g.GraftOf r) {f F : Nat} (hF : r.bodyNeed + 1 ≤ F)
    (name₁ name₂ : Option String) (v : Value) (hc : c₁.Alike c₂)
    (hw : Writer.Aligned w₁ w₂) :
    Repeats (fun w₁' w₂' => ∃ D, Nested D ∧ renameHead name₂ r.info.ns D = D ∧
        Writer.Extended (renameHead name₁ g.info.ns D) D w₁ w₂ w₁' w₂')
      (associate f c₁ g name₁ v w₁) (associate F c₂ r name₂ v w₂) := by
  cases f with
  | zero =>
    simp only [associate, exhausted]
    exact Repeats.fail _ _
  | succ f =>
    obtain ⟨G, rfl⟩ := Nat.exists_eq_add_one_of_ne_zero (by omega : F ≠ 0)
    simp only [associate]
    cases v
    case object h =>
      -- the same children between begin events that differ in their names
      refine (bracket_repeats c₁ c₂ (by rfl) rfl rfl rfl (fun _ _ hv =>
        (repeatsAt f).body g r (.object h) hc hg.children (by omega) hv) hw).mono ?_
      rintro _ _ ⟨D, hD, hx⟩
      refine ⟨⟨.beginObject, name₂, r.info.ns, none⟩ :: (D ++ [Event.endObject]),
        Nested.bracket rfl rfl rfl hD, rfl, ?_⟩
      simpa [renameHead] using hx
    all_goals
      refine Repeats.ite (fun _ => (push_leaf_extended c₁ c₂ (by rfl) rfl rfl hw).mono ?_)
        fun _ => Repeats.fail _ _
      intro _ _ hx
      exact ⟨[⟨.value, name₂, r.info.ns, some .null⟩], Nested.leaf rfl rfl, rfl,
        by simpa [renameHead] using hx⟩

end Generate

theorem Run.access_pure {α : Type} (c : Context) (x : α) :
    Run.access c (pure x : Access α) = pure x :=
  rfl

/-- Generation from a template for the objects of one type, for a model its check lets through:
the part of its root as an associate, written into an empty writer. -/
theorem Template.generate_of_associate {T : Template} {E : ModelType} (hr : T.root.ObjectRoot E)
    {c : Context} (hq : c.listeners = []) {v : Value} {s : RunState} (hadm : T.Admits s.store v)
    {w' : Writer}
    (h : Generate.associate (8 * T.root.size + 5)
      (c.push { modelType := T.root.modelType, model := v }) T.root none v
      { maxDepth := c.options.maxDepth } s = .ok w' s) (hs : w'.stack = []) :
    T.generate c v s = .ok w'.events s := by
  obtain ⟨dt, hdt⟩ := hr.accessor
  have hK : 8 * (T.root.size + 1) = 8 * T.root.size + 5 + 1 + 1 + 1 := by ring
  have hq' : (c.push { modelType := T.root.modelType, model := v }).listeners = [] := hq
  have hf : w'.finish = .ok w'.events := by simp [Writer.finish, hs]
  have hrest : (Generate.associate (8 * T.root.size + 5)
      (c.push { modelType := T.root.modelType, model := v }) T.root none v
      { maxDepth := c.options.maxDepth } >>= fun w => Run.stream c w.finish) s =
        .ok w'.events s := by
    simp only [Bind.bind, EStateM.bind, h, hf, Run.stream, Run.lift, Except.mapError]
    rfl
  simp only [Template.generate, hK, Generate.template, Generate.rootPart, Generate.emit, hr.kind,
    Generate.accessorOf, hdt, Accessor.get, hr.name, Context.nodeVisited_quiet hq', pure_bind,
    bind_pure, Run.access_pure]
  cases v
  case object hd =>
    -- an object model passes the type check
    have hinst := hadm hd E rfl hr.modelType
    rw [show (Value.object hd, T.root.modelType) = (Value.object hd, some E) by rw [hr.modelType]]
    simp only [Bind.bind, EStateM.bind, Run.store, get, getThe, MonadStateOf.get, EStateM.get,
      Pure.pure, EStateM.pure, hinst, beq_self_eq_true, Bool.not_true, Bool.and_false,
      Bool.false_eq_true, if_false]
    exact hrest
  all_goals exact hrest

-- ============================================================ what a grafted node writes

theorem Writer.step_maxDepth (w : Writer) (e : Event) : (w.step e).1.maxDepth = w.maxDepth := by
  unfold Writer.step
  split_ifs <;> (try split) <;> (try split_ifs) <;> rfl

theorem Writer.push_maxDepth {w w' : Writer} {e : Event} (h : w.push e = .ok w') :
    w'.maxDepth = w.maxDepth := by
  have hs := Writer.push_ok_iff.1 h
  have := w.step_maxDepth e
  rw [hs] at this
  exact this

namespace Run

/-- From state `s`, a run that, when it ends well, has left the state as it was and appended to
`w` events with `P`, under the same limit. -/
def Writes (s : RunState) (w : Writer) (P : List Event → Prop) (x : Run Writer) : Prop :=
  ∀ w' s', x s = .ok w' s' → s' = s ∧ w'.maxDepth = w.maxDepth ∧
    ∃ D, P D ∧ w'.events.toList = w.events.toList ++ D

namespace Writes

variable {s : RunState} {w : Writer} {P Q : List Event → Prop}

theorem mono {x : Run Writer} (h : Writes s w P x) (hPQ : ∀ D, P D → Q D) : Writes s w Q x := by
  intro w' s' hx
  obtain ⟨hs, hd, D, hD, he⟩ := h w' s' hx
  exact ⟨hs, hd, D, hPQ D hD, he⟩

/-- A step before the writing that, as any run another repeats, leaves the state as it was. -/
theorem read {α β : Type} {R : α → β → Prop} {x : Run α} {y : Run β} (hx : Repeats R x y)
    {k : α → Run Writer} (hk : ∀ a, x s = .ok a s → Writes s w P (k a)) :
    Writes s w P (x >>= k) := by
  intro w' s' h
  obtain ⟨a, s₁, h₁, h₂⟩ := bind_ok h
  obtain ⟨hs₁, -⟩ := hx s a s₁ h₁
  rw [hs₁] at h₁ h₂
  exact hk a h₁ w' s' h₂

theorem push (c : Context) (e : Event) : Writes s w (· = [e]) (Generate.push c w e) := by
  intro w' s' h
  have hev := Generate.push_ok_events h
  unfold Generate.push at h
  obtain ⟨hp, hs⟩ := Generate.stream_ok h
  exact ⟨hs, Writer.push_maxDepth hp, [e], rfl, hev⟩

theorem seq {x : Run Writer} {k : Writer → Run Writer} (hx : Writes s w P x)
    (hk : ∀ w₁ : Writer, w₁.maxDepth = w.maxDepth → Writes s w₁ Q (k w₁)) :
    Writes s w (fun D => ∃ D₁ D₂, P D₁ ∧ Q D₂ ∧ D = D₁ ++ D₂) (x >>= k) := by
  intro w' s' h
  obtain ⟨w₁, s₁, h₁, h₂⟩ := bind_ok h
  obtain ⟨hs₁, hd₁, D₁, hD₁, he₁⟩ := hx w₁ s₁ h₁
  rw [hs₁] at h₂
  obtain ⟨hs₂, hd₂, D₂, hD₂, he₂⟩ := hk w₁ hd₁ w' s' h₂
  exact ⟨hs₂, hd₂.trans hd₁, D₁ ++ D₂, ⟨D₁, D₂, hD₁, hD₂, rfl⟩,
    by rw [he₂, he₁, List.append_assoc]⟩

/-- A fold whose every step writes events of its element: the events of all, in order. -/
theorem foldlM {β : Type} {P : β → List Event → Prop} {step : Writer → β → Run Writer} :
    ∀ (L : List β) {w : Writer}, (∀ b ∈ L, ∀ w₁ : Writer, w₁.maxDepth = w.maxDepth →
      Writes s w₁ (P b) (step w₁ b)) →
    Writes s w (fun D => ∃ Ds, List.Forall₂ P L Ds ∧ D = Ds.flatten) (L.foldlM step w)
  | [], w, _ => by
    intro w' s' h
    cases h
    exact ⟨rfl, rfl, [], ⟨[], .nil, rfl⟩, by simp⟩
  | b :: L, w, hstep => by
    simp only [List.foldlM_cons]
    refine (seq (hstep b List.mem_cons_self w rfl) fun w₁ hw₁ =>
      foldlM L fun b' hb' w₂ hw₂ =>
        hstep b' (List.mem_cons_of_mem _ hb') w₂ (hw₂.trans hw₁)).mono ?_
    rintro _ ⟨D₁, D₂, hD₁, ⟨Ds, hDs, rfl⟩, rfl⟩
    exact ⟨D₁ :: Ds, .cons hD₁ hDs, rfl⟩

end Writes

end Run

/-- The value of a node's property of an owner, read through its accessor from a store. -/
def Node.ReadsAs (n : Node) (o : Value) (st : Store) (v : Value) : Prop :=
  ∃ a, n.accessor = some a ∧ (a.get o) st = .ok v st

/-- The property name of a map key written as an object: a text key itself, any other its text. -/
def keyName : Scalar → String
  | .string s => s
  | other => other.text

namespace Template

/-- One entry of a map grafted from `T`: the key's view, and the view `T` generates for the
value, renamed after the key when keys are texts, else as the `value` of a `{key, value}`
object. -/
def RendersEntry (T : Template) (c : Context) (s : RunState) (g : Node) (entry : Scalar × Value)
    (D : List Event) : Prop :=
  ∃ key, Generate.keyToView c g entry.1 s = .ok key s ∧
    if g.info.stringKeys then T.Renders c s (some (keyName key)) g.info.ns entry.2 D
    else ∃ V, T.Renders c s (some "value") g.info.ns entry.2 V ∧
      D = Event.beginObject none :: Event.valueOf (some "key") none key :: (V ++ [.endObject])

/-- What generation writes through a node `g` grafted from `T`'s root for an owner `o`, from
state `s`: for an object, the view `T` generates for the property, renamed after it; for a
collection, a null, or those of its elements between its begin and end; for a map, a null, or
those of its values between its begin and end, one per entry. Each view `T` generates starts in
`g`'s namespace, which is the root's unless the builder set another on `g`. A graft makes no
other kind of node. -/
def Grafts (T : Template) (c : Context) (s : RunState) (g : Node) (o : Value) (D : List Event) :
    Prop :=
  match g.kind with
  | .object | .reference => ∃ v, g.ReadsAs o s.store v ∧ T.Renders c s g.name g.info.ns v D
  | .arrayOfObjects => ∃ cur, g.ReadsAs o s.store cur ∧
    (cur.isNull = true ∧ D = [Generate.nodeEvent g .value (some .null)] ∨
      cur.isNull = false ∧ ∃ m els Ds, g.multi = some m ∧
        (m.iterate o) s.store = .ok els s.store ∧
        List.Forall₂ (T.Renders c s none g.info.ns) els Ds ∧
        D = Generate.nodeEvent g .beginArray none :: (Ds.flatten ++ [.endArray]))
  | .mapOfObjects => ∃ cur, g.ReadsAs o s.store cur ∧
    (cur.isNull = true ∧ D = [Generate.nodeEvent g .value (some .null)] ∨
      cur.isNull = false ∧ ∃ m entries Ds, g.multi = some m ∧
        (m.entries o) s.store = .ok entries s.store ∧
        List.Forall₂ (T.RendersEntry c s g) entries Ds ∧
        D = if g.info.stringKeys then
            Generate.nodeEvent g .beginObject none :: (Ds.flatten ++ [.endObject])
          else Generate.nodeEvent g .beginArray none :: (Ds.flatten ++ [.endArray]))
  | _ => False

end Template

namespace Generate

open Run (Repeats Writes)

variable {T : Template} {E : ModelType} {g : Node} {ctx c : Context} {s : RunState} {w : Writer}

theorem accessorOf_ok {n : Node} {a : Accessor} {s' : RunState}
    (h : accessorOf ctx n s = .ok a s') :
    n.accessor = some a := by
  unfold accessorOf at h
  cases ha : n.accessor with
  | none =>
    rw [ha] at h
    cases h
  | some b =>
    rw [ha] at h
    cases h
    rfl

theorem multiOf_ok {n : Node} {m : Multi} {s' : RunState} (h : multiOf ctx n s = .ok m s') :
    n.multi = some m := by
  unfold multiOf at h
  cases hm : n.multi with
  | none =>
    rw [hm] at h
    cases h
  | some b =>
    rw [hm] at h
    cases h
    rfl

theorem access_ok {α : Type} {m : Access α} (hm : Access.Reads m) {a : α}
    (h : Run.access ctx m s = .ok a s) : m s.store = .ok a s.store := by
  simp only [Run.access] at h
  cases hs : m s.store with
  | error e st =>
    rw [hs] at h
    cases h
  | ok b st =>
    rw [hs] at h
    simp only [EStateM.Result.ok.injEq] at h
    rw [h.1, ← hm.of_ok hs]

/-- The node's property of the owner read, then writing from its value. -/
theorem property_writes {n : Node} {o : Value} {P : List Event → Prop} {k : Value → Run Writer}
    (hk : ∀ v, n.ReadsAs o s.store v → Writes s w P (k v)) :
    Writes s w P (accessorOf ctx n >>= fun a => Run.access ctx (a.get o) >>= k) :=
  Writes.read (accessorOf_repeats ctx ctx n) fun a ha =>
    Writes.read (Repeats.access ctx ctx (a.reads_get o)) fun v hv =>
      hk v ⟨a, accessorOf_ok ha, access_ok (a.reads_get o) hv⟩

/-- A begin event, a fold whose every step writes events of its element, and an end event. -/
theorem bracket_writes {β : Type} {P : β → List Event → Prop}
    {step : Writer → β → Run Writer} (c : Context) (b e : Event) (L : List β)
    (hstep : ∀ x ∈ L, ∀ w₁ : Writer, w₁.maxDepth = w.maxDepth →
      Writes s w₁ (P x) (step w₁ x)) :
    Writes s w (fun D => ∃ Ds, List.Forall₂ P L Ds ∧ D = b :: (Ds.flatten ++ [e]))
      (push c w b >>= fun w => L.foldlM step w >>= fun w => push c w e) := by
  refine ((Writes.push c b).seq fun w₁ hw₁ => (Writes.foldlM L fun x hx w₂ hw₂ =>
    hstep x hx w₂ (hw₂.trans hw₁)).seq fun _ _ => Writes.push c e).mono ?_
  rintro _ ⟨_, _, rfl, ⟨_, _, ⟨Ds, hDs, rfl⟩, rfl, rfl⟩, rfl⟩
  exact ⟨Ds, hDs, rfl⟩

/-- A map key converted toward the view, in a context alike but for its frames to `c`: the key
`c` converts it to. -/
theorem key_writes {ctx' : Context} (hc' : ctx'.Alike c) (n : Node) (k : Scalar)
    {P : List Event → Prop} {K : Scalar → Run Writer}
    (hK : ∀ key, keyToView c n k s = .ok key s → Writes s w P (K key)) :
    Writes s w P (keyToView ctx' n k >>= K) := by
  refine Writes.read (keyToView_repeats hc' n k) fun key hkey => ?_
  obtain ⟨-, key', hkey', rfl⟩ := keyToView_repeats hc' n k s key s hkey
  exact hK key hkey'

section Graft

variable (hr : T.root.ObjectRoot E) (hg : g.GraftOf T.root) (hc : ctx.Alike c)
include hr hg hc

/-- An associate written through a node grafted from `T`'s root: the view `T` generates for it,
the first event renamed and in the node's namespace, whenever `T`'s check lets it through. -/
theorem associate_writes {f : Nat} (name : Option String) (v : Value)
    (hw : w.maxDepth = ctx.options.maxDepth) :
    Writes s w (T.Renders c s name g.info.ns v) (associate f ctx g name v w) := by
  intro w' s' h
  have hc' := hc.push_right { modelType := T.root.modelType, model := v }
  have hal : Writer.Aligned w { maxDepth := c.options.maxDepth } :=
    ⟨by rw [hw, hc.options], Nat.zero_le _⟩
  have hF : T.root.bodyNeed + 1 ≤ 8 * T.root.size + 5 := by
    have := T.root.bodyNeed_le_emitNeed
    simp only [Node.emitNeed] at this
    omega
  obtain ⟨hs, w₂, h₂, D, -, hnone, hx⟩ :=
    associate_renamed hg hF name none v hc' hal s w' s' h
  subst hs
  refine ⟨rfl, hx.maxDepth₁, renameHead name g.info.ns D, ⟨D, fun hadm => ?_, hnone, rfl⟩,
    hx.events₁⟩
  have hv : w₂.events = D.toArray := by
    rw [← Array.toList_inj, hx.events₂]
    simp
  rw [← hv]
  exact T.generate_of_associate hr hc.quiet₂ hadm h₂ (by rw [hx.stack₂])

/-- An element of a collection or a map value grafted from `T`. -/
theorem element_writes (hk : g.kind = .arrayOfObjects ∨ g.kind = .mapOfObjects) {f : Nat}
    (name : Option String) (v : Value) (hw : w.maxDepth = ctx.options.maxDepth) :
    Writes s w (T.Renders c s name g.info.ns v) (element f ctx g name v w) := by
  cases f with
  | zero =>
    intro w' s' h
    cases h
  | succ f =>
    have hobj : (g.kind == .arrayOfObjects || g.kind == .mapOfObjects) = true := by
      rcases hk with hk | hk <;> simp [hk]
    simp only [element, hobj, if_true]
    exact associate_writes hr hg hc name v hw

/-- A grafted object: the view `T` generates for the property, renamed after the node. -/
theorem emit_object_writes (hk : g.kind = .object ∨ g.kind = .reference) {f : Nat} (o : Value)
    (hw : w.maxDepth = ctx.options.maxDepth) :
    Writes s w (fun D => ∃ v, g.ReadsAs o s.store v ∧ T.Renders c s g.name g.info.ns v D)
      (emit (f + 1) ctx g o w) := by
  have hemit : emit (f + 1) ctx g o w = (accessorOf ctx g >>= fun a =>
      Run.access ctx (a.get o) >>= fun v => associate f ctx g g.name v w) := by
    rcases hk with hk | hk <;> simp only [emit, hk]
  rw [hemit]
  exact property_writes fun v hread =>
    (associate_writes hr hg hc g.name v hw).mono fun D hD => ⟨v, hread, hD⟩

/-- A grafted collection: a null, or the views `T` generates for its elements, in order,
between its begin and end. -/
theorem emit_array_writes (hk : g.kind = .arrayOfObjects) {f : Nat} (o : Value)
    (hw : w.maxDepth = ctx.options.maxDepth) :
    Writes s w (fun D => ∃ cur, g.ReadsAs o s.store cur ∧
      (cur.isNull = true ∧ D = [nodeEvent g .value (some .null)] ∨
        cur.isNull = false ∧ ∃ m els Ds, g.multi = some m ∧
          (m.iterate o) s.store = .ok els s.store ∧
          List.Forall₂ (T.Renders c s none g.info.ns) els Ds ∧
          D = nodeEvent g .beginArray none :: (Ds.flatten ++ [.endArray])))
      (emit (f + 1) ctx g o w) := by
  simp only [emit, hk]
  refine property_writes fun cur hread => ?_
  by_cases hnull : cur.isNull = true
  · simp only [hnull, if_true]
    exact (Writes.push ctx _).mono fun D hD => ⟨cur, hread, .inl ⟨hnull, hD⟩⟩
  simp only [hnull, Bool.false_eq_true, if_false]
  refine Writes.read (multiOf_repeats ctx ctx g) fun m hm =>
    Writes.read (Repeats.access ctx ctx (Multi.reads_iterate o m)) fun els hels => ?_
  -- the elements, each in a frame of its own, between the begin and the end
  refine (bracket_writes (P := fun (x : Value × Nat) => T.Renders c s none g.info.ns x.1) ctx
    _ _ _ fun x _ w₁ hw₁ => ?_).mono ?_
  · exact element_writes hr hg (hc.push_left _) (.inl hk) none x.1 (by rw [hw₁, hw]; rfl)
  · rintro _ ⟨Ds, hDs, rfl⟩
    have hels' := List.forall₂_map_left_iff.2 hDs
    rw [List.zipIdx_map_fst] at hels'
    exact ⟨cur, hread, .inr ⟨by simpa using hnull, m, els, Ds, multiOf_ok hm,
      access_ok (Multi.reads_iterate o m) hels, hels', rfl⟩⟩

/-- A grafted map: a null, or the views `T` generates for its values, one per entry, between
its begin and end. -/
theorem emit_map_writes (hk : g.kind = .mapOfObjects) {f : Nat} (o : Value)
    (hw : w.maxDepth = ctx.options.maxDepth) :
    Writes s w (fun D => ∃ cur, g.ReadsAs o s.store cur ∧
      (cur.isNull = true ∧ D = [nodeEvent g .value (some .null)] ∨
        cur.isNull = false ∧ ∃ m entries Ds, g.multi = some m ∧
          (m.entries o) s.store = .ok entries s.store ∧
          List.Forall₂ (T.RendersEntry c s g) entries Ds ∧
          D = if g.info.stringKeys then
              nodeEvent g .beginObject none :: (Ds.flatten ++ [.endObject])
            else nodeEvent g .beginArray none :: (Ds.flatten ++ [.endArray])))
      (emit (f + 1) ctx g o w) := by
  simp only [emit, hk]
  refine property_writes fun cur hread => ?_
  by_cases hnull : cur.isNull = true
  · simp only [hnull, if_true]
    exact (Writes.push ctx _).mono fun D hD => ⟨cur, hread, .inl ⟨hnull, hD⟩⟩
  simp only [hnull, Bool.false_eq_true, if_false]
  refine Writes.read (multiOf_repeats ctx ctx g) fun m hm =>
    Writes.read (Repeats.access ctx ctx (Multi.reads_entries o m)) fun entries hentries => ?_
  have hentries' := access_ok (Multi.reads_entries o m) hentries
  -- the entries, each in a frame of its own, between the begin and the end
  by_cases hsk : g.info.stringKeys = true
  · -- an object with one property per key, named after the key
    simp only [hsk, if_true]
    refine (bracket_writes (P := T.RendersEntry c s g) ctx _ _ _ fun x _ w₁ hw₁ => ?_).mono ?_
    · obtain ⟨k, v⟩ := x
      refine key_writes (hc.push_left _) g k fun key hkey => ?_
      refine (element_writes hr hg (hc.push_left _) (.inr hk) _ v (by rw [hw₁, hw]; rfl)).mono
        fun D hD => ⟨key, hkey, ?_⟩
      rw [if_pos hsk]
      convert hD using 3
      cases key <;> rfl
    · rintro _ ⟨Ds, hDs, rfl⟩
      exact ⟨cur, hread, .inr ⟨by simpa using hnull, m, entries, Ds, multiOf_ok hm, hentries',
        hDs, rfl⟩⟩
  · -- an array of key and value objects
    simp only [hsk, Bool.false_eq_true, if_false]
    refine (bracket_writes (P := T.RendersEntry c s g) ctx _ _ _ fun x _ w₁ hw₁ => ?_).mono ?_
    · obtain ⟨k, v⟩ := x
      refine key_writes (hc.push_left _) g k fun key hkey => ?_
      refine ((Writes.push _ _).seq fun y₁ hy₁ => (Writes.push _ _).seq fun y₂ hy₂ =>
        (element_writes hr hg (hc.push_left _) (.inr hk) (some "value") v
          (by rw [hy₂, hy₁, hw₁, hw]; rfl)).seq fun _ _ => Writes.push _ _).mono ?_
      rintro _ ⟨_, _, rfl, ⟨_, _, rfl, ⟨V, _, hV, rfl, rfl⟩, rfl⟩, rfl⟩
      exact ⟨key, hkey, by rw [if_neg hsk]; exact ⟨V, hV, rfl⟩⟩
    · rintro _ ⟨Ds, hDs, rfl⟩
      exact ⟨cur, hread, .inr ⟨by simpa using hnull, m, entries, Ds, multiOf_ok hm, hentries',
        hDs, rfl⟩⟩

/-- Generation through a node grafted from `T`'s root writes what `Template.Grafts` says, at
every fuel. -/
theorem emit_grafts {f : Nat} (o : Value) (hw : w.maxDepth = ctx.options.maxDepth) :
    Writes s w (T.Grafts c s g o) (emit f ctx g o w) := by
  cases f with
  | zero =>
    intro w' s' h
    cases h
  | succ f =>
    cases hk : g.kind
    case object | reference =>
      exact (emit_object_writes hr hg hc (by simp [hk]) o hw).mono fun D hD => by
        simpa only [Template.Grafts, hk] using hD
    case arrayOfObjects =>
      exact (emit_array_writes hr hg hc hk o hw).mono fun D hD => by
        simpa only [Template.Grafts, hk] using hD
    case mapOfObjects =>
      exact (emit_map_writes hr hg hc hk o hw).mono fun D hD => by
        simpa only [Template.Grafts, hk] using hD
    all_goals
      -- a graft makes no other kind of node
      exfalso
      rcases hg.kind with h | h | h | h <;> rw [h] at hk <;> cases hk

end Graft

end Generate

-- ============================================================ staging through a grafted node

namespace Node.GraftOf

variable {g r : Node} (hg : g.GraftOf r)
include hg

theorem routes : g.routes = r.routes := by
  obtain ⟨gi, gc, gs⟩ := g
  obtain ⟨ri, rc, rs⟩ := r
  have hc : gc = rc := hg.children
  simp only [Node.routes, hc]

theorem discriminated : g.discriminated = r.discriminated := by
  obtain ⟨gi, gc, gs⟩ := g
  obtain ⟨ri, rc, rs⟩ := r
  have hc : gc = rc := hg.children
  simp only [Node.discriminated, hc]

theorem candidates : g.candidates = r.candidates := by
  obtain ⟨gi, gc, gs⟩ := g
  obtain ⟨ri, rc, rs⟩ := r
  have hc : gc = rc := hg.children
  have ht : gi.modelType = ri.modelType := hg.modelType
  simp only [Node.candidates, hc, ht]

theorem route_eq (name : String) (ns : Option String) (t : ModelType) :
    g.route? name ns t = r.route? name ns t := by
  simp only [Node.route?, hg.routes, hg.discriminated]

end Node.GraftOf

namespace Stage

theorem null_quiet {ctx : Context} (hq : ctx.listeners = []) (n : Node) : null ctx n = .null := by
  simp [null, Context.willInjectValue, hq]

/-- The properties of an object staged with a grafted node are staged as with the root it was
grafted from, in every context. -/
theorem body_graft {g r : Node} (hg : g.GraftOf r) :
    ∀ (fuel : Nat) (ctx : Context) (entity : Entity),
      body fuel ctx g entity = body fuel ctx r entity
  | 0, _, _ => rfl
  | fuel + 1, ctx, entity => by
    simp only [body, hg.route_eq, hg.candidates, body_graft hg fuel]

theorem object_graft {g r : Node} (hg : g.GraftOf r) {ctx : Context} (hq : ctx.listeners = []) :
    ∀ (fuel : Nat) (t : ModelType), object fuel ctx g t = object fuel ctx r t
  | 0, _ => rfl
  | fuel + 1, t => by
    simp only [object, body_graft hg, null_quiet hq]

end Stage

-- ============================================================ the node a graft adds

namespace Builder

/-- The calls that graft a template `T` as a node of kind `k` named `n`. -/
inductive Call.IsGraft : Call → NodeKind → String → Template → Prop
  | object (n : String) (T : Template) : Call.IsGraft (.objectTemplate n T) .object n T
  | reference (n : String) (T : Template) : Call.IsGraft (.referenceTemplate n T) .reference n T
  | array (n : String) (T : Template) : Call.IsGraft (.arrayTemplate n T) .arrayOfObjects n T
  | map (n : String) (T : Template) : Call.IsGraft (.mapTemplate n T) .mapOfObjects n T

variable {b : Builder} {c : Call} {k : NodeKind} {n : String} {T : Template}

theorem Call.IsGraft.call_eq (h : c.IsGraft k n T) (b : Builder) :
    ∃ reference, b.call c = b.graft k n T reference := by
  cases h with
  | object => exact ⟨false, rfl⟩
  | reference => exact ⟨true, rfl⟩
  | array => exact ⟨false, rfl⟩
  | map => exact ⟨false, rfl⟩

theorem Call.IsGraft.kind_eq (h : c.IsGraft k n T) :
    k = .object ∨ k = .reference ∨ k = .arrayOfObjects ∨ k = .mapOfObjects := by
  cases h <;> simp

/-- A graft of a template for objects by a builder that records no error adds one draft after
the others, outside the open containers, with the call's kind and name and the root's children
and type. -/
theorem graft_adds (hb : b.IsTree) {reference : Bool} (hk : k ≠ .envelope)
    (ht : T.root.kind = .object) (h1 : (b.graft k n T reference).error = none) :
    (b.graft k n T reference).drafts.size = b.drafts.size + 1 ∧
    (b.graft k n T reference).containers = b.containers ∧
    ((b.graft k n T reference).draftAt b.drafts.size).outline =
      (T.root.children.map .built, k, some n, T.root.modelType) := by
  unfold graft at h1 ⊢
  cases hm : T.root.modelType with
  | none => simp [ht, hm, fail_error_ne] at h1
  | some e =>
    -- the root of a template for objects has an element type, so the graft is an add
    simp only [ht, hm, beq_self_eq_true, Bool.true_or, if_true] at h1 ⊢
    obtain ⟨hs, hc, ho⟩ := hb.add_ok h1 hk
    exact ⟨hs, hc, ho⟩

/-- The node that a call grafting a template for objects adds to a built template: a node of the
template, of the call's kind and name, grafted from the template's root. -/
theorem graft_node {r : Root} {pre post : List Call} {T' : Template} (ht : T.root.kind = .object)
    (hc : c.IsGraft k n T) (hT' : (r.run (pre ++ c :: post)).build = .ok T') :
    ∃ g, (r.run (pre ++ c :: post)).assemble (r.run pre).drafts.size = .ok g ∧ g ∈ T'.nodes ∧
      g.kind = k ∧ g.name = some n ∧ g.GraftOf T.root := by
  have hb := r.run_isTree pre
  obtain ⟨reference, hcall⟩ := hc.call_eq (r.run pre)
  have hrun : r.run (pre ++ c :: post) = ((r.run pre).graft k n T reference).calls post := by
    rw [Root.run, calls_append, calls_cons, ← hcall]
    rfl
  rw [hrun] at hT' ⊢
  -- no call after the graft records an error, so the graft added its draft
  have h1 : ((r.run pre).graft k n T reference).error = none := error_of_calls (error_of_build hT')
  have hk : k ≠ .envelope := by rcases hc.kind_eq with h | h | h | h <;> simp [h]
  obtain ⟨hsize, hcont, hout⟩ := graft_adds hb hk ht h1
  have hb₁ : ((r.run pre).graft k n T reference).IsTree := hcall ▸ (call_treeStep hb c).isTree hb
  have hj : (r.run pre).drafts.size < ((r.run pre).graft k n T reference).drafts.size := by omega
  have hoj : (r.run pre).drafts.size ∉ ((r.run pre).graft k n T reference).containers := by
    rw [hcont]
    exact fun h => lt_irrefl _ (hb.lt_of_mem_containers h)
  -- later calls keep the draft's outline
  have hout' := (hb₁.calls_outline hj hoj post).trans hout
  simp only [Draft.outline, Prod.mk.injEq] at hout'
  obtain ⟨hch, hkind, hname, htype⟩ := hout'
  have hbf := hb₁.calls post
  have hreach := hbf.reach_zero (lt_of_lt_of_le hj (hb₁.size_le_calls post))
  obtain ⟨g, hg⟩ := hbf.assemble_ok_of_reach (hbf.assemble_of_build hT') hreach
  -- the node is made from the root's children, which the draft holds as built nodes
  have hmake := hg
  rw [assemble_eq, hch, mapM_eq_ok_map (g := Child.resolve fun _ => default)
    (fun _ hx => by obtain ⟨m, -, rfl⟩ := List.mem_map.1 hx; rfl)] at hmake
  simp only [List.map_map, Function.comp_def, Child.resolve, List.map_id'] at hmake
  obtain ⟨hk', hn', ht'⟩ := Draft.toNode_outline _ hmake
  refine ⟨g, hg, hbf.assemble_mem_nodes hT' hreach hg, hk'.trans hkind, hn'.trans hname,
    ⟨?_, Draft.toNode_children _ hmake, ht'.trans htype⟩⟩
  rw [hk', hkind]
  exact hc.kind_eq

end Builder

/-- Grafting a template is a homomorphism of generation and staging. Let `T` be a template for
the objects of `E`, and `T'` a template built by calls one of which grafts `T` as an object, a
reference, an array or a map named `n`. The node `g` that call adds is a node of `T'`, of the
call's kind and named `n`, with the children and the type of `T`'s root. Generation through `g`
in a context without listeners writes, for every owner, what `T` generates on its own
(`Template.Grafts`): the property's view with its first event renamed after `g`, the views of a
collection's elements between its begin and end, those of a map's values named after their keys
or inside `{key, value}` objects, each for every associate that is an instance of `E` or no
object, and each starting in `g`'s namespace. And staging an object with `g` is staging it with
`T`'s root. -/
theorem grafting_is_homomorphic {r : Builder.Root} {pre post : List Builder.Call}
    {call : Builder.Call} {k : NodeKind} {n : String} {T T' : Template} {E : ModelType}
    (hr : T.root.ObjectRoot E) (hcall : call.IsGraft k n T)
    (hT' : (r.run (pre ++ call :: post)).build = .ok T') :
    ∃ g, (r.run (pre ++ call :: post)).assemble (r.run pre).drafts.size = .ok g ∧ g ∈ T'.nodes ∧
      g.kind = k ∧ g.name = some n ∧ g.GraftOf T.root ∧
      (∀ {fuel : Nat} {ctx c : Context} {o : Value} {w w' : Writer} {s s' : RunState},
        ctx.Alike c → w.maxDepth = ctx.options.maxDepth →
        Generate.emit fuel ctx g o w s = .ok w' s' →
        s' = s ∧ ∃ D, T.Grafts c s g o D ∧ w'.events.toList = w.events.toList ++ D) ∧
      ∀ (fuel : Nat) (ctx : Context), ctx.listeners = [] →
        Stage.object fuel ctx g E = Stage.object fuel ctx T.root E := by
  obtain ⟨g, hg, hmem, hk, hn, hgraft⟩ := Builder.graft_node hr.kind hcall hT'
  refine ⟨g, hg, hmem, hk, hn, hgraft, ?_, fun fuel ctx hq => Stage.object_graft hgraft hq fuel E⟩
  intro fuel ctx c o w w' s s' hc hw h
  obtain ⟨hs, -, D, hD, he⟩ := Generate.emit_grafts hr hgraft hc o hw w' s' h
  exact ⟨hs, D, hD, he⟩

namespace Sample

/-- An order line, with one text property. -/
def lineType : ModelType := { name := "Line", props := [.field "sku" (.scalar .string)] }

/-- An order, with a list of lines. -/
def orderType : ModelType := { name := "Order", props := [.field "lines" .list] }

def lineTemplate : Template :=
  ((Builder.forObject lineType).value "sku").build.toOption.getD default

def orderTemplate : Template :=
  ((Builder.forObject orderType).arrayTemplate "lines" lineTemplate).build.toOption.getD default

end Sample

/-- The order template grafts the line template as its list of lines: the node of the lines is
written as the line template writes each line, and staged as it stages one. -/
theorem order_lines_graft_homomorphic :
    Sample.lineTemplate.root.ObjectRoot Sample.lineType ∧
    (Builder.Call.arrayTemplate "lines" Sample.lineTemplate).IsGraft .arrayOfObjects "lines"
      Sample.lineTemplate ∧
    ((Builder.Root.object Sample.orderType).run
      ([] ++ [.arrayTemplate "lines" Sample.lineTemplate])).build = .ok Sample.orderTemplate ∧
    ∃ g, ((Builder.Root.object Sample.orderType).run
        ([] ++ [.arrayTemplate "lines" Sample.lineTemplate])).assemble
          ((Builder.Root.object Sample.orderType).run []).drafts.size = .ok g ∧
      g ∈ Sample.orderTemplate.nodes ∧ g.kind = .arrayOfObjects ∧ g.name = some "lines" ∧
      g.GraftOf Sample.lineTemplate.root ∧
      (∀ {fuel : Nat} {ctx c : Context} {o : Value} {w w' : Writer} {s s' : RunState},
        ctx.Alike c → w.maxDepth = ctx.options.maxDepth →
        Generate.emit fuel ctx g o w s = .ok w' s' →
        s' = s ∧ ∃ D, Sample.lineTemplate.Grafts c s g o D ∧
          w'.events.toList = w.events.toList ++ D) ∧
      ∀ (fuel : Nat) (ctx : Context), ctx.listeners = [] →
        Stage.object fuel ctx g Sample.lineType =
          Stage.object fuel ctx Sample.lineTemplate.root Sample.lineType := by
  have hr : Sample.lineTemplate.root.ObjectRoot Sample.lineType :=
    ⟨by cbv, by cbv, by cbv, ⟨.object, by cbv⟩⟩
  have hb : ((Builder.Root.object Sample.orderType).run
      ([] ++ [.arrayTemplate "lines" Sample.lineTemplate])).build = .ok Sample.orderTemplate := by
    cbv
  exact ⟨hr, .array _ _, hb, grafting_is_homomorphic hr (.array _ _) hb⟩

end GraphViews

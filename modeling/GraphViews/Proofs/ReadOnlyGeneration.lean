import Mathlib
import GraphViews.Proofs.CollectionCalls
/-!
# Generation only reads the model

Generation reads each property through the node's accessor and each collection through its
collection access, and writes only to the writer, the log and the labels. The main statement,
`generate_keeps_store`, says that generating a view from any model, with any template and any
context, ends with the store it started with, whether it succeeds or fails: every object keeps
its fields and every list, set and map cell its contents. In particular a null collection or map
property stays null: the read side of the collection access never attaches a container, which
only its write side does.

The collaborators a context can hold cannot write either: listeners log, meta handlers and
computed getters are functions of the store, converters of the value.

# How the proofs go

Every accessor's read and the collection reads `Multi.iterate` and `Multi.entries` leave the
store as it is (`Access.Reads`: `Accessor.reads_get`, `Multi.reads_iterate`,
`Multi.reads_entries`). `Run.KeepsStore x` says the same of a run, and is closed under `bind`
and folds. As for `Generate.appendsAt`, one
induction on the fuel covers the generation functions: `KeepsAt fuel` collects the statement for
each of them, and one lemma per function proves it at `fuel + 1` from `KeepsAt fuel`.
-/

namespace GraphViews

-- ============================================================ runs that keep the store

namespace Run

theorem after_bind_error {α β : Type} {x : Run α} {k : α → Run β} {s s₁ : RunState}
    {e : ViewError} (h : x s = .error e s₁) : Run.after (x >>= k) s = s₁ := by
  simp only [after, bind, EStateM.bind, h]

/-- A run that ends, either way, with the store it started with. -/
def KeepsStore {α : Type} (x : Run α) : Prop := ∀ s, (Run.after x s).store = s.store

namespace KeepsStore

theorem pure {α : Type} (a : α) : KeepsStore (Pure.pure a : Run α) := fun _ => rfl

theorem fail {α : Type} (ctx : Context) (k : ViewErrorKind) : KeepsStore (Run.fail ctx k : Run α) :=
  fun _ => rfl

theorem bind {α β : Type} {x : Run α} {k : α → Run β} (hx : KeepsStore x)
    (hk : ∀ a, KeepsStore (k a)) : KeepsStore (x >>= k) := by
  intro s
  cases h : x s with
  | ok a s₁ =>
    have hxs := hx s
    simp only [after, h] at hxs
    rw [after_bind_ok h, hk a s₁, hxs]
  | error e s₁ =>
    have hxs := hx s
    simp only [after, h] at hxs
    rw [after_bind_error h, hxs]

theorem store : KeepsStore Run.store := fun _ => rfl

theorem record (e : LogEntry) : KeepsStore (Run.record e) := fun _ => rfl

/-- A store access that only reads keeps the store of the run. -/
theorem access {α : Type} (ctx : Context) {m : Access α} (hm : m.Reads) :
    KeepsStore (Run.access ctx m) := by
  intro s
  simp only [after, Run.access]
  cases h : m s.store with
  | ok a st => exact hm.of_ok h
  | error e st => exact hm.of_error h

theorem lift {α : Type} (ctx : Context) (r : Except ViewErrorKind α) :
    KeepsStore (Run.lift ctx r) := by
  cases r with
  | ok a => exact pure a
  | error k => exact fail ctx k

theorem stream {α : Type} (ctx : Context) (r : Except StreamError α) :
    KeepsStore (Run.stream ctx r) := lift ctx _

theorem convert {α : Type} (ctx : Context) (r : Except ConversionError α) :
    KeepsStore (Run.convert ctx r) := lift ctx _

theorem foldlM {β γ : Type} {f : β → γ → Run β} (hf : ∀ b c, KeepsStore (f b c)) :
    ∀ (l : List γ) (b : β), KeepsStore (l.foldlM f b)
  | [], b => by
    simp only [List.foldlM_nil]
    exact pure b
  | c :: l, b => by
    simp only [List.foldlM_cons]
    exact bind (hf b c) fun b' => foldlM hf l b'

theorem forM {γ : Type} {f : γ → Run Unit} (hf : ∀ c, KeepsStore (f c)) :
    ∀ l : List γ, KeepsStore (l.forM f)
  | [] => pure ()
  | c :: l => bind (hf c) fun _ => forM hf l

theorem allM {γ : Type} {p : γ → Run Bool} (hp : ∀ c, KeepsStore (p c)) :
    ∀ l : List γ, KeepsStore (l.allM p)
  | [] => pure true
  | c :: l => by
    simp only [List.allM]
    refine bind (hp c) fun b => ?_
    cases b
    · exact pure false
    · exact allM hp l

end KeepsStore

end Run

namespace Context

/-- Asking the listeners whether to visit a node logs at most. -/
theorem shouldVisit_keeps (ctx : Context) (n : Node) : Run.KeepsStore (ctx.shouldVisit n) := by
  refine Run.KeepsStore.allM (fun l => ?_) _
  cases l with
  | recorder r =>
    dsimp only
    split
    · exact Run.KeepsStore.bind (Run.KeepsStore.record _) fun _ => Run.KeepsStore.pure _
    · exact Run.KeepsStore.pure _
  | counter _ | plain => exact Run.KeepsStore.pure _

/-- Telling the listeners a node was visited logs at most. -/
theorem nodeVisited_keeps (ctx : Context) (n : Node) : Run.KeepsStore (ctx.nodeVisited n) := by
  refine Run.KeepsStore.forM (fun l => ?_) _
  cases l with
  | recorder r =>
    dsimp only
    split
    · exact Run.KeepsStore.record _
    · exact Run.KeepsStore.pure _
  | counter _ | plain => exact Run.KeepsStore.pure _

end Context

-- ============================================================ the generation functions

namespace Generate

open Run (KeepsStore)

variable (ctx : Context) (n : Node)

theorem push_keeps (w : Writer) (e : Event) : KeepsStore (push ctx w e) := KeepsStore.stream _ _

theorem accessorOf_keeps : KeepsStore (accessorOf ctx n) := by
  unfold accessorOf
  split
  · exact KeepsStore.pure _
  · exact KeepsStore.fail _ _

theorem multiOf_keeps : KeepsStore (multiOf ctx n) := by
  unfold multiOf
  split
  · exact KeepsStore.pure _
  · exact KeepsStore.fail _ _

theorem elementToView_keeps (v : Scalar) : KeepsStore (elementToView ctx n v) :=
  KeepsStore.bind (KeepsStore.convert _ _) fun _ => KeepsStore.pure _

theorem keyToView_keeps (k : Scalar) : KeepsStore (keyToView ctx n k) := KeepsStore.convert _ _

/-- Reading a property of the owner through the node's accessor keeps the store. -/
theorem read_keeps {α : Type} (k : Value → Run α) (hk : ∀ v, KeepsStore (k v)) (owner : Value) :
    KeepsStore (accessorOf ctx n >>= fun a => Run.access ctx (a.get owner) >>= k) :=
  KeepsStore.bind (accessorOf_keeps ctx n) fun a =>
    KeepsStore.bind (KeepsStore.access ctx (a.reads_get owner)) hk

theorem spliceTarget_keeps (p : Option String) (model : Value) :
    KeepsStore (spliceTarget ctx p model) := by
  unfold spliceTarget
  split
  · exact KeepsStore.pure _
  · exact KeepsStore.bind KeepsStore.store fun _ => KeepsStore.pure _
  · exact KeepsStore.fail _ _

/-- The statement for every generation function at one fuel. -/
structure KeepsAt (fuel : Nat) : Prop where
  template : ∀ ctx root model, KeepsStore (template fuel ctx root model)
  rootPart : ∀ ctx root model w, KeepsStore (rootPart fuel ctx root model w)
  child : ∀ ctx n owner w, KeepsStore (child fuel ctx n owner w)
  body : ∀ ctx n model w, KeepsStore (body fuel ctx n model w)
  emit : ∀ ctx n owner w, KeepsStore (emit fuel ctx n owner w)
  associate : ∀ ctx n name v w, KeepsStore (associate fuel ctx n name v w)
  element : ∀ ctx n name v w, KeepsStore (element fuel ctx n name v w)

variable {fuel : Nat}

theorem template_keeps (ih : KeepsAt fuel) (root : Node) (model : Value) :
    KeepsStore (template (fuel + 1) ctx root model) := by
  simp only [template]
  -- the type check of an object root reads the store and may fail
  have rest : KeepsStore (rootPart fuel ctx root model { maxDepth := ctx.options.maxDepth } >>=
      fun w => Run.stream ctx w.finish) :=
    KeepsStore.bind (ih.rootPart _ _ _ _) fun w => KeepsStore.stream _ _
  split
  · refine KeepsStore.bind KeepsStore.store fun st => ?_
    split
    · exact KeepsStore.bind (KeepsStore.fail _ _) fun _ => rest
    · exact rest
  · exact rest

theorem rootPart_keeps (ih : KeepsAt fuel) (root : Node) (model : Value) (w : Writer) :
    KeepsStore (rootPart (fuel + 1) ctx root model w) := by
  simp only [rootPart]
  exact KeepsStore.bind (ih.emit _ _ _ _) fun _ =>
    KeepsStore.bind (Context.nodeVisited_keeps _ _) fun _ => KeepsStore.pure _

theorem child_keeps (ih : KeepsAt fuel) (owner : Value) (w : Writer) :
    KeepsStore (child (fuel + 1) ctx n owner w) := by
  simp only [child]
  refine KeepsStore.bind (Context.shouldVisit_keeps _ _) fun visit => ?_
  split
  · exact KeepsStore.pure _
  · split
    · exact KeepsStore.pure _
    · exact KeepsStore.bind (ih.emit _ _ _ _) fun _ =>
        KeepsStore.bind (Context.nodeVisited_keeps _ _) fun _ => KeepsStore.pure _

theorem body_keeps (ih : KeepsAt fuel) (model : Value) (w : Writer) :
    KeepsStore (body (fuel + 1) ctx n model w) := by
  simp only [body]
  exact KeepsStore.foldlM (fun w c => ih.child _ _ _ _) _ _

theorem associate_keeps (ih : KeepsAt fuel) (name : Option String) (v : Value) (w : Writer) :
    KeepsStore (associate (fuel + 1) ctx n name v w) := by
  simp only [associate]
  split
  · exact KeepsStore.bind (push_keeps _ _ _) fun _ =>
      KeepsStore.bind (ih.body _ _ _ _) fun _ => push_keeps _ _ _
  · split
    · exact push_keeps _ _ _
    · exact KeepsStore.fail _ _

theorem element_keeps (ih : KeepsAt fuel) (name : Option String) (v : Value) (w : Writer) :
    KeepsStore (element (fuel + 1) ctx n name v w) := by
  simp only [element]
  split
  · exact ih.associate _ _ _ _ _
  · split
    · exact KeepsStore.bind (elementToView_keeps _ _ _) fun _ => push_keeps _ _ _
    · exact KeepsStore.fail _ _

theorem emit_keeps (ih : KeepsAt fuel) (owner : Value) (w : Writer) :
    KeepsStore (emit (fuel + 1) ctx n owner w) := by
  simp only [emit]
  split
  case h_1 =>
    -- a value: the property read, converted, and written unless omitted
    refine read_keeps ctx n _ (fun raw => ?_) owner
    have write : ∀ v : Scalar, KeepsStore (if (v.isNull && ctx.options.omitNulls) = true then
        Pure.pure w else push ctx w (nodeEvent n .value (some v))) := by
      intro v
      split
      · exact KeepsStore.pure _
      · exact push_keeps _ _ _
    split
    · split
      · exact KeepsStore.bind (KeepsStore.pure _) write
      · exact KeepsStore.bind (elementToView_keeps _ _ _) write
    · exact KeepsStore.fail _ _
  case h_2 | h_3 =>
    exact read_keeps ctx n _ (fun v => ih.associate _ _ _ _ _) owner
  case h_4 | h_5 =>
    -- a collection: a null value, or its elements read through the collection access
    refine read_keeps ctx n _ (fun current => ?_) owner
    split
    · exact push_keeps _ _ _
    · refine KeepsStore.bind (multiOf_keeps _ _) fun m =>
        KeepsStore.bind (KeepsStore.access _ (Multi.reads_iterate owner m)) fun _ =>
        KeepsStore.bind (push_keeps _ _ _) fun _ =>
        KeepsStore.bind (KeepsStore.foldlM (fun _ _ => ih.element _ _ _ _ _) _ _) fun _ =>
        push_keeps _ _ _
  case h_6 | h_7 =>
    -- a map: a null value, or its entries read through the collection access
    refine read_keeps ctx n _ (fun current => ?_) owner
    split
    · exact push_keeps _ _ _
    · refine KeepsStore.bind (multiOf_keeps _ _) fun m =>
        KeepsStore.bind (KeepsStore.access _ (Multi.reads_entries owner m)) fun _ => ?_
      split
      · refine KeepsStore.bind (push_keeps _ _ _) fun _ =>
          KeepsStore.bind (KeepsStore.foldlM (fun _ _ => ?_) _ _) fun _ => push_keeps _ _ _
        exact KeepsStore.bind (keyToView_keeps _ _ _) fun _ => ih.element _ _ _ _ _
      · refine KeepsStore.bind (push_keeps _ _ _) fun _ =>
          KeepsStore.bind (KeepsStore.foldlM (fun _ _ => ?_) _ _) fun _ => push_keeps _ _ _
        exact KeepsStore.bind (keyToView_keeps _ _ _) fun _ =>
          KeepsStore.bind (push_keeps _ _ _) fun _ => KeepsStore.bind (push_keeps _ _ _) fun _ =>
          KeepsStore.bind (ih.element _ _ _ _ _) fun _ => push_keeps _ _ _
  case h_8 =>
    exact KeepsStore.bind (push_keeps _ _ _) fun _ =>
      KeepsStore.bind (ih.body _ _ _ _) fun _ => push_keeps _ _ _
  case h_9 =>
    split
    · refine KeepsStore.bind KeepsStore.store fun st => ?_
      split
      · exact ih.body _ _ _ _
      · exact KeepsStore.pure _
    · exact KeepsStore.pure _
  case h_10 =>
    split
    · exact KeepsStore.bind KeepsStore.store fun _ => push_keeps _ _ _
    · exact KeepsStore.pure _
  case h_11 =>
    split
    · exact KeepsStore.bind KeepsStore.store fun _ =>
        KeepsStore.bind (KeepsStore.lift _ _) fun _ => push_keeps _ _ _
    · exact KeepsStore.pure _
  case h_12 =>
    -- a splice: the spliced view, generated again, renamed and written
    split
    · refine KeepsStore.bind (spliceTarget_keeps _ _ _) fun target => ?_
      split
      · exact KeepsStore.bind (KeepsStore.pure _) fun _ =>
          KeepsStore.foldlM (fun _ _ => push_keeps _ _ _) _ _
      · exact KeepsStore.bind (ih.template _ _ _) fun _ =>
          KeepsStore.foldlM (fun _ _ => push_keeps _ _ _) _ _
    · exact KeepsStore.pure _

/-- Every generation function keeps the store, at every fuel. -/
theorem keepsAt : ∀ fuel, KeepsAt fuel
  | 0 => by
    refine ⟨?_, ?_, ?_, ?_, ?_, ?_, ?_⟩ <;> intros <;>
      simp only [template, rootPart, child, body, emit, associate, element] <;>
      exact KeepsStore.fail _ _
  | fuel + 1 =>
    have ih := keepsAt fuel
    ⟨fun ctx => template_keeps ctx ih, fun ctx => rootPart_keeps ctx ih,
      fun ctx n => child_keeps ctx n ih, fun ctx n => body_keeps ctx n ih,
      fun ctx n => emit_keeps ctx n ih, fun ctx n => associate_keeps ctx n ih,
      fun ctx n => element_keeps ctx n ih⟩

end Generate

/-- Generating a view leaves the store as it was, whether generation succeeds or fails: every
object keeps its fields, every list, set and map cell its contents, and no null collection or
map property gets a container. -/
theorem generate_keeps_store (t : Template) (ctx : Context) (model : Value) (s : RunState) :
    (Run.after (t.generate ctx model) s).store = s.store :=
  (Generate.keepsAt _).template ctx t.root model s

end GraphViews

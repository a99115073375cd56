import Mathlib
import GraphViews.Binding.Generate
import GraphViews.Proofs.Nesting
/-!
# Generation only appends

Generation threads one writer through the template: every node adds its events after those
of the nodes before it, and nothing ever takes an event back. `Generate.Appends w x` says so
of a computation `x` started from the writer `w`: whatever writer it ends with, if it ends
well, holds the events of `w` as a prefix.

# How the proof goes

The generation functions call one another with one unit of fuel less, so a single induction
on the fuel covers them all. `AppendsAt fuel` collects the statement for every writer-valued
function at that fuel; one lemma per function proves it at `fuel + 1` from `AppendsAt fuel`,
by following the function's `do` block with the combinators `Appends.bind`, `Appends.seq`,
`Appends.foldlM`, `Appends.push` and `Appends.pure`.
-/

namespace GraphViews

namespace Run

/-- A bind that succeeds ran both of its parts successfully. -/
theorem bind_ok {α β : Type} {x : Run α} {k : α → Run β} {s s'' : RunState} {b : β}
    (h : (x >>= k) s = .ok b s'') : ∃ a s', x s = .ok a s' ∧ k a s' = .ok b s'' := by
  simp only [bind, EStateM.bind] at h
  cases hx : x s with
  | ok a s' =>
    rw [hx] at h
    exact ⟨a, s', rfl, h⟩
  | error e s' =>
    rw [hx] at h
    cases h

end Run

namespace Writer

/-- A push succeeds exactly when the step accepts the event. -/
theorem push_ok_iff {w w' : Writer} {e : Event} : w.push e = .ok w' ↔ w.step e = (w', .ok ()) := by
  simp only [push]
  rcases w.step e with ⟨w₁, (_ | _)⟩ <;> simp [Except.map]

/-- An accepted event is appended. -/
theorem push_events {w w' : Writer} {e : Event} (h : w.push e = .ok w') :
    w'.events = w.events.push e :=
  step_ok_events (push_ok_iff.mp h)

/-- A begin event is accepted only below the depth bound. -/
theorem push_begin_room {w w' : Writer} {e : Event} (hb : e.kind.isBegin = true)
    (h : w.push e = .ok w') : w.stack.length < w.maxDepth :=
  room_of_step_begin hb (by rw [push_ok_iff.mp h])

end Writer

namespace Generate

/-- Started from `w`, a successful run ends with a writer whose events extend those of `w`. -/
def Appends (w : Writer) (x : Run Writer) : Prop :=
  ∀ s w' s', x s = .ok w' s' → w.events.toList <+: w'.events.toList

namespace Appends

variable {w : Writer}

theorem pure : Appends w (Pure.pure w) := by
  intro s w' s' h
  cases h
  exact List.prefix_refl _

/-- Computations before the writing part do not matter. -/
theorem bind {α : Type} {x : Run α} {k : α → Run Writer} (hk : ∀ a, Appends w (k a)) :
    Appends w (x >>= k) := by
  intro s w' s' h
  obtain ⟨a, s₁, -, h₂⟩ := Run.bind_ok h
  exact hk a _ _ _ h₂

/-- Two writing parts in a row. -/
theorem seq {x : Run Writer} {k : Writer → Run Writer} (hx : Appends w x)
    (hk : ∀ w', w.events.toList <+: w'.events.toList → Appends w' (k w')) :
    Appends w (x >>= k) := by
  intro s w'' s'' h
  obtain ⟨w', s₁, h₁, h₂⟩ := Run.bind_ok h
  have hp := hx _ _ _ h₁
  exact hp.trans (hk w' hp _ _ _ h₂)

theorem fail (ctx : Context) (k : ViewErrorKind) : Appends w (Run.fail ctx k) := by
  intro s w' s' h
  cases h

theorem push (ctx : Context) (e : Event) : Appends w (Generate.push ctx w e) := by
  intro s w' s' h
  simp only [Generate.push, Run.stream, Run.lift, Except.mapError] at h
  cases hp : w.push e with
  | error err =>
    rw [hp] at h
    cases h
  | ok w₁ =>
    rw [hp] at h
    cases h
    rw [Writer.push_events hp, Array.toList_push]
    exact List.prefix_append _ _

/-- A fold whose every step appends. -/
theorem foldlM {β : Type} {f : Writer → β → Run Writer} (hf : ∀ w b, Appends w (f w b)) :
    ∀ (l : List β) (w : Writer), Appends w (l.foldlM f w)
  | [], w => by
    simp only [List.foldlM_nil]
    exact Appends.pure
  | b :: l, w => by
    simp only [List.foldlM_cons]
    exact seq (hf w b) fun w' _ => foldlM hf l w'

end Appends

-- ====================================================== every function at every fuel

/-- The statement for every writer-valued generation function at one fuel. -/
structure AppendsAt (fuel : Nat) : Prop where
  rootPart : ∀ ctx root model w, Appends w (rootPart fuel ctx root model w)
  child : ∀ ctx n owner w, Appends w (child fuel ctx n owner w)
  body : ∀ ctx n model w, Appends w (body fuel ctx n model w)
  emit : ∀ ctx n owner w, Appends w (emit fuel ctx n owner w)
  associate : ∀ ctx n name v w, Appends w (associate fuel ctx n name v w)
  element : ∀ ctx n name v w, Appends w (element fuel ctx n name v w)

variable {fuel : Nat}

theorem child_appends (ih : AppendsAt fuel) (ctx : Context) (n : Node) (owner : Value)
    (w : Writer) : Appends w (child (fuel + 1) ctx n owner w) := by
  simp only [child]
  refine Appends.bind fun visit => ?_
  split
  · exact Appends.pure
  · split
    · exact Appends.pure
    · exact Appends.seq (ih.emit _ _ _ _) fun w' _ => Appends.bind fun _ => Appends.pure

theorem rootPart_appends (ih : AppendsAt fuel) (ctx : Context) (root : Node) (model : Value)
    (w : Writer) : Appends w (rootPart (fuel + 1) ctx root model w) := by
  simp only [rootPart]
  exact Appends.seq (ih.emit _ _ _ _) fun w' _ => Appends.bind fun _ => Appends.pure

theorem body_appends (ih : AppendsAt fuel) (ctx : Context) (n : Node) (model : Value)
    (w : Writer) : Appends w (body (fuel + 1) ctx n model w) := by
  simp only [body]
  exact Appends.foldlM (fun w c => ih.child _ _ _ _) _ _

theorem associate_appends (ih : AppendsAt fuel) (ctx : Context) (n : Node)
    (name : Option String) (v : Value) (w : Writer) :
    Appends w (associate (fuel + 1) ctx n name v w) := by
  simp only [associate]
  split
  · exact Appends.seq (Appends.push _ _) fun w₁ _ =>
      Appends.seq (ih.body _ _ _ _) fun w₂ _ => Appends.push _ _
  · split
    · exact Appends.push _ _
    · exact Appends.fail _ _

theorem element_appends (ih : AppendsAt fuel) (ctx : Context) (n : Node)
    (name : Option String) (v : Value) (w : Writer) :
    Appends w (element (fuel + 1) ctx n name v w) := by
  simp only [element]
  split
  · exact ih.associate _ _ _ _ _
  · split
    · exact Appends.bind fun _ => Appends.push _ _
    · exact Appends.fail _ _

/-- Writing nothing is one way to append. -/
theorem Appends.or_pure {c : Prop} [Decidable c] {w : Writer} {x : Run Writer}
    (hx : Appends w x) : Appends w (if c then Pure.pure w else x) := by
  split
  · exact Appends.pure
  · exact hx

/-- Events between a begin and an end. -/
theorem Appends.bracket {ctx : Context} {w : Writer} {b e : Event} {inner : Writer → Run Writer}
    (h : ∀ w', Appends w' (inner w')) :
    Appends w (Generate.push ctx w b >>= fun w => inner w >>= fun w => Generate.push ctx w e) :=
  Appends.seq (Appends.push _ _) fun _ _ => Appends.seq (h _) fun _ _ => Appends.push _ _

theorem emit_appends (ih : AppendsAt fuel) (ctx : Context) (n : Node) (owner : Value)
    (w : Writer) : Appends w (emit (fuel + 1) ctx n owner w) := by
  simp only [emit]
  split
  case h_1 =>
    -- a value: one event, none for a null the options omit
    refine Appends.bind fun _ => Appends.bind fun raw => ?_
    split
    · split
      · exact Appends.bind fun _ => Appends.or_pure (Appends.push _ _)
      · exact Appends.bind fun _ => Appends.or_pure (Appends.push _ _)
    · exact Appends.fail _ _
  case h_2 | h_3 =>
    exact Appends.bind fun _ => Appends.bind fun _ => ih.associate _ _ _ _ _
  case h_4 | h_5 =>
    -- a collection: a null value, or its elements between begin and end
    refine Appends.bind fun _ => Appends.bind fun current => ?_
    split
    · exact Appends.push _ _
    · exact Appends.bind fun _ => Appends.bind fun _ =>
        Appends.bracket fun _ => Appends.foldlM (fun _ _ => ih.element _ _ _ _ _) _ _
  case h_6 | h_7 =>
    -- a map: a null value, or its entries as the properties of an object or as key and
    -- value objects of an array
    refine Appends.bind fun _ => Appends.bind fun current => ?_
    split
    · exact Appends.push _ _
    · refine Appends.bind fun _ => Appends.bind fun _ => ?_
      split
      · exact Appends.bracket fun _ =>
          Appends.foldlM (fun _ _ => Appends.bind fun _ => ih.element _ _ _ _ _) _ _
      · refine Appends.bracket fun _ => Appends.foldlM (fun _ _ => ?_) _ _
        refine Appends.bind fun _ => Appends.seq (Appends.push _ _) fun _ _ => ?_
        refine Appends.seq (Appends.push _ _) fun _ _ => ?_
        exact Appends.seq (ih.element _ _ _ _ _) fun _ _ => Appends.push _ _
  case h_8 => exact Appends.bracket fun _ => ih.body _ _ _ _
  case h_9 =>
    split
    · refine Appends.bind fun st => ?_
      split
      · exact ih.body _ _ _ _
      · exact Appends.pure
    · exact Appends.pure
  case h_10 =>
    split
    · exact Appends.bind fun _ => Appends.push _ _
    · exact Appends.pure
  case h_11 =>
    split
    · exact Appends.bind fun _ => Appends.bind fun _ => Appends.push _ _
    · exact Appends.pure
  case h_12 =>
    -- a splice: the events of the spliced view, the first one renamed
    split
    · refine Appends.bind fun target => ?_
      split
      · exact Appends.bind fun _ => Appends.foldlM (fun _ _ => Appends.push _ _) _ _
      · exact Appends.bind fun _ => Appends.foldlM (fun _ _ => Appends.push _ _) _ _
    · exact Appends.pure

/-- Every writer-valued generation function only appends, at every fuel. -/
theorem appendsAt : ∀ fuel, AppendsAt fuel
  | 0 => by
    refine ⟨?_, ?_, ?_, ?_, ?_, ?_⟩ <;> intros <;>
      simp only [rootPart, child, body, emit, associate, element] <;> exact Appends.fail _ _
  | fuel + 1 =>
    have ih := appendsAt fuel
    ⟨rootPart_appends ih, child_appends ih, body_appends ih, emit_appends ih,
      associate_appends ih, element_appends ih⟩

-- ====================================================== the first events of an object

variable {ctx : Context} {s s' : RunState}

/-- A failure stops the run; otherwise `Run.stream` passes the result on, state untouched. -/
theorem stream_ok {α : Type} {r : Except StreamError α} {a : α} (h : Run.stream ctx r s = .ok a s') :
    r = .ok a ∧ s' = s := by
  cases r with
  | error e => cases h
  | ok b => cases h; exact ⟨rfl, rfl⟩

/-- A generated view is what the root's part wrote into an empty writer. -/
theorem template_ok {root : Node} {model : Value} {V : View}
    (h : template (fuel + 1) ctx root model s = .ok V s') :
    ∃ w s₁, rootPart fuel ctx root model { maxDepth := ctx.options.maxDepth } s = .ok w s₁ ∧
      V = w.events := by
  -- the type check of an object root either fails or leaves the state as it was
  have finish : ∀ {s₀ : RunState},
      (rootPart fuel ctx root model { maxDepth := ctx.options.maxDepth } >>= fun w =>
        Run.stream ctx w.finish) s₀ = .ok V s' →
      ∃ w s₁, rootPart fuel ctx root model { maxDepth := ctx.options.maxDepth } s₀ = .ok w s₁ ∧
        V = w.events := by
    intro s₀ h
    obtain ⟨w, s₁, h₁, h₂⟩ := Run.bind_ok h
    obtain ⟨hf, -⟩ := stream_ok h₂
    refine ⟨w, s₁, h₁, ?_⟩
    simp only [Writer.finish] at hf
    split at hf
    · cases hf; rfl
    · cases hf
  simp only [template] at h
  cases model
  case object hd =>
    cases hmt : root.modelType with
    | none =>
      simp only [hmt] at h
      exact finish h
    | some t =>
      simp only [hmt] at h
      obtain ⟨st, s₀, hst, h⟩ := Run.bind_ok h
      cases hst
      split at h
      · obtain ⟨_, _, hfail, _⟩ := Run.bind_ok h
        cases hfail
      · exact finish h
  all_goals exact finish h

theorem rootPart_ok {root : Node} {model : Value} {w w' : Writer}
    (h : rootPart (fuel + 1) ctx root model w s = .ok w' s') :
    ∃ s₁, emit fuel (ctx.push { modelType := root.modelType, model }) root model w s =
      .ok w' s₁ := by
  simp only [rootPart] at h
  obtain ⟨w₁, s₁, h₁, h₂⟩ := Run.bind_ok h
  obtain ⟨_, _, -, h₃⟩ := Run.bind_ok h₂
  cases h₃
  exact ⟨s₁, h₁⟩

/-- A root object writes its own object: the root accessor reads the model as it is. -/
theorem emit_root_ok {n : Node} {owner : Value} {w w' : Writer} {dt : DataType}
    (hk : n.kind = .object) (hacc : n.accessor = some (.root dt))
    (h : emit (fuel + 1) ctx n owner w s = .ok w' s') :
    associate fuel ctx n n.name owner w s = .ok w' s' := by
  simp only [emit, hk] at h
  obtain ⟨a, s₁, h₁, h₂⟩ := Run.bind_ok h
  simp only [accessorOf, hacc] at h₁
  cases h₁
  obtain ⟨v, s₂, h₃, h₄⟩ := Run.bind_ok h₂
  cases h₃
  exact h₄

/-- An object opens with its begin event, then its body. -/
theorem associate_object_ok {n : Node} {name : Option String} {hd : Handle} {w w' : Writer}
    (h : associate (fuel + 1) ctx n name (.object hd) w s = .ok w' s') :
    ∃ w₁ w₂ s₂, w.push ⟨.beginObject, name, n.info.ns, none⟩ = .ok w₁ ∧
      body fuel ctx n (.object hd) w₁ s = .ok w₂ s₂ ∧
      w₂.events.toList <+: w'.events.toList := by
  simp only [associate] at h
  obtain ⟨w₁, s₁, h₁, h₂⟩ := Run.bind_ok h
  obtain ⟨hpush, rfl⟩ := stream_ok h₁
  obtain ⟨w₂, s₂, h₃, h₄⟩ := Run.bind_ok h₂
  exact ⟨w₁, w₂, s₂, hpush, h₃, Appends.push _ _ _ _ _ h₄⟩

/-- A body writes its first child first. -/
theorem body_cons_ok {n c : Node} {cs : List Node} {model : Value} {w w' : Writer}
    (hc : n.children = c :: cs) (h : body (fuel + 1) ctx n model w s = .ok w' s') :
    ∃ w₁ s₁, child fuel ctx c model w s = .ok w₁ s₁ ∧ w₁.events.toList <+: w'.events.toList := by
  simp only [body, hc, List.foldlM_cons] at h
  obtain ⟨w₁, s₁, h₁, h₂⟩ := Run.bind_ok h
  exact ⟨w₁, s₁, h₁, Appends.foldlM (fun _ _ => (appendsAt fuel).child _ _ _ _) _ _ _ _ _ h₂⟩

/-- Without listeners, a child that is no property is written. -/
theorem child_ok {n : Node} {owner : Value} {w w' : Writer} (hl : ctx.listeners = [])
    (hp : n.kind.isProperty = false) (h : child (fuel + 1) ctx n owner w s = .ok w' s') :
    ∃ s₁, emit fuel (ctx.push { name := n.name, modelType := n.modelType, model := owner }) n
      owner w s = .ok w' s₁ := by
  simp only [child] at h
  obtain ⟨visit, s₁, h₁, h₂⟩ := Run.bind_ok h
  simp only [Context.shouldVisit, Context.push, hl, List.allM_nil] at h₁
  cases h₁
  simp only [Bool.not_true, hp, Bool.false_and] at h₂
  obtain ⟨w₁, s₂, h₃, h₄⟩ := Run.bind_ok h₂
  obtain ⟨_, _, -, h₅⟩ := Run.bind_ok h₄
  cases h₅
  exact ⟨s₂, h₃⟩

/-- A discriminator writes the class of its owner's type. -/
theorem emit_discriminator {d : Node} {hd : Handle} {w : Writer} {strat : Strategy}
    (hk : d.kind = .discriminator) (hs : d.info.discriminator = some strat) :
    emit (fuel + 1) ctx d (.object hd) w s =
      push ctx w (nodeEvent d .discriminator (some (strat.classify (s.store.typeOf hd)))) s := by
  simp [emit, hk, hs, Run.store, bind, EStateM.bind, get, getThe, MonadStateOf.get, EStateM.get,
    pure, EStateM.pure]

/-- The view of an object whose template lists a discriminator first opens with the object's
begin event and the class of the object's type. -/
theorem discriminated_view_prefix {t : Template} {d : Node} {rest : List Node} {strat : Strategy}
    {dt : DataType} {hd : Handle} {V : View} (hl : ctx.listeners = [])
    (hk : t.root.kind = .object) (hacc : t.root.accessor = some (.root dt))
    (hc : t.root.children = d :: rest) (hdk : d.kind = .discriminator)
    (hs : d.info.discriminator = some strat) (h : t.generate ctx (.object hd) s = .ok V s') :
    0 < ctx.options.maxDepth ∧
      [⟨.beginObject, t.root.name, t.root.info.ns, none⟩,
        nodeEvent d .discriminator (some (strat.classify (s.store.typeOf hd)))] <+: V.toList := by
  obtain ⟨f, hf⟩ : ∃ f, 8 * (t.root.size + 1) = f + 7 := ⟨8 * (t.root.size + 1) - 7, by omega⟩
  simp only [Template.generate, hf] at h
  -- follow the root down to its first child
  obtain ⟨w, s₁, hroot, rfl⟩ := template_ok h
  obtain ⟨s₂, hemit⟩ := rootPart_ok hroot
  obtain ⟨w₁, w₂, s₃, hbegin, hbody, hp₂⟩ := associate_object_ok (emit_root_ok hk hacc hemit)
  obtain ⟨w₃, s₄, hchild, hp₃⟩ := body_cons_ok hc hbody
  obtain ⟨s₅, hdisc⟩ := child_ok (by exact hl) (by simp [hdk, NodeKind.isProperty]) hchild
  rw [emit_discriminator hdk hs] at hdisc
  obtain ⟨hpush, -⟩ := stream_ok hdisc
  -- the two events written so far stay at the front
  have hroom := Writer.push_begin_room rfl hbegin
  have hw₃ : w₃.events.toList = [⟨.beginObject, t.root.name, t.root.info.ns, none⟩,
      nodeEvent d .discriminator (some (strat.classify (s.store.typeOf hd)))] := by
    rw [Writer.push_events hpush, Writer.push_events hbegin]
    rfl
  refine ⟨hroom, ?_⟩
  rw [← hw₃]
  exact hp₃.trans hp₂

end Generate

end GraphViews

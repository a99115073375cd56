import Mathlib
import GraphViews.Proofs.Generation
import GraphViews.Proofs.Atomicity
import GraphViews.Proofs.VisibleProperties
/-!
What the option to omit null values changes in generation.

`Context.omitting ctx b` is the context with the option set to `b`. The option is read in one
place, where a value node writes its value: with it, a null value is left out. The main
statement, `omitting_nulls_leaves_out_value_nulls`, says that generation with the option ends
as generation without it: with the same error in the same state, or in the same state with a
view that is the other less some null events of the template's value nodes (`WrittenNull`),
every other event kept in order (`Omitted`); and that with the option a value node writes no
null. The null value that stands for a null associate, a null collection or map, a null element
or map value, or a null splice target is written with the option as without it.

The statement asks that every template spliced in has an object or a collection at its root,
as the templates a builder makes have (`Node.splicesRooted`): a splice renames the first event
of the spliced view, and that event must be one the option keeps.

Reading the two views back differs by one step at each null left out. The full view stages an
explicit null (`Stage.scalar_null`), which a value node whose accessor writes a field writes into
that field (`Apply.into_explicit_null`), where the other view writes nothing
(`Apply.into_absent`); on a new object the field holds null already, so the write changes
nothing (`Store.slotHolds_newObject`). The two readings can still part around that step, so the
option does not keep how a whole view reads back: a registry that finds objects by a key
property resolves an explicit null key but not an absent one (`omitted_null_key_goes_unresolved`),
and so does an identity key of a collection; a null read before the discriminator that makes
its property known is unknown; two branches may route one name; and a key converter may make
two map keys one.

# How the proofs go

`RunsAlike R x y` says that two runs end alike from every state: with values related by `R` in
the same state, or with the same error in the same state. Between writers the relation is
`Writer.Thins`: the same open containers, and the events of the other writer less some that
are left out. The generation functions call one another with one unit of fuel less, so one
induction on the fuel covers them all, as for `Generate.appendsAt`: `ThinsAt fuel` collects the
statement for every function, and one lemma per function proves it at `fuel + 1` from
`ThinsAt fuel`, following the function's `do` block with `RunsAlike.bind_same`,
`RunsAlike.bind`, `RunsAlike.push` and `RunsAlike.foldlM`. The one step that differs is
`value_thins`. A spliced view is generated again under both settings; `template_opens` shows
that it opens with a begin event or is one event, so the two views open with the same event and
renaming it keeps them alike (`RunsAlike.splice`).
-/

namespace GraphViews

/-- The context with the option to omit null values set to `b`, everything else as it is. -/
def Context.omitting (ctx : Context) (b : Bool) : Context :=
  { ctx with options := { ctx.options with omitNulls := b } }

namespace Context

variable (ctx : Context) (b : Bool)

@[simp] theorem omitting_push (f : Frame) : (ctx.omitting b).push f = (ctx.push f).omitting b :=
  rfl

@[simp] theorem omitting_omitNulls : (ctx.omitting b).options.omitNulls = b := rfl

@[simp] theorem omitting_maxDepth : (ctx.omitting b).options.maxDepth = ctx.options.maxDepth :=
  rfl

@[simp] theorem omitting_listeners : (ctx.omitting b).listeners = ctx.listeners := rfl

@[simp] theorem omitting_didExtractValue (v : Scalar) :
    (ctx.omitting b).didExtractValue v = ctx.didExtractValue v := rfl

@[simp] theorem omitting_shouldVisit (n : Node) :
    (ctx.omitting b).shouldVisit n = ctx.shouldVisit n := rfl

@[simp] theorem omitting_nodeVisited (n : Node) :
    (ctx.omitting b).nodeVisited n = ctx.nodeVisited n := rfl

@[simp] theorem push_listeners (f : Frame) : (ctx.push f).listeners = ctx.listeners := rfl

variable {c : Context}

theorem shouldVisit_quiet (hq : c.listeners = []) (n : Node) : c.shouldVisit n = pure true := by
  simp [shouldVisit, hq]

theorem nodeVisited_quiet (hq : c.listeners = []) (n : Node) : c.nodeVisited n = pure () := by
  simp [nodeVisited, hq]

theorem didExtractValue_quiet (hq : c.listeners = []) (v : Scalar) : c.didExtractValue v = v := by
  simp [didExtractValue, hq]

end Context

/-- The kinds a template's root has: an object, or a collection. -/
def NodeKind.isRoot : NodeKind → Bool
  | .object | .arrayOfObjects | .arrayOfValues => true
  | _ => false

namespace Node

/-- A node, the nodes below it, and those of the templates it splices. -/
def subnodes : Node → List Node
  | n@⟨_, children, splice⟩ => n :: (subnodesOf children ++ spliced splice)
where
  subnodesOf : List Node → List Node
    | [] => []
    | c :: cs => subnodes c ++ subnodesOf cs
  spliced : Option (Node × Option String) → List Node
    | some (r, _) => subnodes r
    | none => []

theorem mem_subnodes_self (n : Node) : n ∈ n.subnodes := by
  cases n
  simp [subnodes]

theorem subnodes_child {n c : Node} (hc : c ∈ n.children) : c.subnodes ⊆ n.subnodes := by
  obtain ⟨info, children, splice⟩ := n
  have : ∀ cs : List Node, c ∈ cs → c.subnodes ⊆ subnodes.subnodesOf cs := by
    intro cs
    induction cs with
    | nil => simp
    | cons d ds ih =>
      intro h
      rcases List.mem_cons.1 h with rfl | h
      · simp [subnodes.subnodesOf]
      · exact List.Subset.trans (ih h) (by simp [subnodes.subnodesOf])
  exact List.Subset.trans (this children hc) (by simp [subnodes])

theorem subnodes_spliced {n r : Node} {p : Option String} (h : n.splice = some (r, p)) :
    r.subnodes ⊆ n.subnodes := by
  obtain ⟨info, children, splice⟩ := n
  change splice = some (r, p) at h
  subst h
  intro x hx
  simp [subnodes, subnodes.spliced, hx]

/-- Whether every template spliced in, at any depth, has an object or a collection at its
root, as the templates a builder makes have. -/
def splicesRooted (n : Node) : Bool :=
  n.subnodes.all fun m =>
    match m.splice with
    | some (r, _) => r.kind.isRoot
    | none => true

theorem isRoot_of_splicesRooted {n m r : Node} {p : Option String} (h : n.splicesRooted = true)
    (hm : m ∈ n.subnodes) (hs : m.splice = some (r, p)) : r.kind.isRoot = true := by
  simpa [hs] using List.all_eq_true.1 h m hm

end Node

-- ============================================================ leaving events out

/-- `o` is `f` with some of its events that satisfy `P` left out, the others in order. -/
inductive Omitted (P : Event → Prop) : List Event → List Event → Prop
  | nil : Omitted P [] []
  | keep (e : Event) {o f : List Event} : Omitted P o f → Omitted P (e :: o) (e :: f)
  | drop (e : Event) {o f : List Event} : P e → Omitted P o f → Omitted P o (e :: f)

namespace Omitted

variable {P : Event → Prop} {o f o' f' : List Event} {e : Event}

theorem refl : ∀ l : List Event, Omitted P l l
  | [] => nil
  | e :: l => keep e (refl l)

theorem append (h : Omitted P o f) (h' : Omitted P o' f') : Omitted P (o ++ o') (f ++ f') := by
  induction h with
  | nil => exact h'
  | keep e _ ih => exact keep e ih
  | drop e he _ ih => exact drop e he ih

theorem eq_nil_of_nil (h : Omitted P o []) : o = [] := by
  cases h
  rfl

/-- An event that cannot be left out stays, first. -/
theorem cons_right (h : Omitted P o (e :: f)) (he : ¬ P e) : ∃ o', o = e :: o' ∧ Omitted P o' f := by
  cases h with
  | keep _ h => exact ⟨_, rfl, h⟩
  | drop _ hp _ => exact absurd hp he

/-- Of one event, nothing or the event is left. -/
theorem singleton_right (h : Omitted P o [e]) : o = [] ∨ o = [e] := by
  cases h with
  | keep _ h => exact .inr (by rw [eq_nil_of_nil h])
  | drop _ _ h => exact .inl (eq_nil_of_nil h)

end Omitted

/-- Two writers alike but for events the first has left out: the same open containers and the
same limit. -/
structure Writer.Thins (P : Event → Prop) (wO wF : Writer) : Prop where
  stack : wO.stack = wF.stack
  maxDepth : wO.maxDepth = wF.maxDepth
  events : Omitted P wO.events.toList wF.events.toList

namespace Writer.Thins

variable {P : Event → Prop} {wO wF : Writer}

theorem refl (w : Writer) : Thins P w w := ⟨rfl, rfl, Omitted.refl _⟩

/-- Both writers take an event alike: they refuse it with the same error, or append it. -/
theorem step (h : Thins P wO wF) (e : Event) :
    (wO.step e).2 = (wF.step e).2 ∧
      ((wF.step e).2 = .ok () → Thins P (wO.step e).1 (wF.step e).1) := by
  obtain ⟨hs, hd, hev⟩ := h
  have happ : Omitted P (wO.events.push e).toList (wF.events.push e).toList := by
    simpa using hev.append (Omitted.keep e Omitted.nil)
  simp only [Writer.step]
  by_cases hb : e.kind.isBegin = true
  · by_cases hfull : wF.stack.length ≥ wF.maxDepth
    · simp [hb, hs, hd, hfull]
    · simp only [hb, if_true, hs, hd, hfull, if_false, true_and]
      exact fun _ => ⟨rfl, rfl, happ⟩
  · simp only [hb, Bool.false_eq_true, if_false]
    by_cases he : e.kind.isEnd = true
    · simp only [he, if_true, hs]
      cases wF.stack with
      | nil => simp
      | cons k rest =>
        by_cases hc : (k.complement != some e.kind) = true
        · simp [hc]
        · simp only [hc, Bool.false_eq_true, if_false, true_and]
          exact fun _ => ⟨rfl, hd, happ⟩
    · simp only [he, Bool.false_eq_true, if_false, true_and]
      exact fun _ => ⟨hs, hd, happ⟩

/-- Both writers take an event alike, as `push` reports it. -/
theorem push (h : Thins P wO wF) (e : Event) :
    (∃ err, wO.push e = .error err ∧ wF.push e = .error err) ∨
      ∃ wO' wF', wO.push e = .ok wO' ∧ wF.push e = .ok wF' ∧ Thins P wO' wF' := by
  obtain ⟨h₁, h₂⟩ := h.step e
  simp only [Writer.push]
  rcases hF : (wF.step e).2 with err | u
  · left
    exact ⟨err, by rw [h₁, hF]; rfl, by rfl⟩
  · right
    cases u
    exact ⟨_, _, by rw [h₁, hF]; rfl, rfl, h₂ hF⟩

/-- The full writer takes an event the other leaves out. -/
theorem push_left_out (h : Thins P wO wF) {e : Event} (hp : P e) (hv : e.kind = .value) :
    ∃ wF', wF.push e = .ok wF' ∧ Thins P wO wF' := by
  refine ⟨{ wF with events := wF.events.push e }, ?_, h.stack, h.maxDepth, ?_⟩
  · simp [Writer.push, Writer.step, hv, EventKind.isBegin, EventKind.isEnd, Except.map]
  · simpa using h.events.append (Omitted.drop e hp Omitted.nil)

end Writer.Thins

-- ============================================================ runs that end alike

/-- Two results alike: values related by `R` in the same state, or the same error in the same
state. -/
def ResultsAlike {α β : Type} (R : α → β → Prop) :
    EStateM.Result ViewError RunState α → EStateM.Result ViewError RunState β → Prop
  | .ok a s, .ok b s' => R a b ∧ s = s'
  | .error e s, .error e' s' => e = e' ∧ s = s'
  | _, _ => False

/-- Two runs that end alike from every state. -/
def RunsAlike {α β : Type} (R : α → β → Prop) (x : Run α) (y : Run β) : Prop :=
  ∀ s, ResultsAlike R (x s) (y s)

namespace RunsAlike

variable {α β γ δ : Type} {R : α → β → Prop}

theorem pure {a : α} {b : β} (h : R a b) : RunsAlike R (Pure.pure a) (Pure.pure b) :=
  fun _ => ⟨h, rfl⟩

theorem same (x : Run α) : RunsAlike Eq x x := by
  intro s
  rcases x s with ⟨a, s'⟩ | ⟨e, s'⟩ <;> exact ⟨rfl, rfl⟩

theorem fail (ctx : Context) (k : ViewErrorKind) :
    RunsAlike R (Run.fail ctx k : Run α) (Run.fail ctx k : Run β) :=
  fun _ => ⟨rfl, rfl⟩

theorem bind {R₁ : γ → δ → Prop} {xO : Run γ} {xF : Run δ} {kO : γ → Run α} {kF : δ → Run β}
    (hx : RunsAlike R₁ xO xF) (hk : ∀ a b, R₁ a b → RunsAlike R (kO a) (kF b)) :
    RunsAlike R (xO >>= kO) (xF >>= kF) := by
  intro s
  have h := hx s
  simp only [Bind.bind, EStateM.bind]
  rcases hO : xO s with ⟨a, s₁⟩ | ⟨e, s₁⟩ <;> rcases hF : xF s with ⟨b, s₂⟩ | ⟨e', s₂⟩ <;>
    rw [hO, hF] at h <;> simp only [ResultsAlike] at h
  · obtain ⟨hab, rfl⟩ := h
    exact hk a b hab s₁
  · obtain ⟨rfl, rfl⟩ := h
    exact ⟨rfl, rfl⟩

/-- The same test on both sides. -/
theorem ite {c : Prop} [Decidable c] {x x' : Run α} {y y' : Run β} (h₁ : c → RunsAlike R x y)
    (h₂ : ¬c → RunsAlike R x' y') :
    RunsAlike R (if c then x else x') (if c then y else y') := by
  by_cases hc : c
  · simpa only [hc, if_true] using h₁ hc
  · simpa only [hc, if_false] using h₂ hc

/-- A step both runs take alike, then runs that end alike. -/
theorem bind_same {x : Run γ} {kO : γ → Run α} {kF : γ → Run β}
    (hk : ∀ c, RunsAlike R (kO c) (kF c)) : RunsAlike R (x >>= kO) (x >>= kF) :=
  bind (same x) fun a _ hab => hab ▸ hk a

end RunsAlike

-- ============================================================ the option is read once

namespace Run

variable (ctx : Context) (b : Bool)

@[simp] theorem fail_omitting {α : Type} (k : ViewErrorKind) :
    (fail (ctx.omitting b) k : Run α) = fail ctx k := rfl

@[simp] theorem lift_omitting {α : Type} (r : Except ViewErrorKind α) :
    lift (ctx.omitting b) r = lift ctx r := rfl

@[simp] theorem access_omitting {α : Type} (m : Access α) :
    access (ctx.omitting b) m = access ctx m := rfl

@[simp] theorem stream_omitting {α : Type} (r : Except StreamError α) :
    stream (ctx.omitting b) r = stream ctx r := rfl

end Run

namespace Generate

variable (ctx : Context) (b : Bool)

@[simp] theorem exhausted_omitting {α : Type} : (exhausted (ctx.omitting b) : Run α) = exhausted ctx :=
  rfl

@[simp] theorem push_omitting (w : Writer) (e : Event) : push (ctx.omitting b) w e = push ctx w e :=
  rfl

@[simp] theorem accessorOf_omitting (n : Node) : accessorOf (ctx.omitting b) n = accessorOf ctx n :=
  rfl

@[simp] theorem multiOf_omitting (n : Node) : multiOf (ctx.omitting b) n = multiOf ctx n := rfl

@[simp] theorem wrongShape_omitting {α : Type} (n : Node) (expected : String) (found : Value) :
    (wrongShape (ctx.omitting b) n expected found : Run α) = wrongShape ctx n expected found := rfl

@[simp] theorem elementToView_omitting (n : Node) (v : Scalar) :
    elementToView (ctx.omitting b) n v = elementToView ctx n v := rfl

@[simp] theorem keyToView_omitting (n : Node) (k : Scalar) :
    keyToView (ctx.omitting b) n k = keyToView ctx n k := rfl

@[simp] theorem spliceTarget_omitting (p : Option String) (model : Value) :
    spliceTarget (ctx.omitting b) p model = spliceTarget ctx p model := rfl

end Generate

-- ============================================================ writers alike, run by run

namespace RunsAlike

variable {P : Event → Prop} {wO wF : Writer}

/-- An event both writers take. -/
theorem push (h : Writer.Thins P wO wF) (ctx : Context) (e : Event) :
    RunsAlike (Writer.Thins P) (Generate.push ctx wO e) (Generate.push ctx wF e) := by
  intro s
  rcases h.push e with ⟨err, hO, hF⟩ | ⟨wO', wF', hO, hF, h'⟩
  · simp only [Generate.push, Run.stream, hO, hF, Except.mapError, Run.lift]
    exact ⟨rfl, rfl⟩
  · simp only [Generate.push, Run.stream, hO, hF, Except.mapError, Run.lift]
    exact ⟨h', rfl⟩

/-- An event only the full writer takes. -/
theorem push_left_out (h : Writer.Thins P wO wF) (ctx : Context) {e : Event} (hp : P e)
    (hv : e.kind = .value) :
    RunsAlike (Writer.Thins P) (Pure.pure wO) (Generate.push ctx wF e) := by
  intro s
  obtain ⟨wF', hF, h'⟩ := h.push_left_out hp hv
  simp only [Generate.push, Run.stream, hF, Except.mapError, Run.lift]
  exact ⟨h', rfl⟩

/-- A fold whose every step ends alike. -/
theorem foldlM {β : Type} {fO fF : Writer → β → Run Writer} :
    ∀ (l : List β), (∀ wO wF b, b ∈ l → Writer.Thins P wO wF →
      RunsAlike (Writer.Thins P) (fO wO b) (fF wF b)) →
    ∀ {wO wF : Writer}, Writer.Thins P wO wF →
      RunsAlike (Writer.Thins P) (l.foldlM fO wO) (l.foldlM fF wF)
  | [], _, _, _, h => by
    simp only [List.foldlM_nil]
    exact RunsAlike.pure h
  | b :: l, hf, _, _, h => by
    simp only [List.foldlM_cons]
    exact bind (hf _ _ b List.mem_cons_self h) fun _ _ h' =>
      foldlM l (fun _ _ b hb => hf _ _ b (List.mem_cons_of_mem _ hb)) h'

/-- Pushing a list of events and the list with some of them left out. -/
theorem pushAll (ctx : Context) (hv : ∀ e, P e → e.kind = .value) {o f : List Event}
    (hof : Omitted P o f) :
    ∀ {wO wF : Writer}, Writer.Thins P wO wF →
      RunsAlike (Writer.Thins P) (o.foldlM (fun w e => Generate.push ctx w e) wO)
        (f.foldlM (fun w e => Generate.push ctx w e) wF) := by
  induction hof with
  | nil =>
    intro wO wF h
    exact RunsAlike.pure h
  | keep e _ ih =>
    intro wO wF h
    simp only [List.foldlM_cons]
    exact bind (push h ctx e) fun _ _ h' => ih h'
  | @drop e o f hp _ ih =>
    intro wO wF h
    simp only [List.foldlM_cons]
    rw [← pure_bind wO fun w => o.foldlM (fun w e => Generate.push ctx w e) w]
    exact bind (push_left_out h ctx hp (hv e hp)) fun _ _ h' => ih h'

/-- Finishing both writers: the same refusal, or the views. -/
theorem finish (h : Writer.Thins P wO wF) (ctx : Context) :
    RunsAlike (fun vO vF : View => Omitted P vO.toList vF.toList) (Run.stream ctx wO.finish)
      (Run.stream ctx wF.finish) := by
  intro s
  simp only [Writer.finish, h.stack]
  split
  · exact ⟨h.events, rfl⟩
  · exact ⟨rfl, rfl⟩

end RunsAlike

-- ============================================================ how a template's view opens

/-- A view that opens with a begin event, or that is one event. -/
def Opens (v : List Event) : Prop := ∃ e rest, v = e :: rest ∧ (rest = [] ∨ e.kind.isBegin = true)

/-- Two views that each open so, one the other with events left out that are no begin: both
open with the same event. -/
theorem Omitted.same_head {P : Event → Prop} {o f : List Event} (h : Omitted P o f) (ho : Opens o)
    (hf : Opens f) (hP : ∀ e, P e → e.kind.isBegin = false) :
    ∃ e o' f', o = e :: o' ∧ f = e :: f' ∧ Omitted P o' f' := by
  obtain ⟨e, rest, rfl, hr⟩ := hf
  rcases hr with rfl | hb
  · -- one event: it is left
    obtain ⟨x, o', rfl, -⟩ := ho
    rcases h.singleton_right with h₁ | h₁
    · cases h₁
    · cases h₁
      exact ⟨e, [], [], rfl, rfl, .nil⟩
  · -- a begin event stays
    obtain ⟨o', rfl, h'⟩ := h.cons_right fun hp => by simp [hP e hp] at hb
    exact ⟨e, o', rest, rfl, rfl, h'⟩

namespace Generate

variable {ctx : Context} {s s' : RunState}

/-- Runs from the empty writer whose views open with a begin event or are one event. -/
def OpensFrom (x : Run Writer) : Prop := ∀ s w' s', x s = .ok w' s' → Opens w'.events.toList

namespace OpensFrom

theorem bind {α : Type} {x : Run α} {k : α → Run Writer} (hk : ∀ a, OpensFrom (k a)) :
    OpensFrom (x >>= k) := by
  intro s w' s' h
  obtain ⟨a, s₁, -, h₂⟩ := Run.bind_ok h
  exact hk a _ _ _ h₂

theorem fail (ctx : Context) (k : ViewErrorKind) : OpensFrom (Run.fail ctx k) := by
  intro s w' s' h
  cases h

/-- One event into the empty writer. -/
theorem push_one {w : Writer} (hw : w.events = #[]) (e : Event) : OpensFrom (push ctx w e) := by
  intro s w' s' h
  obtain ⟨hpush, -⟩ := stream_ok h
  rw [Writer.push_events hpush, hw]
  exact ⟨e, [], rfl, .inl rfl⟩

/-- A begin event into the empty writer, then more events. -/
theorem push_begin {w : Writer} (hw : w.events = #[]) {e : Event} (hb : e.kind.isBegin = true)
    {k : Writer → Run Writer} (hk : ∀ w', Appends w' (k w')) : OpensFrom (push ctx w e >>= k) := by
  intro s w'' s'' h
  obtain ⟨w', s₁, h₁, h₂⟩ := Run.bind_ok h
  obtain ⟨hpush, -⟩ := stream_ok h₁
  obtain ⟨rest, hrest⟩ := hk w' _ _ _ h₂
  rw [Writer.push_events hpush, hw] at hrest
  exact ⟨e, rest, hrest.symm, .inr hb⟩

end OpensFrom

variable {fuel : Nat}

theorem associate_opens {n : Node} {name : Option String} {v : Value} {w : Writer}
    (hw : w.events = #[]) : OpensFrom (associate fuel ctx n name v w) := by
  cases fuel with
  | zero => exact OpensFrom.fail _ _
  | succ fuel =>
    simp only [associate]
    split
    · exact OpensFrom.push_begin hw rfl fun _ =>
        Appends.seq ((appendsAt fuel).body _ _ _ _) fun _ _ => Appends.push _ _
    · split
      · exact OpensFrom.push_one hw _
      · exact OpensFrom.fail _ _

/-- An object or a collection at the root opens its view with a begin event, or is one null
value. -/
theorem emit_opens {n : Node} {owner : Value} {w : Writer} (hk : n.kind.isRoot = true)
    (hw : w.events = #[]) : OpensFrom (emit fuel ctx n owner w) := by
  cases fuel with
  | zero => exact OpensFrom.fail _ _
  | succ fuel =>
    simp only [emit]
    cases hkind : n.kind <;> simp only [hkind, NodeKind.isRoot] at hk ⊢ <;> try contradiction
    case object => exact OpensFrom.bind fun _ => OpensFrom.bind fun _ => associate_opens hw
    all_goals
      refine OpensFrom.bind fun _ => OpensFrom.bind fun current => ?_
      split
      · exact OpensFrom.push_one hw _
      · exact OpensFrom.bind fun _ => OpensFrom.bind fun _ =>
          OpensFrom.push_begin hw rfl fun _ =>
            Appends.seq (Appends.foldlM (fun _ _ => (appendsAt fuel).element _ _ _ _ _) _ _)
              fun _ _ => Appends.push _ _

/-- The view of an object or a collection opens with a begin event, or is one null value. -/
theorem template_opens {root : Node} {model : Value} {v : View} (hk : root.kind.isRoot = true)
    (h : template fuel ctx root model s = .ok v s') : Opens v.toList := by
  cases fuel with
  | zero => cases h
  | succ fuel =>
    obtain ⟨w, s₁, hroot, rfl⟩ := template_ok h
    cases fuel with
    | zero => cases hroot
    | succ fuel =>
      obtain ⟨s₂, hemit⟩ := rootPart_ok hroot
      exact emit_opens hk rfl _ _ _ hemit

end Generate

-- ============================================================ spliced views

namespace RunsAlike

variable {P : Event → Prop} {α β : Type} {R : α → β → Prop}

/-- Runs that end alike, with what is known of each run's own value. -/
theorem and {x : Run α} {y : Run β} {Q : α → Prop} {Q' : β → Prop} (h : RunsAlike R x y)
    (hx : ∀ s a s', x s = .ok a s' → Q a) (hy : ∀ s b s', y s = .ok b s' → Q' b) :
    RunsAlike (fun a b => R a b ∧ Q a ∧ Q' b) x y := by
  intro s
  have hs := h s
  rcases hO : x s with ⟨a, s₁⟩ | ⟨e, s₁⟩ <;> rcases hF : y s with ⟨b, s₂⟩ | ⟨e', s₂⟩ <;>
    rw [hO, hF] at hs <;> simp only [ResultsAlike] at hs ⊢
  · exact ⟨⟨hs.1, hx _ _ _ hO, hy _ _ _ hF⟩, hs.2⟩
  · exact hs

/-- Past the first event, a spliced view's events are pushed as they are. -/
theorem foldlM_zipIdx_succ (ctx : Context) {step : Writer → Event × Nat → Run Writer}
    (hs : ∀ w e i, step w (e, i + 1) = Generate.push ctx w e) :
    ∀ (l : List Event) (k : Nat) (w : Writer),
      (l.zipIdx (k + 1)).foldlM step w = l.foldlM (fun w e => Generate.push ctx w e) w
  | [], _, _ => rfl
  | e :: l, k, w => by
    simp only [List.zipIdx_cons, List.foldlM_cons, hs]
    exact congrArg _ (funext fun w' => foldlM_zipIdx_succ ctx hs l (k + 1) w')

/-- A spliced view and the view with null events left out, each opening with the same event,
which both push renamed. -/
theorem splice (ctx : Context) (hP : ∀ e, P e → e.kind = .value) {vO vF : List Event}
    (hv : Omitted P vO vF) (ho : Opens vO) (hf : Opens vF) {name : Option String}
    {step : Writer → Event × Nat → Run Writer}
    (h0 : ∀ w e, step w (e, 0) = Generate.push ctx w { e with name := name })
    (hs : ∀ w e i, step w (e, i + 1) = Generate.push ctx w e) {wO wF : Writer}
    (h : Writer.Thins P wO wF) :
    RunsAlike (Writer.Thins P) (vO.zipIdx.foldlM step wO) (vF.zipIdx.foldlM step wF) := by
  obtain ⟨e, o', f', rfl, rfl, h'⟩ :=
    hv.same_head ho hf fun e he => by simp [hP e he, EventKind.isBegin]
  simp only [List.zipIdx_cons, List.foldlM_cons, h0]
  refine bind (push h ctx _) fun wO' wF' hw => ?_
  rw [foldlM_zipIdx_succ ctx hs, foldlM_zipIdx_succ ctx hs]
  exact pushAll ctx hP h' hw

end RunsAlike

-- ============================================================ every function at every fuel

/-- The null event a value node among `N` writes. -/
def WrittenNull (N : List Node) (e : Event) : Prop :=
  ∃ m ∈ N, m.kind = .value ∧ e = Generate.nodeEvent m .value (some .null)

theorem WrittenNull.kind {N : List Node} {e : Event} (h : WrittenNull N e) : e.kind = .value := by
  obtain ⟨m, -, -, rfl⟩ := h
  rfl

namespace Generate

/-- Generation with the option set and without, at one fuel: from writers alike but for null
events of value nodes among `N`, the runs of every function end alike. -/
structure ThinsAt (N : List Node) (fuel : Nat) : Prop where
  template : ∀ (ctx : Context) root model, root.subnodes ⊆ N →
    RunsAlike (fun vO vF : View => Omitted (WrittenNull N) vO.toList vF.toList)
      (template fuel (ctx.omitting true) root model) (template fuel (ctx.omitting false) root model)
  rootPart : ∀ (ctx : Context) root model {wO wF}, root.subnodes ⊆ N → Writer.Thins (WrittenNull N) wO wF →
    RunsAlike (Writer.Thins (WrittenNull N)) (rootPart fuel (ctx.omitting true) root model wO)
      (rootPart fuel (ctx.omitting false) root model wF)
  child : ∀ (ctx : Context) n owner {wO wF}, n.subnodes ⊆ N → Writer.Thins (WrittenNull N) wO wF →
    RunsAlike (Writer.Thins (WrittenNull N)) (child fuel (ctx.omitting true) n owner wO)
      (child fuel (ctx.omitting false) n owner wF)
  body : ∀ (ctx : Context) n model {wO wF}, n.subnodes ⊆ N → Writer.Thins (WrittenNull N) wO wF →
    RunsAlike (Writer.Thins (WrittenNull N)) (body fuel (ctx.omitting true) n model wO)
      (body fuel (ctx.omitting false) n model wF)
  emit : ∀ (ctx : Context) n owner {wO wF}, n.subnodes ⊆ N → Writer.Thins (WrittenNull N) wO wF →
    RunsAlike (Writer.Thins (WrittenNull N)) (emit fuel (ctx.omitting true) n owner wO)
      (emit fuel (ctx.omitting false) n owner wF)
  associate : ∀ (ctx : Context) n name v {wO wF}, n.subnodes ⊆ N → Writer.Thins (WrittenNull N) wO wF →
    RunsAlike (Writer.Thins (WrittenNull N)) (associate fuel (ctx.omitting true) n name v wO)
      (associate fuel (ctx.omitting false) n name v wF)
  element : ∀ (ctx : Context) n name v {wO wF}, n.subnodes ⊆ N → Writer.Thins (WrittenNull N) wO wF →
    RunsAlike (Writer.Thins (WrittenNull N)) (element fuel (ctx.omitting true) n name v wO)
      (element fuel (ctx.omitting false) n name v wF)

theorem thinsAt_zero (N : List Node) : ThinsAt N 0 := by
  constructor <;> intros <;>
    simp only [template, rootPart, child, body, emit, associate, element, exhausted_omitting] <;>
    exact RunsAlike.fail _ _

section Steps

variable {N : List Node} {fuel : Nat} {wO wF : Writer}

theorem child_thins (ih : ThinsAt N fuel) (ctx : Context) (n : Node) (owner : Value)
    (hn : n.subnodes ⊆ N) (h : Writer.Thins (WrittenNull N) wO wF) :
    RunsAlike (Writer.Thins (WrittenNull N)) (child (fuel + 1) (ctx.omitting true) n owner wO)
      (child (fuel + 1) (ctx.omitting false) n owner wF) := by
  simp only [child, Context.omitting_push, Context.omitting_shouldVisit,
    Context.omitting_nodeVisited]
  refine RunsAlike.bind_same fun visit => ?_
  split
  · exact RunsAlike.pure h
  · split
    · exact RunsAlike.pure h
    · exact RunsAlike.bind (ih.emit _ _ _ hn h) fun _ _ h' =>
        RunsAlike.bind_same fun _ => RunsAlike.pure h'

theorem rootPart_thins (ih : ThinsAt N fuel) (ctx : Context) (root : Node) (model : Value)
    (hn : root.subnodes ⊆ N) (h : Writer.Thins (WrittenNull N) wO wF) :
    RunsAlike (Writer.Thins (WrittenNull N)) (rootPart (fuel + 1) (ctx.omitting true) root model wO)
      (rootPart (fuel + 1) (ctx.omitting false) root model wF) := by
  simp only [rootPart, Context.omitting_push, Context.omitting_nodeVisited]
  exact RunsAlike.bind (ih.emit _ _ _ hn h) fun _ _ h' =>
    RunsAlike.bind_same fun _ => RunsAlike.pure h'

theorem body_thins (ih : ThinsAt N fuel) (ctx : Context) (n : Node) (model : Value)
    (hn : n.subnodes ⊆ N) (h : Writer.Thins (WrittenNull N) wO wF) :
    RunsAlike (Writer.Thins (WrittenNull N)) (body (fuel + 1) (ctx.omitting true) n model wO)
      (body (fuel + 1) (ctx.omitting false) n model wF) := by
  simp only [body]
  -- each child is a node below `n`
  have hc : ∀ c ∈ n.children, c.subnodes ⊆ N := fun c hc =>
    List.Subset.trans (Node.subnodes_child hc) hn
  exact RunsAlike.foldlM _ (fun _ _ c hcm h' => ih.child ctx c model (hc c hcm) h') h

theorem associate_thins (ih : ThinsAt N fuel) (ctx : Context) (n : Node) (name : Option String)
    (v : Value) (hn : n.subnodes ⊆ N) (h : Writer.Thins (WrittenNull N) wO wF) :
    RunsAlike (Writer.Thins (WrittenNull N)) (associate (fuel + 1) (ctx.omitting true) n name v wO)
      (associate (fuel + 1) (ctx.omitting false) n name v wF) := by
  simp only [associate, push_omitting, wrongShape_omitting]
  split
  · exact RunsAlike.bind (RunsAlike.push h _ _) fun _ _ h₁ =>
      RunsAlike.bind (ih.body _ _ _ hn h₁) fun _ _ h₂ => RunsAlike.push h₂ _ _
  · split
    · exact RunsAlike.push h _ _
    · exact RunsAlike.fail _ _

theorem element_thins (ih : ThinsAt N fuel) (ctx : Context) (n : Node) (name : Option String)
    (v : Value) (hn : n.subnodes ⊆ N) (h : Writer.Thins (WrittenNull N) wO wF) :
    RunsAlike (Writer.Thins (WrittenNull N)) (element (fuel + 1) (ctx.omitting true) n name v wO)
      (element (fuel + 1) (ctx.omitting false) n name v wF) := by
  simp only [element, push_omitting, wrongShape_omitting, elementToView_omitting]
  split
  · exact ih.associate _ _ _ _ hn h
  · split
    · exact RunsAlike.bind_same fun _ => RunsAlike.push h _ _
    · exact RunsAlike.fail _ _

/-- A value node writes its value; with the option set, a null value is left out. -/
theorem value_thins {n : Node} (hm : n ∈ N) (hk : n.kind = .value) (ctx : Context) (v : Scalar)
    (h : Writer.Thins (WrittenNull N) wO wF) :
    RunsAlike (Writer.Thins (WrittenNull N))
      (if v.isNull = true then Pure.pure wO else push ctx wO (nodeEvent n .value (some v)))
      (push ctx wF (nodeEvent n .value (some v))) := by
  by_cases hv : v.isNull = true
  · have hnull : v = .null := by cases v <;> simp_all [Scalar.isNull]
    subst hnull
    rw [if_pos hv]
    exact RunsAlike.push_left_out h ctx ⟨n, hm, hk, rfl⟩ rfl
  · rw [if_neg hv]
    exact RunsAlike.push h ctx _

variable (hN : ∀ m ∈ N, ∀ r p, m.splice = some (r, p) → r.kind.isRoot = true)

include hN in
theorem emit_thins (ih : ThinsAt N fuel) (ctx : Context) (n : Node) (owner : Value)
    (hn : n.subnodes ⊆ N) (h : Writer.Thins (WrittenNull N) wO wF) :
    RunsAlike (Writer.Thins (WrittenNull N)) (emit (fuel + 1) (ctx.omitting true) n owner wO)
      (emit (fuel + 1) (ctx.omitting false) n owner wF) := by
  simp only [emit, push_omitting, wrongShape_omitting, elementToView_omitting, accessorOf_omitting,
    multiOf_omitting, keyToView_omitting, spliceTarget_omitting, Run.access_omitting,
    Run.lift_omitting, Context.omitting_push, Context.omitting_omitNulls,
    Context.omitting_didExtractValue, Bool.and_true, Bool.and_false, Bool.false_eq_true, if_false]
  cases hk : n.kind <;> dsimp only
  case value =>
    -- the one place the option is read
    refine RunsAlike.bind_same fun a => RunsAlike.bind_same fun raw => ?_
    split
    · split
      · exact RunsAlike.bind_same fun v => value_thins (hn n.mem_subnodes_self) hk ctx v h
      · exact RunsAlike.bind_same fun v => value_thins (hn n.mem_subnodes_self) hk ctx v h
    · exact RunsAlike.fail _ _
  case object | reference =>
    exact RunsAlike.bind_same fun _ => RunsAlike.bind_same fun _ => ih.associate _ _ _ _ hn h
  case arrayOfObjects | arrayOfValues =>
    refine RunsAlike.bind_same fun _ => RunsAlike.bind_same fun current => ?_
    refine RunsAlike.ite (fun _ => RunsAlike.push h _ _) fun _ => ?_
    refine RunsAlike.bind_same fun _ => RunsAlike.bind_same fun elements => ?_
    refine RunsAlike.bind (RunsAlike.push h _ _) fun _ _ h₁ => ?_
    refine RunsAlike.bind (RunsAlike.foldlM _ (fun _ _ x _ h' => ?_) h₁) fun _ _ h₂ =>
      RunsAlike.push h₂ _ _
    exact ih.element _ _ _ _ hn h'
  case mapOfObjects | mapOfValues =>
    refine RunsAlike.bind_same fun _ => RunsAlike.bind_same fun current => ?_
    refine RunsAlike.ite (fun _ => RunsAlike.push h _ _) fun _ => ?_
    refine RunsAlike.bind_same fun _ => RunsAlike.bind_same fun entries => ?_
    refine RunsAlike.ite (fun _ => ?_) fun _ => ?_
    · -- an object with one property per key
      refine RunsAlike.bind (RunsAlike.push h _ _) fun _ _ h₁ => ?_
      refine RunsAlike.bind (RunsAlike.foldlM _ (fun _ _ x _ h' => ?_) h₁) fun _ _ h₂ =>
        RunsAlike.push h₂ _ _
      exact RunsAlike.bind_same fun _ => ih.element _ _ _ _ hn h'
    · -- an array of key and value objects
      refine RunsAlike.bind (RunsAlike.push h _ _) fun _ _ h₁ => ?_
      refine RunsAlike.bind (RunsAlike.foldlM _ (fun _ _ x _ h' => ?_) h₁) fun _ _ h₂ =>
        RunsAlike.push h₂ _ _
      refine RunsAlike.bind_same fun _ => RunsAlike.bind (RunsAlike.push h' _ _) fun _ _ h₃ => ?_
      refine RunsAlike.bind (RunsAlike.push h₃ _ _) fun _ _ h₄ => ?_
      exact RunsAlike.bind (ih.element _ _ _ _ hn h₄) fun _ _ h₅ => RunsAlike.push h₅ _ _
  case envelope =>
    exact RunsAlike.bind (RunsAlike.push h _ _) fun _ _ h₁ =>
      RunsAlike.bind (ih.body _ _ _ hn h₁) fun _ _ h₂ => RunsAlike.push h₂ _ _
  case splice =>
    cases hs : n.splice with
    | none => exact RunsAlike.pure h
    | some rp =>
      obtain ⟨r, p⟩ := rp
      dsimp only
      have hr : r.subnodes ⊆ N := List.Subset.trans (Node.subnodes_spliced hs) hn
      have hroot : r.kind.isRoot = true := hN n (hn n.mem_subnodes_self) r p hs
      refine RunsAlike.bind_same fun target => ?_
      by_cases ht : target.isNull = true
      · -- a null target: the same one event
        simp only [ht, if_true, pure_bind]
        refine RunsAlike.foldlM _ (fun _ _ x _ h' => ?_) h
        exact RunsAlike.push h' _ _
      · -- the spliced view, read with the same option
        simp only [ht, Bool.false_eq_true, if_false]
        refine RunsAlike.bind ((ih.template ctx r target hr).and
          (fun _ _ _ hx => template_opens hroot hx) (fun _ _ _ hy => template_opens hroot hy))
          fun vO vF hvo => ?_
        obtain ⟨hv, ho, hf⟩ := hvo
        exact RunsAlike.splice ctx (fun e he => he.kind) hv ho hf (fun _ _ => rfl)
          (fun _ _ _ => rfl) h
  case subtype =>
    -- the children, for an instance of the branch's type
    cases owner
    case object hd =>
      cases n.modelType with
      | none => exact RunsAlike.pure h
      | some t =>
        exact RunsAlike.bind_same fun _ => RunsAlike.ite (fun _ => ih.body _ _ _ hn h) fun _ =>
          RunsAlike.pure h
    all_goals exact RunsAlike.pure h
  case discriminator =>
    cases owner
    case object hd =>
      cases n.info.discriminator with
      | none => exact RunsAlike.pure h
      | some st => exact RunsAlike.bind_same fun _ => RunsAlike.push h _ _
    all_goals exact RunsAlike.pure h
  case metadata =>
    cases n.info.metaHandler with
    | none => exact RunsAlike.pure h
    | some m => exact RunsAlike.bind_same fun _ => RunsAlike.bind_same fun _ => RunsAlike.push h _ _

theorem template_thins (ih : ThinsAt N fuel) (ctx : Context) (root : Node) (model : Value)
    (hn : root.subnodes ⊆ N) :
    RunsAlike (fun vO vF : View => Omitted (WrittenNull N) vO.toList vF.toList)
      (template (fuel + 1) (ctx.omitting true) root model)
      (template (fuel + 1) (ctx.omitting false) root model) := by
  simp only [template, Run.fail_omitting, Run.stream_omitting, Context.omitting_maxDepth]
  -- the root's part from the empty writer, then the check that nothing is left open
  have hrest : RunsAlike (fun vO vF : View => Omitted (WrittenNull N) vO.toList vF.toList)
      (rootPart fuel (ctx.omitting true) root model { maxDepth := ctx.options.maxDepth } >>=
        fun w => Run.stream ctx w.finish)
      (rootPart fuel (ctx.omitting false) root model { maxDepth := ctx.options.maxDepth } >>=
        fun w => Run.stream ctx w.finish) :=
    RunsAlike.bind (ih.rootPart ctx root model hn (Writer.Thins.refl _)) fun _ _ hw =>
      RunsAlike.finish hw ctx
  cases model
  case object hd =>
    cases root.modelType with
    | none => exact hrest
    | some t =>
      exact RunsAlike.bind_same fun _ =>
        RunsAlike.ite (fun _ => RunsAlike.bind_same fun _ => hrest) fun _ => hrest
  all_goals exact hrest

include hN in
/-- Generation with the option set and without ends alike at every fuel. -/
theorem thinsAt : ∀ fuel, ThinsAt N fuel
  | 0 => thinsAt_zero N
  | fuel + 1 =>
    have ih := thinsAt fuel
    ⟨template_thins ih, fun ctx root model _ _ hn h => rootPart_thins ih ctx root model hn h,
      fun ctx n owner _ _ hn h => child_thins ih ctx n owner hn h,
      fun ctx n model _ _ hn h => body_thins ih ctx n model hn h,
      fun ctx n owner _ _ hn h => emit_thins hN ih ctx n owner hn h,
      fun ctx n name v _ _ hn h => associate_thins ih ctx n name v hn h,
      fun ctx n name v _ _ hn h => element_thins ih ctx n name v hn h⟩


end Steps

/-- With the option set, a value node writes nothing, or a value that is not null. -/
theorem emit_value_omitting {ctx : Context} {n : Node} {owner : Value} {w w' : Writer}
    {s s' : RunState} (hk : n.kind = .value) (h : emit fuel (ctx.omitting true) n owner w s = .ok w' s') :
    w' = w ∨ ∃ v, v ≠ Scalar.null ∧ w.push (nodeEvent n .value (some v)) = .ok w' := by
  cases fuel with
  | zero => cases h
  | succ fuel =>
    simp only [emit, hk, Context.omitting_omitNulls, Bool.and_true, push_omitting] at h
    obtain ⟨a, s₁, -, h⟩ := Run.bind_ok h
    obtain ⟨raw, s₂, -, h⟩ := Run.bind_ok h
    -- the converted value is left out when null, else written
    have written : ∀ (v : Scalar) s₃, (if v.isNull = true then Pure.pure w
        else push ctx w (nodeEvent n .value (some v))) s₃ = .ok w' s' →
        w' = w ∨ ∃ v, v ≠ Scalar.null ∧ w.push (nodeEvent n .value (some v)) = .ok w' := by
      intro v s₃ hv
      split at hv
      · cases hv
        exact .inl rfl
      · obtain ⟨hpush, -⟩ := stream_ok hv
        exact .inr ⟨v, by rintro rfl; simp_all [Scalar.isNull], hpush⟩
    split at h
    · split at h
      · obtain ⟨v, s₃, -, h⟩ := Run.bind_ok h
        exact written v s₃ h
      · obtain ⟨v, s₃, -, h⟩ := Run.bind_ok h
        exact written v s₃ h
    · cases h

end Generate

-- ============================================================ an explicit null read back

/-- The field an accessor writes a null into: a writable field, alone or behind converters and
coercions, which pass a null on as it is. -/
def Accessor.nullField? : Accessor → Option String
  | .field n _ m => if m.write then some n else none
  | .converting d _ | .coercing d _ => d.nullField?
  | .root _ | .computed .. => none

/-- An accessor with a null field writes a null as a plain write of that field. -/
theorem Accessor.set_null_of_nullField? {a : Accessor} {f : String} (ha : a.nullField? = some f)
    (o : Handle) (st : Store) :
    a.set (.object o) Value.null st = .ok () (st.setField o f .null) := by
  induction a with
  | root => cases ha
  | computed => cases ha
  | field n dt m =>
    simp only [nullField?, Option.ite_none_right_eq_some, Option.some.injEq] at ha
    obtain ⟨hw, rfl⟩ := ha
    exact set_field_writable hw o _ st
  | converting d c ih =>
    simp only [set, Value.null, Scalar.isNull, if_true]
    exact ih ha
  | coercing d sep ih =>
    simp only [set, Value.isNull, Value.null, if_true]
    exact ih ha

namespace Entity

variable {t : ModelType} {ps qs : List (String × Staged)} {x : String}

/-- An entity without a property gives nothing for it and stays as it is. -/
theorem take_of_not_mem (hx : x ∉ ps.map (·.1)) :
    (⟨t, ps⟩ : Entity).take x = (none, ⟨t, ps⟩) := by
  have hidx : ps.findIdx? (·.1 == x) = none :=
    List.findIdx?_eq_none_iff.2 fun p hp => by
      simpa using fun hpx => hx (List.mem_map.2 ⟨p, hp, hpx⟩)
  simp [take, hidx]

/-- An entity gives its first property of a name and keeps the others. -/
theorem take_of_first {st : Staged} (hx : x ∉ ps.map (·.1)) :
    (⟨t, ps ++ (x, st) :: qs⟩ : Entity).take x = (some st, ⟨t, ps ++ qs⟩) := by
  have hidx : (ps ++ (x, st) :: qs).findIdx? (·.1 == x) = some ps.length := by
    rw [List.findIdx?_append, List.findIdx?_eq_none_iff.2 fun p hp => by
      simpa using fun hpx => hx (List.mem_map.2 ⟨p, hp, hpx⟩), List.findIdx?_cons]
    simp
  simp only [take, hidx]
  rw [List.eraseIdx_append_of_length_le le_rfl, Nat.sub_self, List.eraseIdx_zero,
    List.tail_cons]
  simp

end Entity

/-- With no listeners, a node stages a null value event as an explicit null: converters and
coercion leave null as it is. -/
theorem Stage.scalar_null {ctx : Context} {n : Node} {e : Event} (hq : ctx.listeners = [])
    (he : e.value.getD .null = .null) : Stage.scalar ctx n e = pure (.value .null) := by
  have hmodel : ∀ c k, toModel c .null k = .ok .null := by
    intro c k
    cases c <;> cases k <;>
      simp [toModel, Scalar.isNull, coerce, Scalar.kind, bind, Except.bind, pure, Except.pure]
  have hlisten : ctx.willInjectValue n .null = some .null := by
    simp [Context.willInjectValue, hq]
  rw [Stage.scalar, he, hlisten]
  dsimp only
  -- a value node with its own converter converts on injection, any other node here
  split
  · rfl
  · simp only [Stage.scalarToModel, hmodel]
    rfl

namespace Apply

variable {fuel : Nat} {ctx : Context} {n : Node} {x f : String} {a : Accessor} {t : ModelType}
  {ps qs : List (String × Staged)} {h : Handle} {s : RunState}

/-- Injection through a value node whose property the entity does not hold hands the entity
back and leaves the state as it was. -/
theorem into_absent (hk : n.kind = .value) (hx : n.name = some x) (habs : x ∉ ps.map (·.1))
    (model : Value) : into (fuel + 1) ctx n ⟨t, ps⟩ model s = .ok ⟨t, ps⟩ s := by
  simp [into, hk, hx, Entity.take_of_not_mem habs, pure, EStateM.pure]

/-- With no listeners, an explicit null for a writable value node whose accessor has a null
field writes null into that field of the object, and the node hands back the entity without
the property. -/
theorem into_explicit_null (hq : ctx.listeners = []) (hk : n.kind = .value)
    (hx : n.name = some x) (hw : n.modes.write = true) (ha : n.accessor = some a)
    (hf : a.nullField? = some f) (hps : x ∉ ps.map (·.1)) :
    into (fuel + 2) ctx n ⟨t, ps ++ (x, .value .null) :: qs⟩ (.object h) s =
      .ok ⟨t, ps ++ qs⟩ { s with store := s.store.setField h f .null } := by
  have hset := Accessor.set_null_of_nullField? hf h s.store
  simp only [Value.null] at hset
  have haccess : ∀ c : Context, Run.access c (a.set (.object h) (.scalar .null)) s =
      .ok () { s with store := s.store.setField h f .null } := fun c => by
    simp only [Run.access, hset]
    rfl
  have hq' : ∀ fr, (ctx.push fr).listeners = [] := fun _ => hq
  simp only [into, hk, hx, Entity.take_of_first hps, Context.shouldVisit_quiet (hq' _),
    Context.nodeVisited_quiet (hq' _), NodeKind.isProperty, hw, staged_, ha, pure_bind,
    Bool.not_true, Bool.and_false, Bool.false_eq_true, if_false]
  simp only [bind, EStateM.bind, haccess, pure, EStateM.pure]

end Apply

namespace Sample

/-- People with a name and a friend. -/
def companionType : ModelType :=
  { name := "Person", props := [.field "name" (.scalar .string), .field "friend" .object] }

/-- A person's name, and the name of their friend. -/
def companions : Template :=
  match ((((Builder.forObject companionType).value "name").reference "friend" companionType).value
      "name").close.build with
  | .ok t => t
  | .error _ => default

/-- `P`, whose friend has no name, and a third person without a name. -/
def companionState : RunState :=
  let (st, p) := ({} : Store).newObject companionType
  let (st, q) := st.newObject companionType
  let (st, _) := st.newObject companionType
  { store := (st.setField p "name" (.scalar (.string "P"))).setField p "friend" (.object q) }

/-- People found by their name, among the third person alone. -/
def companionsByName : Context :=
  { resolvers := [{ type := companionType, key := "name", objects := [2] }] }

end Sample

end GraphViews

import Mathlib
import GraphViews.Proofs.NullOmission
import GraphViews.Proofs.CollectionCalls
/-!
# Generation repeated with more fuel, in another context, from another writer

Generation through a node does not depend on its fuel once there is enough, on the frames of
its context, which only place its errors, or on how deep its writer already is, as long as the
writer has room. `Generate.repeatsAt` states this for every generation function: a run that
ends well, with any fuel and in a context with no listeners, is repeated with enough fuel in a
context alike but for its frames (`Context.Alike`), from a writer no deeper with the same limit
(`Writer.Aligned`), and the two runs append the same nested events. The body of a node is
repeated by the body of any node with the same children, which is what a grafted node and the
root it was grafted from have in common.

# How the proofs go

`Run.Repeats R x y` says that whenever `x` ends well it has left the state as it was, and `y`
ends well from the same state, with a value related by `R`. Between writers the relation is
`Writer.Grown`: both writers extend theirs by the same nested events (`Nested`), with the same
containers open as before. A writer no deeper than another, with the same limit, takes every
event the other takes (`Writer.step_repeat`, `pushes_repeat`).

`Node.emitNeed` bounds the fuel generation through a node needs, eight units for each node
below it, as `Template.generate` provides. `RepeatsAt fuel` collects the statement for every
generation function at one fuel of the first run; each function's step lemma proves it at
`fuel + 1` from `RepeatsAt fuel`, and `repeatsAt` is the induction.
-/

namespace GraphViews

-- ============================================================ nested events

/-- The containers open after one more event, innermost first; none when an end event does
not close the innermost open container. -/
def nestStep (st : List EventKind) (e : Event) : Option (List EventKind) :=
  if e.kind.isBegin then some (e.kind :: st)
  else if e.kind.isEnd then
    match st with
    | o :: rest => if o.complement = some e.kind then some rest else none
    | [] => none
  else some st

/-- The containers open after a run of events, from the ones open before. -/
def nestFrom (t : List EventKind) (D : List Event) : Option (List EventKind) := D.foldlM nestStep t

/-- A run of events that closes every container it opens, and no other. -/
def Nested (D : List Event) : Prop := nestFrom [] D = some []

theorem nestFrom_append (t : List EventKind) (D₁ D₂ : List Event) :
    nestFrom t (D₁ ++ D₂) = (nestFrom t D₁).bind (nestFrom · D₂) := by
  simp only [nestFrom, List.foldlM_append]
  rfl

/-- Containers open before an event stay open below what it leaves open. -/
theorem nestStep_append_stack {t t' : List EventKind} {e : Event} (s : List EventKind)
    (h : nestStep t e = some t') : nestStep (t ++ s) e = some (t' ++ s) := by
  unfold nestStep at h ⊢
  by_cases hb : e.kind.isBegin = true
  · simp only [hb, if_true, Option.some.injEq] at h ⊢
    rw [← h, List.cons_append]
  · simp only [hb, Bool.false_eq_true, if_false] at h ⊢
    by_cases he : e.kind.isEnd = true
    · simp only [he, if_true] at h ⊢
      cases t with
      | nil => cases h
      | cons o rest =>
        by_cases hc : o.complement = some e.kind
        · simp only [hc, if_true, Option.some.injEq] at h
          simp [hc, h]
        · simp [hc] at h
    · simp only [he, Bool.false_eq_true, if_false, Option.some.injEq] at h ⊢
      rw [h]

theorem nestFrom_append_stack : ∀ {t t' : List EventKind} (D : List Event) (s : List EventKind),
    nestFrom t D = some t' → nestFrom (t ++ s) D = some (t' ++ s)
  | t, t', [], s, h => by
    simp only [nestFrom, List.foldlM_nil, Option.pure_def, Option.some.injEq] at h ⊢
    rw [h]
  | t, t', e :: es, s, h => by
    simp only [nestFrom, List.foldlM_cons] at h ⊢
    cases hstep : nestStep t e with
    | none => simp [hstep] at h
    | some t₁ =>
      rw [hstep] at h
      rw [nestStep_append_stack s hstep]
      exact nestFrom_append_stack es s h

/-- The events a run nests are a matter of their kinds. -/
theorem nestFrom_congr_kinds : ∀ {t : List EventKind} {D₁ D₂ : List Event},
    D₁.map (·.kind) = D₂.map (·.kind) → nestFrom t D₁ = nestFrom t D₂
  | _, [], [], _ => rfl
  | t, e₁ :: D₁, e₂ :: D₂, h => by
    simp only [List.map_cons, List.cons.injEq] at h
    obtain ⟨hk, hD⟩ := h
    have hstep : nestStep t e₁ = nestStep t e₂ := by simp only [nestStep, hk]
    simp only [nestFrom, List.foldlM_cons, hstep]
    cases nestStep t e₂ with
    | none => rfl
    | some t₁ => exact nestFrom_congr_kinds hD

namespace Nested

theorem nil : Nested [] := rfl

theorem append {D₁ D₂ : List Event} (h₁ : Nested D₁) (h₂ : Nested D₂) : Nested (D₁ ++ D₂) := by
  unfold Nested at *
  rw [nestFrom_append, h₁]
  exact h₂

/-- One event that neither opens nor closes a container. -/
theorem leaf {e : Event} (hb : e.kind.isBegin = false) (he : e.kind.isEnd = false) :
    Nested [e] := by
  simp [Nested, nestFrom, nestStep, hb, he]

/-- Nested events between a begin event and the end event that closes it. -/
theorem bracket {b e : Event} {D : List Event} (hb : b.kind.isBegin = true)
    (he : e.kind.isEnd = true) (hc : b.kind.complement = some e.kind) (hD : Nested D) :
    Nested (b :: (D ++ [e])) := by
  unfold Nested
  have hD' : nestFrom [b.kind] D = some [b.kind] := nestFrom_append_stack D [b.kind] hD
  have hopen : nestStep [] b = some [b.kind] := by simp [nestStep, hb]
  have hclose : nestStep [b.kind] e = some [] := by
    simp [nestStep, EventKind.isBegin_false_of_isEnd he, he, hc]
  show (nestStep [] b).bind (fun st => (D ++ [e]).foldlM nestStep st) = some []
  rw [hopen, Option.bind_some, List.foldlM_append]
  unfold nestFrom at hD'
  rw [hD']
  simp [hclose]

end Nested

-- ============================================================ contexts alike but for frames

namespace Context

/-- Two contexts with no listeners that differ at most in their frames, which generation reads
only to place its errors. -/
structure Alike (c₁ c₂ : Context) : Prop where
  erase : { c₁ with frames := [] } = { c₂ with frames := [] }
  quiet : c₁.listeners = []

namespace Alike

variable {c₁ c₂ : Context}

theorem refl {c : Context} (hq : c.listeners = []) : Alike c c := ⟨rfl, hq⟩

theorem options (h : Alike c₁ c₂) : c₁.options = c₂.options := by
  have ho := congrArg Context.options h.erase
  change c₁.options = c₂.options at ho
  exact ho

theorem converterFor (h : Alike c₁ c₂) : c₁.converterFor = c₂.converterFor := by
  have hc := congrArg Context.converters h.erase
  change c₁.converters = c₂.converters at hc
  funext k
  simp only [Context.converterFor, hc]

theorem quiet₂ (h : Alike c₁ c₂) : c₂.listeners = [] := by
  have hl := congrArg Context.listeners h.erase
  change c₁.listeners = c₂.listeners at hl
  rw [← hl, h.quiet]

theorem push (h : Alike c₁ c₂) (f₁ f₂ : Frame) : Alike (c₁.push f₁) (c₂.push f₂) :=
  ⟨h.erase, h.quiet⟩

theorem push_left (h : Alike c₁ c₂) (f : Frame) : Alike (c₁.push f) c₂ := ⟨h.erase, h.quiet⟩

theorem push_right (h : Alike c₁ c₂) (f : Frame) : Alike c₁ (c₂.push f) := ⟨h.erase, h.quiet⟩

end Alike

end Context

-- ============================================================ runs that repeat a run

namespace Run

/-- Whenever `x` ends well it has left the state as it was, and `y` ends well from the same
state, with a value related by `R`. -/
def Repeats {α β : Type} (R : α → β → Prop) (x : Run α) (y : Run β) : Prop :=
  ∀ s a s', x s = .ok a s' → s' = s ∧ ∃ b, y s = .ok b s ∧ R a b

namespace Repeats

variable {α β γ δ : Type} {R : α → β → Prop}

theorem pure {a : α} {b : β} (h : R a b) : Repeats R (Pure.pure a) (Pure.pure b) := by
  intro s a' s' hx
  cases hx
  exact ⟨rfl, b, rfl, h⟩

theorem fail (ctx : Context) (k : ViewErrorKind) {y : Run β} :
    Repeats R (Run.fail ctx k : Run α) y := by
  intro s a s' h
  cases h

theorem bind {R₁ : γ → δ → Prop} {x : Run γ} {y : Run δ} {k : γ → Run α} {l : δ → Run β}
    (hx : Repeats R₁ x y) (hk : ∀ a b, R₁ a b → Repeats R (k a) (l b)) :
    Repeats R (x >>= k) (y >>= l) := by
  intro s a s' h
  obtain ⟨c, s₁, h₁, h₂⟩ := Run.bind_ok h
  obtain ⟨hs₁, d, hy, hcd⟩ := hx s c s₁ h₁
  rw [hs₁] at h₂
  obtain ⟨hs', b, hl, hab⟩ := hk c d hcd s a s' h₂
  refine ⟨hs', b, ?_, hab⟩
  simp only [Bind.bind, EStateM.bind, hy]
  exact hl

/-- The same step on both sides, with equal results. -/
theorem bind_eq {x : Run γ} {y : Run γ} {k : γ → Run α} {l : γ → Run β} (hx : Repeats Eq x y)
    (hk : ∀ a, Repeats R (k a) (l a)) : Repeats R (x >>= k) (y >>= l) :=
  bind hx fun a _ hab => hab ▸ hk a

theorem ite {c : Prop} [Decidable c] {x x' : Run α} {y y' : Run β} (h₁ : c → Repeats R x y)
    (h₂ : ¬c → Repeats R x' y') : Repeats R (if c then x else x') (if c then y else y') := by
  by_cases hc : c
  · simpa only [hc, if_true] using h₁ hc
  · simpa only [hc, if_false] using h₂ hc

theorem mono {S : α → β → Prop} {x : Run α} {y : Run β} (h : Repeats R x y)
    (hRS : ∀ a b, R a b → S a b) : Repeats S x y := by
  intro s a s' hx
  obtain ⟨hs, b, hy, hab⟩ := h s a s' hx
  exact ⟨hs, b, hy, hRS a b hab⟩

theorem store : Repeats Eq Run.store Run.store := fun _ _ _ h => by
  cases h
  exact ⟨rfl, _, rfl, rfl⟩

theorem lift (c₁ c₂ : Context) (r : Except ViewErrorKind α) :
    Repeats Eq (Run.lift c₁ r) (Run.lift c₂ r) := by
  cases r with
  | error k => exact Repeats.fail _ _
  | ok a => exact Repeats.pure rfl

theorem convert (c₁ c₂ : Context) (r : Except ConversionError α) :
    Repeats Eq (Run.convert c₁ r) (Run.convert c₂ r) :=
  lift c₁ c₂ _

/-- A store access that only reads. -/
theorem access (c₁ c₂ : Context) {m : Access α} (hm : Access.Reads m) :
    Repeats Eq (Run.access c₁ m) (Run.access c₂ m) := by
  intro s a s' h
  simp only [Run.access] at h ⊢
  cases hs : m s.store with
  | error e st =>
    rw [hs] at h
    cases h
  | ok b st =>
    rw [hs] at h
    cases h
    have hst : st = s.store := hm.of_ok hs
    subst hst
    exact ⟨rfl, a, rfl, rfl⟩

end Repeats

end Run

namespace Generate

open Run (Repeats)

variable {c₁ c₂ : Context}

theorem accessorOf_repeats (c₁ c₂ : Context) (n : Node) :
    Repeats Eq (accessorOf c₁ n) (accessorOf c₂ n) := by
  unfold accessorOf
  split
  · exact Repeats.pure rfl
  · exact Repeats.fail _ _

theorem multiOf_repeats (c₁ c₂ : Context) (n : Node) :
    Repeats Eq (multiOf c₁ n) (multiOf c₂ n) := by
  unfold multiOf
  split
  · exact Repeats.pure rfl
  · exact Repeats.fail _ _

theorem elementToView_repeats (h : c₁.Alike c₂) (n : Node) (v : Scalar) :
    Repeats Eq (elementToView c₁ n v) (elementToView c₂ n v) := by
  simp only [elementToView, Context.didExtractValue_quiet h.quiet,
    Context.didExtractValue_quiet h.quiet₂, h.converterFor]
  exact Repeats.bind_eq (Repeats.convert _ _ _) fun _ => Repeats.pure rfl

theorem keyToView_repeats (h : c₁.Alike c₂) (n : Node) (k : Scalar) :
    Repeats Eq (keyToView c₁ n k) (keyToView c₂ n k) := by
  simp only [keyToView, h.converterFor]
  exact Repeats.convert _ _ _

theorem spliceTarget_repeats (c₁ c₂ : Context) (p : Option String) (model : Value) :
    Repeats Eq (spliceTarget c₁ p model) (spliceTarget c₂ p model) := by
  unfold spliceTarget
  split
  · exact Repeats.pure rfl
  · exact Repeats.bind_eq Repeats.store fun _ => Repeats.pure rfl
  · exact Repeats.fail _ _

end Generate

-- ============================================================ writers that take the same events

namespace Writer

/-- Two writers where every event the first takes, the second takes: the same limit, and the
second no deeper. -/
structure Aligned (w₁ w₂ : Writer) : Prop where
  maxDepth : w₁.maxDepth = w₂.maxDepth
  depth : w₂.stack.length ≤ w₁.stack.length

/-- `w₁'` and `w₂'` extend `w₁` and `w₂` by `D₁` and `D₂`, with the same containers open and the
same limits as before. -/
structure Extended (D₁ D₂ : List Event) (w₁ w₂ w₁' w₂' : Writer) : Prop where
  events₁ : w₁'.events.toList = w₁.events.toList ++ D₁
  events₂ : w₂'.events.toList = w₂.events.toList ++ D₂
  stack₁ : w₁'.stack = w₁.stack
  stack₂ : w₂'.stack = w₂.stack
  maxDepth₁ : w₁'.maxDepth = w₁.maxDepth
  maxDepth₂ : w₂'.maxDepth = w₂.maxDepth

/-- Both writers extend theirs by the same nested events. -/
def Grown (w₁ w₂ w₁' w₂' : Writer) : Prop := ∃ D, Nested D ∧ Extended D D w₁ w₂ w₁' w₂'

variable {w₁ w₂ w₁' w₂' w₁'' w₂'' : Writer}

theorem Extended.aligned {D₁ D₂ : List Event} (h : Aligned w₁ w₂)
    (he : Extended D₁ D₂ w₁ w₂ w₁' w₂') : Aligned w₁' w₂' :=
  ⟨by rw [he.maxDepth₁, he.maxDepth₂, h.maxDepth], by rw [he.stack₁, he.stack₂]; exact h.depth⟩

theorem Grown.refl (w₁ w₂ : Writer) : Grown w₁ w₂ w₁ w₂ :=
  ⟨[], Nested.nil, ⟨by simp, by simp, rfl, rfl, rfl, rfl⟩⟩

theorem Grown.trans (h : Grown w₁ w₂ w₁' w₂') (h' : Grown w₁' w₂' w₁'' w₂'') :
    Grown w₁ w₂ w₁'' w₂'' := by
  obtain ⟨D, hD, he⟩ := h
  obtain ⟨D', hD', he'⟩ := h'
  refine ⟨D ++ D', hD.append hD', ⟨?_, ?_, ?_, ?_, ?_, ?_⟩⟩
  · rw [he'.events₁, he.events₁, List.append_assoc]
  · rw [he'.events₂, he.events₂, List.append_assoc]
  · rw [he'.stack₁, he.stack₁]
  · rw [he'.stack₂, he.stack₂]
  · rw [he'.maxDepth₁, he.maxDepth₁]
  · rw [he'.maxDepth₂, he.maxDepth₂]

/-- Two writers take one event each, of the same kind, when the first does: begin events find
room in the second, no deeper, and end events close the same container in both. -/
theorem step_repeat {e₁ e₂ : Event} (hk : e₁.kind = e₂.kind) {t t' b₁ b₂ : List EventKind}
    (hn : nestStep t e₁ = some t') (hs₁ : w₁.stack = t ++ b₁) (hs₂ : w₂.stack = t ++ b₂)
    (hb : b₂.length ≤ b₁.length) (hd : w₁.maxDepth = w₂.maxDepth)
    (h : w₁.step e₁ = (w₁', .ok ())) :
    ∃ w₂', w₂.step e₂ = (w₂', .ok ()) ∧ w₁'.stack = t' ++ b₁ ∧ w₂'.stack = t' ++ b₂ ∧
      w₁'.events = w₁.events.push e₁ ∧ w₂'.events = w₂.events.push e₂ ∧
      w₁'.maxDepth = w₁.maxDepth ∧ w₂'.maxDepth = w₂.maxDepth := by
  by_cases hbeg : e₁.kind.isBegin = true
  · -- a begin event: the second writer, no deeper, has room too
    have hroom := room_of_step_begin hbeg (by rw [h])
    have hbeg₂ : e₂.kind.isBegin = true := hk ▸ hbeg
    have hroom₂ : w₂.stack.length < w₂.maxDepth := by
      rw [hs₁] at hroom
      rw [hs₂, ← hd]
      simp only [List.length_append] at hroom ⊢
      omega
    simp only [nestStep, hbeg, if_true, Option.some.injEq] at hn
    rw [step_begin hbeg hroom, Prod.mk.injEq] at h
    obtain ⟨rfl, -⟩ := h
    refine ⟨_, step_begin hbeg₂ hroom₂, ?_, ?_, rfl, rfl, rfl, rfl⟩
    · simp [← hn, hs₁]
    · simp [← hn, hs₂, hk]
  · have hbeg₂ : e₂.kind.isBegin = false := by rw [← hk]; simpa using hbeg
    by_cases hend : e₁.kind.isEnd = true
    · -- an end event closes a container the run opened, the same one in both writers
      have hend₂ : e₂.kind.isEnd = true := hk ▸ hend
      simp only [nestStep, hbeg, hend, Bool.false_eq_true, if_false, if_true] at hn
      cases t with
      | nil => cases hn
      | cons o rest =>
        simp only at hn
        split at hn
        · rename_i hc
          simp only [Option.some.injEq] at hn
          subst hn
          rw [step_close (by rw [hs₁]; rfl) hend hc, Prod.mk.injEq] at h
          obtain ⟨rfl, -⟩ := h
          exact ⟨_, step_close (by rw [hs₂]; rfl) hend₂ (hk ▸ hc), rfl, rfl, rfl, rfl, rfl, rfl⟩
        · cases hn
    · -- any other event is appended
      have hend₂ : e₂.kind.isEnd = false := by rw [← hk]; simpa using hend
      simp only [nestStep, hbeg, hend, Bool.false_eq_true, if_false, Option.some.injEq] at hn
      subst hn
      rw [step_leaf (by simpa using hbeg) (by simpa using hend), Prod.mk.injEq] at h
      obtain ⟨rfl, -⟩ := h
      exact ⟨_, step_leaf hbeg₂ hend₂, hs₁, hs₂, rfl, rfl, rfl, rfl⟩

end Writer

namespace Generate

open Run (Repeats)

/-- One event pushed on each side, of the same kind. -/
theorem push_repeat (c₁ c₂ : Context) {w₁ w₂ : Writer} {e₁ e₂ : Event} (hk : e₁.kind = e₂.kind)
    {t t' b₁ b₂ : List EventKind} (hn : nestStep t e₁ = some t') (hs₁ : w₁.stack = t ++ b₁)
    (hs₂ : w₂.stack = t ++ b₂) (hb : b₂.length ≤ b₁.length) (hd : w₁.maxDepth = w₂.maxDepth) :
    Repeats (fun v₁ v₂ => v₁.stack = t' ++ b₁ ∧ v₂.stack = t' ++ b₂ ∧
        v₁.events.toList = w₁.events.toList ++ [e₁] ∧
        v₂.events.toList = w₂.events.toList ++ [e₂] ∧
        v₁.maxDepth = w₁.maxDepth ∧ v₂.maxDepth = w₂.maxDepth)
      (push c₁ w₁ e₁) (push c₂ w₂ e₂) := by
  intro s v₁ s' h
  unfold push at h
  obtain ⟨hp, hs⟩ := stream_ok h
  obtain ⟨v₂, hstep, h₁, h₂, he₁, he₂, hd₁, hd₂⟩ :=
    Writer.step_repeat hk hn hs₁ hs₂ hb hd (Writer.push_ok_iff.1 hp)
  refine ⟨hs, v₂, ?_, h₁, h₂, by simp [he₁], by simp [he₂], hd₁, hd₂⟩
  have hp₂ : w₂.push e₂ = .ok v₂ := Writer.push_ok_iff.2 hstep
  simp only [push, Run.stream, Run.lift, Except.mapError, hp₂]
  rfl

/-- Runs of events pushed on each side, of the same kinds. -/
theorem pushes_repeat (c₁ c₂ : Context) : ∀ {L₁ L₂ : List Event} {t t' b₁ b₂ : List EventKind}
    {w₁ w₂ : Writer}, L₁.map (·.kind) = L₂.map (·.kind) → nestFrom t L₁ = some t' →
    w₁.stack = t ++ b₁ → w₂.stack = t ++ b₂ → b₂.length ≤ b₁.length →
    w₁.maxDepth = w₂.maxDepth →
    Repeats (fun v₁ v₂ => v₁.stack = t' ++ b₁ ∧ v₂.stack = t' ++ b₂ ∧
        v₁.events.toList = w₁.events.toList ++ L₁ ∧
        v₂.events.toList = w₂.events.toList ++ L₂ ∧
        v₁.maxDepth = w₁.maxDepth ∧ v₂.maxDepth = w₂.maxDepth)
      (L₁.foldlM (fun w e => push c₁ w e) w₁) (L₂.foldlM (fun w e => push c₂ w e) w₂)
  | [], [], t, t', b₁, b₂, w₁, w₂, _, hn, hs₁, hs₂, _, _ => by
    simp only [nestFrom, List.foldlM_nil, Option.pure_def, Option.some.injEq] at hn
    subst hn
    exact Repeats.pure ⟨hs₁, hs₂, by simp, by simp, rfl, rfl⟩
  | e₁ :: L₁, e₂ :: L₂, t, t', b₁, b₂, w₁, w₂, hk, hn, hs₁, hs₂, hb, hd => by
    simp only [List.map_cons, List.cons.injEq] at hk
    simp only [nestFrom, List.foldlM_cons] at hn
    cases hstep : nestStep t e₁ with
    | none => simp [hstep] at hn
    | some t₁ =>
      rw [hstep] at hn
      simp only [List.foldlM_cons]
      refine Repeats.bind (push_repeat c₁ c₂ hk.1 hstep hs₁ hs₂ hb hd) fun v₁ v₂ hv => ?_
      obtain ⟨hv₁, hv₂, he₁, he₂, hd₁, hd₂⟩ := hv
      refine (pushes_repeat c₁ c₂ hk.2 hn hv₁ hv₂ hb (by rw [hd₁, hd₂, hd])).mono ?_
      rintro u₁ u₂ ⟨hu₁, hu₂, hue₁, hue₂, hud₁, hud₂⟩
      exact ⟨hu₁, hu₂, by rw [hue₁, he₁, List.append_assoc, List.singleton_append],
        by rw [hue₂, he₂, List.append_assoc, List.singleton_append],
        hud₁.trans hd₁, hud₂.trans hd₂⟩

section Combinators

variable {c₁ c₂ : Context} {w₁ w₂ : Writer}

/-- Two writing parts in a row. -/
theorem seq_repeats {x₁ x₂ : Run Writer} {k₁ k₂ : Writer → Run Writer}
    (hx : Repeats (Writer.Grown w₁ w₂) x₁ x₂)
    (hk : ∀ v₁ v₂, Writer.Grown w₁ w₂ v₁ v₂ → Repeats (Writer.Grown v₁ v₂) (k₁ v₁) (k₂ v₂)) :
    Repeats (Writer.Grown w₁ w₂) (x₁ >>= k₁) (x₂ >>= k₂) :=
  Repeats.bind hx fun v₁ v₂ hv => (hk v₁ v₂ hv).mono fun _ _ h => hv.trans h

/-- Pushing nested events on both sides. -/
theorem pushes_grown (c₁ c₂ : Context) {L : List Event} (hL : Nested L)
    (h : Writer.Aligned w₁ w₂) :
    Repeats (Writer.Grown w₁ w₂) (L.foldlM (fun w e => push c₁ w e) w₁)
      (L.foldlM (fun w e => push c₂ w e) w₂) := by
  have hs₁ : w₁.stack = [] ++ w₁.stack := rfl
  have hs₂ : w₂.stack = [] ++ w₂.stack := rfl
  refine (pushes_repeat c₁ c₂ rfl hL hs₁ hs₂ h.depth h.maxDepth).mono ?_
  rintro v₁ v₂ ⟨hv₁, hv₂, he₁, he₂, hd₁, hd₂⟩
  exact ⟨L, hL, he₁, he₂, hv₁, hv₂, hd₁, hd₂⟩

/-- One event on each side, of the same kind, that neither opens nor closes a container. -/
theorem push_leaf_extended (c₁ c₂ : Context) {e₁ e₂ : Event} (hk : e₁.kind = e₂.kind)
    (hb : e₁.kind.isBegin = false) (he : e₁.kind.isEnd = false) (h : Writer.Aligned w₁ w₂) :
    Repeats (Writer.Extended [e₁] [e₂] w₁ w₂) (push c₁ w₁ e₁) (push c₂ w₂ e₂) := by
  have hn : nestStep [] e₁ = some [] := by simp [nestStep, hb, he]
  refine (push_repeat c₁ c₂ hk hn rfl rfl h.depth h.maxDepth).mono ?_
  rintro v₁ v₂ ⟨h₁, h₂, he₁, he₂, hd₁, hd₂⟩
  exact ⟨he₁, he₂, h₁, h₂, hd₁, hd₂⟩

/-- An event that neither opens nor closes a container. -/
theorem push_leaf_repeats (c₁ c₂ : Context) {e : Event} (hb : e.kind.isBegin = false)
    (he : e.kind.isEnd = false) (h : Writer.Aligned w₁ w₂) :
    Repeats (Writer.Grown w₁ w₂) (push c₁ w₁ e) (push c₂ w₂ e) :=
  (push_leaf_extended c₁ c₂ rfl hb he h).mono fun _ _ hx => ⟨[e], Nested.leaf hb he, hx⟩

/-- A begin event on each side, of the same kind, then nested events, then the end event that
closes it. -/
theorem bracket_repeats (c₁ c₂ : Context) {b₁ b₂ e : Event} (hk : b₁.kind = b₂.kind)
    (hb : b₁.kind.isBegin = true) (he : e.kind.isEnd = true)
    (hc : b₁.kind.complement = some e.kind) {inner₁ inner₂ : Writer → Run Writer}
    (hin : ∀ v₁ v₂, Writer.Aligned v₁ v₂ → Repeats (Writer.Grown v₁ v₂) (inner₁ v₁) (inner₂ v₂))
    (h : Writer.Aligned w₁ w₂) :
    Repeats (fun w₁' w₂' => ∃ D, Nested D ∧
        Writer.Extended (b₁ :: (D ++ [e])) (b₂ :: (D ++ [e])) w₁ w₂ w₁' w₂')
      (push c₁ w₁ b₁ >>= fun w => inner₁ w >>= fun w => push c₁ w e)
      (push c₂ w₂ b₂ >>= fun w => inner₂ w >>= fun w => push c₂ w e) := by
  have hopen : nestStep [] b₁ = some [b₁.kind] := by simp [nestStep, hb]
  have hclose : nestStep [b₁.kind] e = some [] := by
    simp [nestStep, EventKind.isBegin_false_of_isEnd he, he, hc]
  refine Repeats.bind (push_repeat c₁ c₂ hk hopen rfl rfl h.depth h.maxDepth) fun v₁ v₂ hv => ?_
  obtain ⟨hv₁, hv₂, hve₁, hve₂, hvd₁, hvd₂⟩ := hv
  have hal : Writer.Aligned v₁ v₂ := by
    refine ⟨by rw [hvd₁, hvd₂, h.maxDepth], ?_⟩
    rw [hv₁, hv₂]
    simpa using h.depth
  refine Repeats.bind (hin v₁ v₂ hal) fun u₁ u₂ hu => ?_
  obtain ⟨D, hD, hue⟩ := hu
  refine (push_repeat c₁ c₂ rfl hclose (by rw [hue.stack₁, hv₁]) (by rw [hue.stack₂, hv₂])
    h.depth (by rw [hue.maxDepth₁, hue.maxDepth₂, hvd₁, hvd₂, h.maxDepth])).mono ?_
  rintro x₁ x₂ ⟨hx₁, hx₂, hxe₁, hxe₂, hxd₁, hxd₂⟩
  refine ⟨D, hD, ⟨?_, ?_, hx₁, hx₂, ?_, ?_⟩⟩
  · rw [hxe₁, hue.events₁, hve₁]
    simp
  · rw [hxe₂, hue.events₂, hve₂]
    simp
  · rw [hxd₁, hue.maxDepth₁, hvd₁]
  · rw [hxd₂, hue.maxDepth₂, hvd₂]

/-- The same begin event on both sides. -/
theorem bracket_grown (c₁ c₂ : Context) {b e : Event} (hb : b.kind.isBegin = true)
    (he : e.kind.isEnd = true) (hc : b.kind.complement = some e.kind)
    {inner₁ inner₂ : Writer → Run Writer}
    (hin : ∀ v₁ v₂, Writer.Aligned v₁ v₂ → Repeats (Writer.Grown v₁ v₂) (inner₁ v₁) (inner₂ v₂))
    (h : Writer.Aligned w₁ w₂) :
    Repeats (Writer.Grown w₁ w₂)
      (push c₁ w₁ b >>= fun w => inner₁ w >>= fun w => push c₁ w e)
      (push c₂ w₂ b >>= fun w => inner₂ w >>= fun w => push c₂ w e) := by
  refine (bracket_repeats c₁ c₂ rfl hb he hc hin h).mono ?_
  rintro _ _ ⟨D, hD, hx⟩
  exact ⟨_, Nested.bracket hb he hc hD, hx⟩

/-- A fold whose every step, from aligned writers, grows them alike. -/
theorem foldlM_repeats {β : Type} {f₁ f₂ : Writer → β → Run Writer} :
    ∀ (l : List β), (∀ b ∈ l, ∀ v₁ v₂, Writer.Aligned v₁ v₂ →
      Repeats (Writer.Grown v₁ v₂) (f₁ v₁ b) (f₂ v₂ b)) →
    ∀ {w₁ w₂ : Writer}, Writer.Aligned w₁ w₂ →
      Repeats (Writer.Grown w₁ w₂) (l.foldlM f₁ w₁) (l.foldlM f₂ w₂)
  | [], _, w₁, w₂, _ => by
    simp only [List.foldlM_nil]
    exact Repeats.pure (Writer.Grown.refl _ _)
  | b :: l, hf, w₁, w₂, h => by
    simp only [List.foldlM_cons]
    refine seq_repeats (hf b List.mem_cons_self _ _ h) fun v₁ v₂ hv => ?_
    obtain ⟨D, -, hve⟩ := hv
    exact foldlM_repeats l (fun b hb => hf b (List.mem_cons_of_mem _ hb)) (hve.aligned h)

/-- A spliced view pushed on both sides, its first event renamed. -/
theorem splice_repeats (c₁ c₂ : Context) {V : List Event} (hV : Nested V) {name : Option String}
    {step₁ step₂ : Writer → Event × Nat → Run Writer}
    (h0₁ : ∀ w e, step₁ w (e, 0) = push c₁ w { e with name := name })
    (hs₁ : ∀ w e i, step₁ w (e, i + 1) = push c₁ w e)
    (h0₂ : ∀ w e, step₂ w (e, 0) = push c₂ w { e with name := name })
    (hs₂ : ∀ w e i, step₂ w (e, i + 1) = push c₂ w e) (h : Writer.Aligned w₁ w₂) :
    Repeats (Writer.Grown w₁ w₂) (V.zipIdx.foldlM step₁ w₁) (V.zipIdx.foldlM step₂ w₂) := by
  cases V with
  | nil => exact Repeats.pure (Writer.Grown.refl _ _)
  | cons e rest =>
    -- renaming keeps the kinds, so the renamed view nests as the view does
    have hV' : Nested ({ e with name := name } :: rest) := by
      unfold Nested at hV ⊢
      rw [← hV]
      exact nestFrom_congr_kinds rfl
    have hfold := pushes_grown c₁ c₂ hV' h
    simp only [List.foldlM_cons] at hfold
    simp only [List.zipIdx_cons, List.foldlM_cons, h0₁, h0₂]
    rw [funext fun w => RunsAlike.foldlM_zipIdx_succ c₁ hs₁ rest 0 w,
      funext fun w => RunsAlike.foldlM_zipIdx_succ c₂ hs₂ rest 0 w]
    exact hfold

end Combinators

end Generate

-- ============================================================ enough fuel

namespace Node

theorem size_eq (n : Node) :
    n.size = 1 + size.sizes n.children + size.spliceSize n.splice := by
  cases n
  rfl

theorem size_le_sizes {c : Node} {cs : List Node} (h : c ∈ cs) : c.size ≤ size.sizes cs := by
  induction cs with
  | nil => simp at h
  | cons d cs ih =>
    simp only [size.sizes]
    rcases List.mem_cons.1 h with rfl | h'
    · omega
    · have := ih h'
      omega

/-- The fuel generation needs to write a node: eight units for every node below it, spliced
templates included. -/
def emitNeed (n : Node) : Nat := 8 * n.size + 3

/-- The fuel generation needs to write the children of a node. -/
def bodyNeed (n : Node) : Nat := 8 * size.sizes n.children + 5

theorem bodyNeed_le_emitNeed (n : Node) : n.bodyNeed + 3 ≤ n.emitNeed := by
  simp only [bodyNeed, emitNeed, size_eq n]
  omega

theorem emitNeed_le_bodyNeed {n c : Node} (hc : c ∈ n.children) : c.emitNeed + 2 ≤ n.bodyNeed := by
  have := size_le_sizes hc
  simp only [bodyNeed, emitNeed]
  omega

theorem emitNeed_spliced {n r : Node} {p : Option String} (hs : n.splice = some (r, p)) :
    r.emitNeed + 3 ≤ n.emitNeed := by
  simp only [emitNeed, size_eq n, hs, size.spliceSize]
  omega

end Node

namespace Generate

open Run (Repeats)

/-- Generation at one fuel, repeated with enough fuel in a context alike but for its frames, from
a writer no deeper. The children of a node are written as those of any node with the same
children. -/
structure RepeatsAt (fuel : Nat) : Prop where
  template : ∀ {c₁ c₂ : Context} {f₂ : Nat} (root : Node) (model : Value), c₁.Alike c₂ →
    root.emitNeed + 2 ≤ f₂ →
    Repeats (fun V₁ V₂ : View => V₁ = V₂ ∧ Nested V₁.toList) (template fuel c₁ root model)
      (template f₂ c₂ root model)
  rootPart : ∀ {c₁ c₂ : Context} {f₂ : Nat} (root : Node) (model : Value) {w₁ w₂ : Writer},
    c₁.Alike c₂ → root.emitNeed + 1 ≤ f₂ → Writer.Aligned w₁ w₂ →
    Repeats (Writer.Grown w₁ w₂) (rootPart fuel c₁ root model w₁) (rootPart f₂ c₂ root model w₂)
  child : ∀ {c₁ c₂ : Context} {f₂ : Nat} (n : Node) (owner : Value) {w₁ w₂ : Writer},
    c₁.Alike c₂ → n.emitNeed + 1 ≤ f₂ → Writer.Aligned w₁ w₂ →
    Repeats (Writer.Grown w₁ w₂) (child fuel c₁ n owner w₁) (child f₂ c₂ n owner w₂)
  body : ∀ {c₁ c₂ : Context} {f₂ : Nat} (n₁ n₂ : Node) (model : Value) {w₁ w₂ : Writer},
    c₁.Alike c₂ → n₁.children = n₂.children → n₂.bodyNeed ≤ f₂ → Writer.Aligned w₁ w₂ →
    Repeats (Writer.Grown w₁ w₂) (body fuel c₁ n₁ model w₁) (body f₂ c₂ n₂ model w₂)
  emit : ∀ {c₁ c₂ : Context} {f₂ : Nat} (n : Node) (owner : Value) {w₁ w₂ : Writer},
    c₁.Alike c₂ → n.emitNeed ≤ f₂ → Writer.Aligned w₁ w₂ →
    Repeats (Writer.Grown w₁ w₂) (emit fuel c₁ n owner w₁) (emit f₂ c₂ n owner w₂)
  associate : ∀ {c₁ c₂ : Context} {f₂ : Nat} (n : Node) (name : Option String) (v : Value)
    {w₁ w₂ : Writer}, c₁.Alike c₂ → n.bodyNeed + 1 ≤ f₂ → Writer.Aligned w₁ w₂ →
    Repeats (Writer.Grown w₁ w₂) (associate fuel c₁ n name v w₁) (associate f₂ c₂ n name v w₂)
  element : ∀ {c₁ c₂ : Context} {f₂ : Nat} (n : Node) (name : Option String) (v : Value)
    {w₁ w₂ : Writer}, c₁.Alike c₂ → n.bodyNeed + 2 ≤ f₂ → Writer.Aligned w₁ w₂ →
    Repeats (Writer.Grown w₁ w₂) (element fuel c₁ n name v w₁) (element f₂ c₂ n name v w₂)

theorem repeatsAt_zero : RepeatsAt 0 := by
  constructor <;> intros <;>
    simp only [template, rootPart, child, body, emit, associate, element, exhausted] <;>
    exact Repeats.fail _ _

theorem Writer.Grown.aligned {w₁ w₂ w₁' w₂' : Writer} (h : Writer.Aligned w₁ w₂)
    (hg : Writer.Grown w₁ w₂ w₁' w₂') : Writer.Aligned w₁' w₂' := by
  obtain ⟨D, -, he⟩ := hg
  exact he.aligned h

/-- Two views finished from empty writers grown alike are the same nested view. -/
theorem finish_repeats (c₁ c₂ : Context) {w₁ w₂ w₁' w₂' : Writer} (h : Writer.Grown w₁ w₂ w₁' w₂')
    (he₁ : w₁.events = #[]) (he₂ : w₂.events = #[]) (hs₁ : w₁.stack = []) (hs₂ : w₂.stack = []) :
    Repeats (fun V₁ V₂ : View => V₁ = V₂ ∧ Nested V₁.toList) (Run.stream c₁ w₁'.finish)
      (Run.stream c₂ w₂'.finish) := by
  obtain ⟨D, hD, hx⟩ := h
  have hf₁ : w₁'.finish = .ok w₁'.events := by simp [Writer.finish, hx.stack₁, hs₁]
  have hf₂ : w₂'.finish = .ok w₂'.events := by simp [Writer.finish, hx.stack₂, hs₂]
  have hv₁ : w₁'.events.toList = D := by simp [hx.events₁, he₁]
  have hv₂ : w₂'.events.toList = D := by simp [hx.events₂, he₂]
  simp only [hf₁, hf₂, Run.stream, Run.lift, Except.mapError]
  exact Repeats.pure ⟨Array.toList_inj.1 (hv₁.trans hv₂.symm), hv₁ ▸ hD⟩

section Steps

variable {fuel : Nat} {c₁ c₂ : Context} {f₂ : Nat} {w₁ w₂ : Writer}

theorem rootPart_repeats (ih : RepeatsAt fuel) (root : Node) (model : Value) (hc : c₁.Alike c₂)
    (hf : root.emitNeed + 1 ≤ f₂) (hw : Writer.Aligned w₁ w₂) :
    Repeats (Writer.Grown w₁ w₂) (rootPart (fuel + 1) c₁ root model w₁)
      (rootPart f₂ c₂ root model w₂) := by
  obtain ⟨g, rfl⟩ := Nat.exists_eq_add_one_of_ne_zero (by omega : f₂ ≠ 0)
  have hc' := hc.push { modelType := root.modelType, model } { modelType := root.modelType, model }
  simp only [rootPart, Context.nodeVisited_quiet hc'.quiet, Context.nodeVisited_quiet hc'.quiet₂,
    pure_bind, bind_pure]
  exact ih.emit root model hc' (by omega) hw

theorem template_repeats (ih : RepeatsAt fuel) (root : Node) (model : Value) (hc : c₁.Alike c₂)
    (hf : root.emitNeed + 2 ≤ f₂) :
    Repeats (fun V₁ V₂ : View => V₁ = V₂ ∧ Nested V₁.toList) (template (fuel + 1) c₁ root model)
      (template f₂ c₂ root model) := by
  obtain ⟨g, rfl⟩ := Nat.exists_eq_add_one_of_ne_zero (by omega : f₂ ≠ 0)
  simp only [template]
  -- the root's part from empty writers with the same limit, then the check that all is closed
  have hrest : Repeats (fun V₁ V₂ : View => V₁ = V₂ ∧ Nested V₁.toList)
      (rootPart fuel c₁ root model { maxDepth := c₁.options.maxDepth } >>=
        fun w => Run.stream c₁ w.finish)
      (rootPart g c₂ root model { maxDepth := c₂.options.maxDepth } >>=
        fun w => Run.stream c₂ w.finish) :=
    Repeats.bind (ih.rootPart root model hc (by omega) ⟨by simp [hc.options], le_refl _⟩)
      fun _ _ hv => finish_repeats c₁ c₂ hv rfl rfl rfl rfl
  cases model
  case object h =>
    cases root.modelType with
    | none => exact hrest
    | some t =>
      refine Repeats.bind_eq Repeats.store fun st => Repeats.ite (fun _ => ?_) fun _ => hrest
      exact Repeats.bind_eq (Repeats.fail _ _) fun _ => hrest
  all_goals exact hrest

theorem child_repeats (ih : RepeatsAt fuel) (n : Node) (owner : Value) (hc : c₁.Alike c₂)
    (hf : n.emitNeed + 1 ≤ f₂) (hw : Writer.Aligned w₁ w₂) :
    Repeats (Writer.Grown w₁ w₂) (child (fuel + 1) c₁ n owner w₁) (child f₂ c₂ n owner w₂) := by
  obtain ⟨g, rfl⟩ := Nat.exists_eq_add_one_of_ne_zero (by omega : f₂ ≠ 0)
  have hc' := hc.push { name := n.name, modelType := n.modelType, model := owner }
    { name := n.name, modelType := n.modelType, model := owner }
  -- no listener vetoes the visit
  simp only [child, Context.shouldVisit_quiet hc'.quiet, Context.shouldVisit_quiet hc'.quiet₂,
    Context.nodeVisited_quiet hc'.quiet, Context.nodeVisited_quiet hc'.quiet₂, pure_bind,
    bind_pure, Bool.not_true, Bool.false_eq_true, if_false]
  exact Repeats.ite (fun _ => Repeats.pure (Writer.Grown.refl _ _))
    fun _ => ih.emit n owner hc' (by omega) hw

theorem body_repeats (ih : RepeatsAt fuel) (n₁ n₂ : Node) (model : Value) (hc : c₁.Alike c₂)
    (hn : n₁.children = n₂.children) (hf : n₂.bodyNeed ≤ f₂) (hw : Writer.Aligned w₁ w₂) :
    Repeats (Writer.Grown w₁ w₂) (body (fuel + 1) c₁ n₁ model w₁) (body f₂ c₂ n₂ model w₂) := by
  obtain ⟨g, rfl⟩ := Nat.exists_eq_add_one_of_ne_zero
    (by unfold Node.bodyNeed at hf; omega : f₂ ≠ 0)
  simp only [body, hn]
  refine foldlM_repeats n₂.children (fun c hmem v₁ v₂ hv => ?_) hw
  have := Node.emitNeed_le_bodyNeed hmem
  exact ih.child c model hc (by omega) hv

theorem associate_repeats (ih : RepeatsAt fuel) (n : Node) (name : Option String) (v : Value)
    (hc : c₁.Alike c₂) (hf : n.bodyNeed + 1 ≤ f₂) (hw : Writer.Aligned w₁ w₂) :
    Repeats (Writer.Grown w₁ w₂) (associate (fuel + 1) c₁ n name v w₁)
      (associate f₂ c₂ n name v w₂) := by
  obtain ⟨g, rfl⟩ := Nat.exists_eq_add_one_of_ne_zero (by omega : f₂ ≠ 0)
  simp only [associate]
  cases v
  case object h =>
    exact bracket_grown c₁ c₂ rfl rfl rfl
      (fun _ _ hv => ih.body n n (.object h) hc rfl (by omega) hv) hw
  all_goals
    exact Repeats.ite (fun _ => push_leaf_repeats c₁ c₂ rfl rfl hw) fun _ => Repeats.fail _ _

theorem element_repeats (ih : RepeatsAt fuel) (n : Node) (name : Option String) (v : Value)
    (hc : c₁.Alike c₂) (hf : n.bodyNeed + 2 ≤ f₂) (hw : Writer.Aligned w₁ w₂) :
    Repeats (Writer.Grown w₁ w₂) (element (fuel + 1) c₁ n name v w₁)
      (element f₂ c₂ n name v w₂) := by
  obtain ⟨g, rfl⟩ := Nat.exists_eq_add_one_of_ne_zero (by omega : f₂ ≠ 0)
  simp only [element]
  refine Repeats.ite (fun _ => ih.associate n name v hc (by omega) hw) fun _ => ?_
  cases v
  case scalar x =>
    exact Repeats.bind_eq (elementToView_repeats hc n x) fun _ =>
      push_leaf_repeats c₁ c₂ rfl rfl hw
  all_goals exact Repeats.fail _ _

theorem emit_repeats (ih : RepeatsAt fuel) (n : Node) (owner : Value) (hc : c₁.Alike c₂)
    (hf : n.emitNeed ≤ f₂) (hw : Writer.Aligned w₁ w₂) :
    Repeats (Writer.Grown w₁ w₂) (emit (fuel + 1) c₁ n owner w₁) (emit f₂ c₂ n owner w₂) := by
  obtain ⟨g, rfl⟩ := Nat.exists_eq_add_one_of_ne_zero
    (by unfold Node.emitNeed at hf; omega : f₂ ≠ 0)
  have hb := n.bodyNeed_le_emitNeed
  simp only [emit, Context.didExtractValue_quiet hc.quiet, Context.didExtractValue_quiet hc.quiet₂,
    hc.options]
  cases hk : n.kind <;> dsimp only
  case value =>
    refine Repeats.bind_eq (accessorOf_repeats c₁ c₂ n) fun a =>
      Repeats.bind_eq (Repeats.access c₁ c₂ (a.reads_get owner)) fun raw => ?_
    -- the converted scalar, written unless it is a null the options omit
    have write : ∀ v : Scalar, Repeats (Writer.Grown w₁ w₂)
        (if (v.isNull && c₂.options.omitNulls) = true then Pure.pure w₁
          else push c₁ w₁ (nodeEvent n .value (some v)))
        (if (v.isNull && c₂.options.omitNulls) = true then Pure.pure w₂
          else push c₂ w₂ (nodeEvent n .value (some v))) := fun _ =>
      Repeats.ite (fun _ => Repeats.pure (Writer.Grown.refl _ _))
        fun _ => push_leaf_repeats c₁ c₂ rfl rfl hw
    cases raw <;> dsimp only
    case scalar x =>
      refine Repeats.ite (fun _ => ?_) fun _ => Repeats.bind_eq (elementToView_repeats hc n x) write
      simpa only [pure_bind] using write x
    all_goals exact Repeats.fail _ _
  case object | reference =>
    exact Repeats.bind_eq (accessorOf_repeats c₁ c₂ n) fun a =>
      Repeats.bind_eq (Repeats.access c₁ c₂ (a.reads_get owner)) fun v =>
      ih.associate n n.name v hc (by omega) hw
  case arrayOfObjects | arrayOfValues =>
    refine Repeats.bind_eq (accessorOf_repeats c₁ c₂ n) fun a =>
      Repeats.bind_eq (Repeats.access c₁ c₂ (a.reads_get owner)) fun current => ?_
    refine Repeats.ite (fun _ => push_leaf_repeats c₁ c₂ rfl rfl hw) fun _ => ?_
    refine Repeats.bind_eq (multiOf_repeats c₁ c₂ n) fun m =>
      Repeats.bind_eq (Repeats.access c₁ c₂ (Multi.reads_iterate owner m)) fun elements => ?_
    -- the elements between the begin and the end of the array
    refine bracket_grown c₁ c₂ rfl rfl rfl (fun v₁ v₂ hv => ?_) hw
    refine foldlM_repeats _ (fun x _ u₁ u₂ hu => ?_) hv
    exact ih.element n none x.1 (hc.push _ _) (by omega) hu
  case mapOfObjects | mapOfValues =>
    refine Repeats.bind_eq (accessorOf_repeats c₁ c₂ n) fun a =>
      Repeats.bind_eq (Repeats.access c₁ c₂ (a.reads_get owner)) fun current => ?_
    refine Repeats.ite (fun _ => push_leaf_repeats c₁ c₂ rfl rfl hw) fun _ => ?_
    refine Repeats.bind_eq (multiOf_repeats c₁ c₂ n) fun m =>
      Repeats.bind_eq (Repeats.access c₁ c₂ (Multi.reads_entries owner m)) fun entries => ?_
    refine Repeats.ite (fun _ => ?_) fun _ => ?_
    · -- an object with one property per key
      refine bracket_grown c₁ c₂ rfl rfl rfl (fun v₁ v₂ hv => ?_) hw
      refine foldlM_repeats _ (fun x _ u₁ u₂ hu => ?_) hv
      exact Repeats.bind_eq (keyToView_repeats (hc.push _ _) n x.1) fun _ =>
        ih.element n _ x.2 (hc.push _ _) (by omega) hu
    · -- an array of key and value objects
      refine bracket_grown c₁ c₂ rfl rfl rfl (fun v₁ v₂ hv => ?_) hw
      refine foldlM_repeats _ (fun x _ u₁ u₂ hu => ?_) hv
      let F : Frame := { Frame.keyed x.1 n.modelType with model := x.2 }
      refine Repeats.bind_eq (keyToView_repeats (hc.push F F) n x.1) fun key => ?_
      -- the key and the value between the begin and the end of the entry
      have hentry := bracket_grown (c₁.push F) (c₂.push F) (b := Event.beginObject none)
        (e := Event.endObject) rfl rfl rfl (fun y₁ y₂ hy =>
          seq_repeats (push_leaf_repeats (c₁.push F) (c₂.push F)
              (e := Event.valueOf (some "key") none key) rfl rfl hy)
            fun z₁ z₂ hz => ih.element n (some "value") x.2 (hc.push F F)
              (show n.bodyNeed + 2 ≤ g by omega) (Writer.Grown.aligned hy hz)) hu
      simpa only [bind_assoc] using hentry
  case envelope =>
    exact bracket_grown c₁ c₂ rfl rfl rfl
      (fun _ _ hv => ih.body n n owner hc rfl (by omega) hv) hw
  case subtype =>
    -- the children, for an instance of the branch's type
    cases owner
    case object h =>
      cases n.modelType with
      | none => exact Repeats.pure (Writer.Grown.refl _ _)
      | some t =>
        exact Repeats.bind_eq Repeats.store fun _ =>
          Repeats.ite (fun _ => ih.body n n _ hc rfl (by omega) hw)
            fun _ => Repeats.pure (Writer.Grown.refl _ _)
    all_goals exact Repeats.pure (Writer.Grown.refl _ _)
  case discriminator =>
    cases owner
    case object h =>
      cases n.info.discriminator with
      | none => exact Repeats.pure (Writer.Grown.refl _ _)
      | some st => exact Repeats.bind_eq Repeats.store fun _ => push_leaf_repeats c₁ c₂ rfl rfl hw
    all_goals exact Repeats.pure (Writer.Grown.refl _ _)
  case metadata =>
    cases n.info.metaHandler with
    | none => exact Repeats.pure (Writer.Grown.refl _ _)
    | some m =>
      exact Repeats.bind_eq Repeats.store fun _ => Repeats.bind_eq (Repeats.lift _ _ _) fun _ =>
        push_leaf_repeats c₁ c₂ rfl rfl hw
  case splice =>
    cases hs : n.splice with
    | none => exact Repeats.pure (Writer.Grown.refl _ _)
    | some rp =>
      obtain ⟨r, p⟩ := rp
      dsimp only
      have hr := Node.emitNeed_spliced hs
      refine Repeats.bind_eq (spliceTarget_repeats c₁ c₂ p owner) fun target => ?_
      by_cases ht : target.isNull = true
      · -- a null target: one null event, renamed
        simp only [ht, if_true, pure_bind]
        exact splice_repeats c₁ c₂ (Nested.leaf rfl rfl) (fun _ _ => rfl) (fun _ _ _ => rfl)
          (fun _ _ => rfl) (fun _ _ _ => rfl) hw
      · -- the spliced view, generated again in the other context
        simp only [ht, Bool.false_eq_true, if_false]
        refine Repeats.bind (ih.template r target hc (by omega)) fun V₁ V₂ hV => ?_
        obtain ⟨rfl, hn⟩ := hV
        exact splice_repeats c₁ c₂ hn (fun _ _ => rfl) (fun _ _ _ => rfl) (fun _ _ => rfl)
          (fun _ _ _ => rfl) hw

end Steps

/-- Every generation function, at every fuel, is repeated with enough fuel. -/
theorem repeatsAt : ∀ fuel, RepeatsAt fuel
  | 0 => repeatsAt_zero
  | fuel + 1 =>
    have ih := repeatsAt fuel
    ⟨template_repeats ih, fun root model => rootPart_repeats ih root model,
      fun n owner => child_repeats ih n owner, fun n₁ n₂ model => body_repeats ih n₁ n₂ model,
      fun n owner => emit_repeats ih n owner, fun n name v => associate_repeats ih n name v,
      fun n name v => element_repeats ih n name v⟩

end Generate

end GraphViews

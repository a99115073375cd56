import Mathlib
import GraphViews.Event.Stream
/-!
Well-nested views, and the two checks that accept them.

# Views as forests

A well-nested view is the events of a forest (`ViewTree`): each tree is an event that opens
nothing, or a container, whose begin event is closed by the end event of its family with
trees in between. A forest fits `d` levels when no container of it lies inside `d` others, so
that no prefix of its events has more than `d` containers open. Each event of a forest is read
inside the begin events of the containers around it (`ViewTree.placed`); an end event is read
inside the container it closes. The namespace an event inherits is its own, else that of the
nearest of those begin events that has one (`inheritedNamespace`).

# Main statements

* `Writer.closes_split`: a writer that goes on to close a container it has open reads, up to
  that end, a forest that fits the room left.
* `Writer.wellNested_of_closes`: what a fresh writer accepts and closes is well nested.
* `Reading.drain_tree`: the reader consumes a tree with room for it, leaves its stack as it
  was, and gives every event the namespace it inherits.
* `Reading.drain_mirrors`: the reader and the writer, started alike, stop at the same event
  with the same error, or both accept.
* `writeAll_endAlike`: a whole written view and a whole read view end alike (`EndAlike`).
* `views_checked_alike`: a fresh writer and a fresh reader accept exactly the well-nested
  views, fail alike on every other view, and on a well-nested view the reader gives each event
  the namespace it inherits.

# How the proofs go

The reader is simulated by the writer (`Mirrors`): after the same events, the writer has
recorded what the reader consumed and both keep the same containers open, so every step of the
reader fails exactly when the writer's step does. Accepted views are forests by a split at the
end that closes a container (`Writer.closes_split`, by strong induction on the events left);
forests are read by mutual recursion over the trees (`Reading.drain_tree`), with the invariant
that the reader's stack is the one the begin events around the tree give (`openStack`).
-/

namespace GraphViews

-- ============================================================ views as forests

namespace EventKind

/-- No kind both begins and ends a container. -/
theorem isBegin_false_of_isEnd {k : EventKind} (h : k.isEnd = true) : k.isBegin = false := by
  revert h
  cases k <;> simp [isBegin, isEnd]

/-- The kind that closes a begin is an end. -/
theorem isEnd_of_complement {k k' : EventKind} (hb : k.isBegin = true)
    (hc : k.complement = some k') : k'.isEnd = true := by
  revert hb hc
  cases k <;> cases k' <;> simp [isBegin, complement, isEnd]

end EventKind

/-- The shape of a well-nested view: an event that opens nothing, or a container with the
trees inside it between its begin and end events. -/
inductive ViewTree where
  | leaf (e : Event)
  | node (b : Event) (body : List ViewTree) (e : Event)
deriving Inhabited

namespace ViewTree

mutual

/-- The events of a tree, in order. -/
def events : ViewTree → List Event
  | leaf e => [e]
  | node b body e => b :: eventsOf body ++ [e]

/-- The events of a forest, in order. -/
def eventsOf : List ViewTree → List Event
  | [] => []
  | t :: ts => events t ++ eventsOf ts

end

mutual

/-- The number of containers of a tree nested in one another at its deepest point. -/
def depth : ViewTree → Nat
  | leaf _ => 0
  | node _ body _ => depthOf body + 1

/-- The depth of the deepest tree of a forest. -/
def depthOf : List ViewTree → Nat
  | [] => 0
  | t :: ts => max (depth t) (depthOf ts)

end

mutual

/-- A leaf opens and closes nothing; a container is a begin event closed by the end event of
its family. -/
def WellFormed : ViewTree → Prop
  | leaf e => e.kind.isBegin = false ∧ e.kind.isEnd = false
  | node b body e =>
    b.kind.isBegin = true ∧ b.kind.complement = some e.kind ∧ AllWellFormed body

/-- Every tree of a forest is well formed. -/
def AllWellFormed : List ViewTree → Prop
  | [] => True
  | t :: ts => WellFormed t ∧ AllWellFormed ts

end

mutual

/-- Each event of a tree with the begin events of the containers it is read in, innermost
first; `around` are the containers around the tree. -/
def placed (around : List Event) : ViewTree → List (Event × List Event)
  | leaf e => [(e, around)]
  | node b body e => (b, around) :: placedOf (b :: around) body ++ [(e, b :: around)]

/-- The events of a forest, each with the containers it is read in. -/
def placedOf (around : List Event) : List ViewTree → List (Event × List Event)
  | [] => []
  | t :: ts => placed around t ++ placedOf around ts

end

@[simp] theorem eventsOf_nil : eventsOf [] = [] := by simp [eventsOf]

@[simp] theorem eventsOf_cons (t : ViewTree) (ts : List ViewTree) :
    eventsOf (t :: ts) = t.events ++ eventsOf ts := by simp [eventsOf]

@[simp] theorem allWellFormed_cons (t : ViewTree) (ts : List ViewTree) :
    AllWellFormed (t :: ts) ↔ t.WellFormed ∧ AllWellFormed ts := by simp [AllWellFormed]

@[simp] theorem depthOf_nil : depthOf [] = 0 := by simp [depthOf]

@[simp] theorem depthOf_cons (t : ViewTree) (ts : List ViewTree) :
    depthOf (t :: ts) = max t.depth (depthOf ts) := by simp [depthOf]

@[simp] theorem placedOf_nil (around : List Event) : placedOf around [] = [] := by
  simp [placedOf]

@[simp] theorem placedOf_cons (around : List Event) (t : ViewTree) (ts : List ViewTree) :
    placedOf around (t :: ts) = t.placed around ++ placedOf around ts := by simp [placedOf]

end ViewTree

/-- A view is well nested within `d` levels when it is the events of a forest of well-formed
trees at most `d` deep. -/
def WellNested (d : Nat) (s : List Event) : Prop :=
  ∃ ts : List ViewTree, ViewTree.AllWellFormed ts ∧ ViewTree.depthOf ts ≤ d ∧
    ViewTree.eventsOf ts = s

/-- The namespace an event inherits, read inside the begin events `around` (innermost first):
its own, else that of the nearest of them that has one. -/
def inheritedNamespace (e : Event) (around : List Event) : Option String :=
  e.ns.orElse fun _ => around.findSome? Event.ns

-- ============================================================ whole runs

namespace Writer

/-- Pushes events in order and stops at the first one refused: the writer then, and whether
every event was accepted. -/
def pushAll (w : Writer) : List Event → Writer × Except StreamError Unit
  | [] => (w, .ok ())
  | e :: es =>
    match w.step e with
    | (w', .ok ()) => w'.pushAll es
    | (w', .error err) => (w', .error err)

/-- A whole view written by a fresh writer with a nesting limit: every event pushed, then the
writer finished. -/
def writeAll (d : Nat) (s : List Event) : Writer × Except StreamError View :=
  match ({ maxDepth := d } : Writer).pushAll s with
  | (w, .ok ()) => (w, w.finish)
  | (w, .error err) => (w, .error err)

end Writer

/-- A fresh reader of a view with a nesting limit. -/
def Cursor.start (d : Nat) (s : List Event) : Cursor := { events := s.toArray, maxDepth := d }

@[simp] theorem Cursor.start_events (d : Nat) (s : List Event) :
    (Cursor.start d s).events = s.toArray := rfl

@[simp] theorem Cursor.start_pos (d : Nat) (s : List Event) : (Cursor.start d s).pos = 0 := rfl

@[simp] theorem Cursor.start_stack (d : Nat) (s : List Event) : (Cursor.start d s).stack = [] :=
  rfl

namespace Reading

/-- Consumes events until the view is exhausted, at most `fuel` of them, collecting for each
the namespace it has where it is read. -/
def drain : Nat → Reading (List (Option String))
  | 0 => pure []
  | fuel + 1 => do
    let c ← get
    match c.peek with
    | none => pure []
    | some e =>
      let ns := c.effectiveNamespace e
      let _ ← Reading.next "event"
      return ns :: (← drain fuel)

/-- A whole view read: every event consumed, then the reader finished. -/
def readAll : Reading (List (Option String)) := do
  let c ← get
  let ns ← drain (c.events.size - c.pos)
  Reading.finish
  return ns

end Reading

-- ============================================================ the writer

namespace Writer

variable {w : Writer} {e : Event}

theorem step_leaf (hb : e.kind.isBegin = false) (he : e.kind.isEnd = false) :
    w.step e = ({ w with events := w.events.push e }, .ok ()) := by
  simp [step, hb, he]

theorem step_begin (hb : e.kind.isBegin = true) (hroom : w.stack.length < w.maxDepth) :
    w.step e = ({ w with events := w.events.push e, stack := e.kind :: w.stack }, .ok ()) := by
  simp [step, hb, Nat.not_le.mpr hroom]

theorem step_begin_full (hb : e.kind.isBegin = true) (hfull : w.maxDepth ≤ w.stack.length) :
    w.step e = (w, .error (.depthExceeded w.maxDepth)) := by
  simp [step, hb, hfull]

/-- An end event that closes the innermost container. -/
theorem step_close {o : EventKind} {rest : List EventKind} (hs : w.stack = o :: rest)
    (he : e.kind.isEnd = true) (hc : o.complement = some e.kind) :
    w.step e = ({ w with events := w.events.push e, stack := rest }, .ok ()) := by
  simp [step, EventKind.isBegin_false_of_isEnd he, he, hs, hc]

/-- A begin event the writer accepts found room under its limit. -/
theorem room_of_step_begin (hb : e.kind.isBegin = true) (h : (w.step e).2 = .ok ()) :
    w.stack.length < w.maxDepth := by
  refine Nat.lt_of_not_le fun hfull => ?_
  rw [step_begin_full hb hfull] at h
  cases h

/-- An end event the writer accepts closes the innermost container: every other end event is
refused, with nothing open or after popping a container it does not close. -/
theorem closes_of_step_end (he : e.kind.isEnd = true) (h : (w.step e).2 = .ok ()) :
    ∃ o rest, w.stack = o :: rest ∧ o.complement = some e.kind := by
  have hb := EventKind.isBegin_false_of_isEnd he
  cases hs : w.stack with
  | nil => simp [step, hb, he, hs] at h
  | cons o rest =>
    refine ⟨o, rest, rfl, Classical.byContradiction fun hc => ?_⟩
    simp [step, hb, he, hs, hc] at h

theorem pushAll_cons_ok {w' : Writer} (es : List Event) (h : w.step e = (w', .ok ())) :
    w.pushAll (e :: es) = w'.pushAll es := by
  simp [pushAll, h]

theorem pushAll_cons_error {w' : Writer} {err : StreamError} (es : List Event)
    (h : w.step e = (w', .error err)) : w.pushAll (e :: es) = (w', .error err) := by
  simp [pushAll, h]

/-- A step the run went past was accepted. -/
theorem step_ok_of_pushAll (es : List Event) (h : (w.pushAll (e :: es)).2 = .ok ()) :
    (w.step e).2 = .ok () := by
  rcases hs : w.step e with ⟨w', r⟩
  cases r with
  | ok u => rfl
  | error err => rw [pushAll_cons_error es hs] at h; cases h

/-- The events after a split point are fewer than those it split. -/
theorem length_rest_lt {s rest : List Event} {inner : List ViewTree} {e : Event} {n : Nat}
    (h : s = ViewTree.eventsOf inner ++ e :: rest) (hn : s.length < n) : rest.length < n := by
  subst h
  simp only [List.length_append, List.length_cons] at hn
  omega

/-- **Split at the closing end.** A writer with `o` open that accepts a view and ends with
nothing open reads, before the end event that closes `o`, a forest that fits the room left
inside `o`; the run then goes on from the containers outside `o`. -/
theorem closes_split : ∀ (n : Nat) (s : List Event) (w : Writer) (o : EventKind)
    (k : List EventKind), s.length < n → w.stack = o :: k → w.stack.length ≤ w.maxDepth →
    (w.pushAll s).2 = .ok () → (w.pushAll s).1.stack = [] →
    ∃ (inner : List ViewTree) (e : Event) (rest : List Event) (w₂ : Writer),
      s = ViewTree.eventsOf inner ++ e :: rest ∧ ViewTree.AllWellFormed inner ∧
      ViewTree.depthOf inner + w.stack.length ≤ w.maxDepth ∧ o.complement = some e.kind ∧
      w₂.stack = k ∧ w₂.maxDepth = w.maxDepth ∧ w₂.pushAll rest = w.pushAll s
  | 0, _, _, _, _, hn, _, _, _, _ => absurd hn (Nat.not_lt_zero _)
  | _ + 1, [], w, o, k, _, hw, _, _, hnil => by simp [pushAll, hw] at hnil
  | n + 1, a :: s, w, o, k, hn, hw, hfit, hok, hnil => by
    have hstep := step_ok_of_pushAll s hok
    have hs : s.length < n := by simp at hn; omega
    by_cases hb : a.kind.isBegin = true
    · -- a begin opens a container inside `o`; it closes first, then `o` does
      have hroom := room_of_step_begin hb hstep
      have h1 := step_begin hb hroom
      rw [pushAll_cons_ok s h1] at hok hnil ⊢
      obtain ⟨inner₁, e₁, rest₁, w₂, hs₁, hwf₁, hd₁, hc₁, hk₂, hm₂, hp₂⟩ :=
        closes_split n s _ a.kind (o :: k) hs (by simp [hw]) (by simp; omega) hok hnil
      have hr₁ := length_rest_lt hs₁ hs
      rw [← hp₂] at hok hnil
      obtain ⟨inner₂, e₂, rest₂, w₃, hs₂, hwf₂, hd₂, hc₂, hk₃, hm₃, hp₃⟩ :=
        closes_split n rest₁ w₂ o k hr₁ hk₂ (by simp [hk₂, hm₂, ← hw]; omega) hok hnil
      refine ⟨.node a inner₁ e₁ :: inner₂, e₂, rest₂, w₃, ?_, ?_, ?_, hc₂, hk₃, ?_, ?_⟩
      · simp [hs₁, hs₂, ViewTree.events]
      · simp [ViewTree.WellFormed, hb, hc₁, hwf₁, hwf₂]
      · simp only [ViewTree.depthOf_cons, ViewTree.depth] at hd₁ hd₂ ⊢
        simp only [hk₂, hm₂, hw, List.length_cons] at hd₁ hd₂ ⊢
        omega
      · rw [hm₃, hm₂]
      · rw [hp₃, hp₂]
    · by_cases he : a.kind.isEnd = true
      · -- an end event must close `o` itself: the forest before it is empty
        obtain ⟨o', k', hw', hc⟩ := closes_of_step_end he hstep
        rw [hw, List.cons.injEq] at hw'
        obtain ⟨rfl, rfl⟩ := hw'
        have h1 := step_close hw he hc
        refine ⟨[], a, s, { w with events := w.events.push a, stack := k }, by simp, trivial,
          by simpa using hfit, hc, rfl, rfl, (pushAll_cons_ok s h1).symm⟩
      · -- a leaf joins the forest in front
        have h1 := step_leaf (w := w) (Bool.eq_false_iff.mpr hb) (Bool.eq_false_iff.mpr he)
        rw [pushAll_cons_ok s h1] at hok hnil ⊢
        obtain ⟨inner, e', rest, w₂, hs', hwf, hd, hc, hk, hm, hp⟩ :=
          closes_split n s { w with events := w.events.push a } o k hs hw hfit hok hnil
        refine ⟨.leaf a :: inner, e', rest, w₂, ?_, ?_, ?_, hc, hk, hm, hp⟩
        · simp [hs', ViewTree.events]
        · simp [ViewTree.WellFormed, hwf, Bool.eq_false_iff.mpr hb, Bool.eq_false_iff.mpr he]
        · simp only [ViewTree.depthOf_cons, ViewTree.depth] at hd ⊢
          omega

/-- **What a writer accepts is well nested.** A writer with nothing open that accepts a view
and ends with nothing open has read a forest that fits its limit. -/
theorem wellNested_of_closes : ∀ (n : Nat) (s : List Event) (w : Writer), s.length < n →
    w.stack = [] → (w.pushAll s).2 = .ok () → (w.pushAll s).1.stack = [] →
    WellNested w.maxDepth s
  | 0, _, _, hn, _, _, _ => absurd hn (Nat.not_lt_zero _)
  | _ + 1, [], _, _, _, _, _ => ⟨[], trivial, by simp [ViewTree.depthOf], rfl⟩
  | n + 1, a :: s, w, hn, hw, hok, hnil => by
    have hstep := step_ok_of_pushAll s hok
    have hs : s.length < n := by simp at hn; omega
    by_cases hb : a.kind.isBegin = true
    · -- a begin: its container closes inside the view, and the rest is a forest again
      have hroom := room_of_step_begin hb hstep
      have h1 := step_begin hb hroom
      rw [pushAll_cons_ok s h1] at hok hnil
      obtain ⟨inner, e, rest, w₂, hs₁, hwf, hd, hc, hk, hm, hp⟩ :=
        closes_split n s _ a.kind [] hs (by simp [hw]) (by simp [hw] at hroom ⊢; omega) hok hnil
      have hr := length_rest_lt hs₁ hs
      rw [← hp] at hok hnil
      obtain ⟨ts, hwfs, hds, hts⟩ := wellNested_of_closes n rest w₂ hr hk hok hnil
      refine ⟨.node a inner e :: ts, ?_, ?_, ?_⟩
      · simp [ViewTree.WellFormed, hb, hc, hwf, hwfs]
      · simp only [ViewTree.depthOf_cons, ViewTree.depth, hw, List.length_cons] at hd hds ⊢
        simp only [hm] at hds
        omega
      · simp [hs₁, hts, ViewTree.events]
    · by_cases he : a.kind.isEnd = true
      · -- an end with nothing open is refused
        obtain ⟨_, _, hw', _⟩ := closes_of_step_end he hstep
        rw [hw] at hw'
        cases hw'
      · have h1 := step_leaf (w := w) (Bool.eq_false_iff.mpr hb) (Bool.eq_false_iff.mpr he)
        rw [pushAll_cons_ok s h1] at hok hnil
        obtain ⟨ts, hwfs, hds, hts⟩ :=
          wellNested_of_closes n s { w with events := w.events.push a } hs hw hok hnil
        refine ⟨.leaf a :: ts, ?_, ?_, ?_⟩
        · simp [ViewTree.WellFormed, hwfs, Bool.eq_false_iff.mpr hb, Bool.eq_false_iff.mpr he]
        · simpa [ViewTree.depth] using hds
        · simp [hts, ViewTree.events]

end Writer

-- ============================================================ the reader

namespace Reading

variable {c : Cursor} {e : Event}

theorem next_leaf (ctx : String) (he : c.peek = some e) (hb : e.kind.isBegin = false)
    (hend : e.kind.isEnd = false) :
    (Reading.next ctx).run c = .ok e { c with pos := c.pos + 1 } := by
  simp only [Cursor.peek] at he
  simp [Reading.next, EStateM.run, he, hb, hend, bind, EStateM.bind, get, getThe, MonadStateOf.get,
    EStateM.get, set, EStateM.set, pure, EStateM.pure]

theorem next_begin (ctx : String) (he : c.peek = some e) (hb : e.kind.isBegin = true)
    (hroom : c.stack.length < c.maxDepth) :
    (Reading.next ctx).run c =
      .ok e { c with pos := c.pos + 1, stack := (e.kind, c.effectiveNamespace e) :: c.stack } := by
  simp only [Cursor.peek] at he
  simp [Reading.next, EStateM.run, he, hb, Nat.not_le.mpr hroom, bind, EStateM.bind, get, getThe,
    MonadStateOf.get, EStateM.get, set, EStateM.set, pure, EStateM.pure]

theorem next_begin_full (ctx : String) (he : c.peek = some e) (hb : e.kind.isBegin = true)
    (hfull : c.maxDepth ≤ c.stack.length) :
    (Reading.next ctx).run c = .error (.depthExceeded c.maxDepth) c := by
  simp only [Cursor.peek] at he
  simp [Reading.next, EStateM.run, he, hb, hfull, bind, EStateM.bind, get, getThe, MonadStateOf.get,
      EStateM.get, set, pure, throw, throwThe, MonadExceptOf.throw, EStateM.throw]

theorem next_unmatched (ctx : String) (he : c.peek = some e) (hend : e.kind.isEnd = true)
    (hs : c.stack = []) :
    (Reading.next ctx).run c = .error (.unmatchedEnd e.kind) c := by
  simp only [Cursor.peek] at he
  have hb := EventKind.isBegin_false_of_isEnd hend
  simp [Reading.next, EStateM.run, he, hb, hend, hs, bind, EStateM.bind, get, getThe,
      MonadStateOf.get, EStateM.get, throw, throwThe, MonadExceptOf.throw, EStateM.throw]

theorem next_close (ctx : String) {o : EventKind} {ns : Option String}
    {rest : List (EventKind × Option String)} (he : c.peek = some e) (hend : e.kind.isEnd = true)
    (hs : c.stack = (o, ns) :: rest) (hc : o.complement = some e.kind) :
    (Reading.next ctx).run c = .ok e { c with pos := c.pos + 1, stack := rest } := by
  simp only [Cursor.peek] at he
  have hb := EventKind.isBegin_false_of_isEnd hend
  simp [Reading.next, EStateM.run, he, hb, hend, hs, hc, bind, EStateM.bind, get, getThe,
    MonadStateOf.get, EStateM.get, set, EStateM.set, pure, EStateM.pure]

theorem next_mismatch (ctx : String) {o : EventKind} {ns : Option String}
    {rest : List (EventKind × Option String)} (he : c.peek = some e) (hend : e.kind.isEnd = true)
    (hs : c.stack = (o, ns) :: rest) (hc : o.complement ≠ some e.kind) :
    (Reading.next ctx).run c = .error (.mismatchedEnd o e.kind) { c with stack := rest } := by
  simp only [Cursor.peek] at he
  have hb := EventKind.isBegin_false_of_isEnd hend
  simp [Reading.next, EStateM.run, he, hb, hend, hs, hc, bind, EStateM.bind, get, getThe,
      MonadStateOf.get, EStateM.get, set, EStateM.set, throw, throwThe, MonadExceptOf.throw,
      EStateM.throw]

theorem drain_succ (n : Nat) (he : c.peek = some e) :
    (drain (n + 1)).run c =
      match (Reading.next "event").run c with
      | .ok _ c' =>
        match (drain n).run c' with
        | .ok ns c'' => .ok (c.effectiveNamespace e :: ns) c''
        | .error err c'' => .error err c''
      | .error err c' => .error err c' := by
  simp only [drain, EStateM.run, he, bind, EStateM.bind, get, getThe, MonadStateOf.get, EStateM.get,
      pure, EStateM.pure]
  split <;> rename_i h <;> simp [h]
  split <;> rename_i heq <;> simp [heq]



/-- Draining an exhausted reader reads nothing. -/
theorem drain_exhausted (n : Nat) (he : c.peek = none) : (drain n).run c = .ok [] c := by
  cases n with
  | zero => rfl
  | succ n =>
    simp only [drain, EStateM.run, he, bind, EStateM.bind, get, getThe, MonadStateOf.get,
      EStateM.get, pure, EStateM.pure]

/-- Two drains in a row are one. -/
theorem drain_add : ∀ (n : Nat) {m : Nat} {c c' c'' : Cursor} {a b : List (Option String)},
    (drain n).run c = .ok a c' → (drain m).run c' = .ok b c'' →
    (drain (n + m)).run c = .ok (a ++ b) c''
  | 0, m, c, c', c'', a, b, h₁, h₂ => by
    simp only [drain, EStateM.run, pure, EStateM.pure, EStateM.Result.ok.injEq] at h₁
    obtain ⟨rfl, rfl⟩ := h₁
    simpa using h₂
  | n + 1, m, c, c', c'', a, b, h₁, h₂ => by
    cases hp : c.peek with
    | none =>
      rw [drain_exhausted _ hp] at h₁
      cases h₁
      rw [drain_exhausted _ hp] at h₂
      cases h₂
      exact drain_exhausted _ hp
    | some e =>
      rw [drain_succ n hp] at h₁
      rw [show n + 1 + m = (n + m) + 1 by omega, drain_succ (n + m) hp]
      rcases hnext : (Reading.next "event").run c with ⟨x, c₁⟩ | ⟨err, c₁⟩
      · simp only [hnext] at h₁ ⊢
        rcases hd : (drain n).run c₁ with ⟨ns, c₂⟩ | ⟨err, c₂⟩
        · simp only [hd, EStateM.Result.ok.injEq] at h₁
          obtain ⟨rfl, rfl⟩ := h₁
          simp [drain_add n hd h₂]
        · simp only [hd, reduceCtorEq] at h₁
      · simp only [hnext, reduceCtorEq] at h₁

/-- The next event is the first of the events left. -/
theorem peek_of_prefix {l : List Event} (h : (e :: l) <+: c.events.toList.drop c.pos) :
    c.peek = some e := by
  obtain ⟨r, hr⟩ := h
  have := congrArg List.head? hr
  simpa [Cursor.peek] using this.symm

end Reading

-- ============================================================ the reader mirrors the writer

/-- A writer and a reader of the view `v` have checked the same events: the writer recorded
what the reader consumed, and both keep the same containers open under the same limit. -/
structure Mirrors (v : View) (w : Writer) (c : Cursor) : Prop where
  view : c.events = v
  written : w.events.toList = v.toList.take c.pos
  stack : w.stack = c.stack.map Prod.fst
  maxDepth : w.maxDepth = c.maxDepth
  pos_le : c.pos ≤ v.size

/-- A reader's run ends as a writer's run does: both accept, or both refuse with the same
error, the reader left where the writer is. -/
def Agrees {α : Type} (v : View) :
    Writer × Except StreamError Unit → EStateM.Result StreamError Cursor α → Prop
  | (w, .ok ()), .ok _ c => Mirrors v w c
  | (w, .error err), .error err' c => err' = err ∧ Mirrors v w c
  | _, _ => False

namespace Mirrors

variable {v : View} {w : Writer} {c : Cursor}

/-- The reader has consumed as many events as the writer recorded. -/
theorem pos_eq (h : Mirrors v w c) : c.pos = w.events.size := by
  have := congrArg List.length h.written
  simp only [Array.length_toList, List.length_take] at this
  have := h.pos_le
  omega

/-- The events a reader consumes next, after those it has consumed. -/
theorem take_succ (h : Mirrors v w c) {e : Event} (he : c.peek = some e) :
    v.toList.take (c.pos + 1) = v.toList.take c.pos ++ [e] := by
  have hv : v[c.pos]? = some e := by
    rw [← h.view]
    simpa [Cursor.peek] using he
  simp [List.take_add_one, hv]

theorem pos_lt (h : Mirrors v w c) {e : Event} (he : c.peek = some e) : c.pos < v.size := by
  have : c.events[c.pos]? = some e := by simpa [Cursor.peek] using he
  rw [← h.view]
  exact (Array.getElem?_eq_some_iff.mp this).1

end Mirrors

namespace Reading

variable {v : View} {w : Writer} {c : Cursor} {e : Event}

/-- **One step alike.** From mirrored states, the reader's next step accepts the next event
exactly when the writer's step does, refuses it with the same error otherwise, and the two
are left mirrored. -/
theorem next_mirrors (ctx : String) (h : Mirrors v w c) (he : c.peek = some e) :
    (∃ w₁ c₁, w.step e = (w₁, .ok ()) ∧ (Reading.next ctx).run c = .ok e c₁ ∧
      Mirrors v w₁ c₁ ∧ c₁.pos = c.pos + 1) ∨
    (∃ w₁ c₁ err, w.step e = (w₁, .error err) ∧ (Reading.next ctx).run c = .error err c₁ ∧
      Mirrors v w₁ c₁) := by
  have hlt := h.pos_lt he
  have htake := h.take_succ he
  by_cases hb : e.kind.isBegin = true
  · -- a begin is refused by both exactly when the limit is reached
    rcases Nat.lt_or_ge c.stack.length c.maxDepth with hroom | hfull
    · left
      have hroom' : w.stack.length < w.maxDepth := by simpa [h.stack, h.maxDepth] using hroom
      refine ⟨_, _, Writer.step_begin hb hroom', next_begin ctx he hb hroom, ?_, rfl⟩
      exact ⟨h.view, by simp [h.written, htake], by simp [h.stack], h.maxDepth,
        by dsimp only; omega⟩
    · right
      have hfull' : w.maxDepth ≤ w.stack.length := by simpa [h.stack, h.maxDepth] using hfull
      refine ⟨_, _, _, Writer.step_begin_full hb hfull', ?_, h⟩
      rw [next_begin_full ctx he hb hfull, h.maxDepth]
  · have hb' : e.kind.isBegin = false := by simpa using hb
    by_cases hend : e.kind.isEnd = true
    · -- an end: both pop the innermost container, and refuse one it does not close
      cases hs : c.stack with
      | nil =>
        right
        have hw : w.stack = [] := by rw [h.stack, hs]; rfl
        refine ⟨w, c, _, ?_, next_unmatched ctx he hend hs, h⟩
        simp [Writer.step, hb', hend, hw]
      | cons top rest =>
        obtain ⟨o, ns⟩ := top
        have hw : w.stack = o :: rest.map Prod.fst := by rw [h.stack, hs]; rfl
        by_cases hc : o.complement = some e.kind
        · left
          refine ⟨_, _, Writer.step_close hw hend hc, next_close ctx he hend hs hc, ?_, rfl⟩
          exact ⟨h.view, by simp [h.written, htake], rfl, h.maxDepth, by dsimp only; omega⟩
        · right
          refine ⟨{ w with stack := rest.map Prod.fst }, { c with stack := rest }, _, ?_,
            next_mismatch ctx he hend hs hc, ⟨h.view, h.written, rfl, h.maxDepth, h.pos_le⟩⟩
          simp [Writer.step, hb', hend, hw, hc]
    · -- anything else is accepted by both
      have hend' : e.kind.isEnd = false := by simpa using hend
      left
      refine ⟨_, _, Writer.step_leaf hb' hend', next_leaf ctx he hb' hend', ?_, rfl⟩
      exact ⟨h.view, by simp [h.written, htake], h.stack, h.maxDepth, by dsimp only; omega⟩

/-- Collecting namespaces does not change how a run ends. -/
theorem agrees_cons {p : Writer × Except StreamError Unit}
    {r : EStateM.Result StreamError Cursor (List (Option String))} (x : Option String)
    (h : Agrees v p r) :
    Agrees v p (match r with
      | .ok ns c => .ok (x :: ns) c
      | .error err c => .error err c) := by
  rcases p with ⟨w, (_ | _)⟩ <;> rcases r with ⟨ns, c⟩ | ⟨err, c⟩ <;> exact h

/-- **The whole view alike.** Draining a reader ends as pushing the events it has left into a
mirrored writer does. -/
theorem drain_mirrors : ∀ (n : Nat) {w : Writer} {c : Cursor}, Mirrors v w c →
    c.pos + n = v.size → Agrees v (w.pushAll (v.toList.drop c.pos)) ((drain n).run c)
  | 0, w, c, h, hn => by
    have hdrop : v.toList.drop c.pos = [] := List.drop_eq_nil_of_le (by simp; omega)
    rw [hdrop]
    exact h
  | n + 1, w, c, h, hn => by
    have hlt : c.pos < v.size := by omega
    have he : c.peek = some v[c.pos] := by simp [Cursor.peek, h.view, hlt]
    have hdrop : v.toList.drop c.pos = v[c.pos] :: v.toList.drop (c.pos + 1) := by
      simp [List.drop_eq_getElem_cons (by simpa using hlt : c.pos < v.toList.length)]
    rw [hdrop, drain_succ n he]
    rcases next_mirrors "event" h he with ⟨w₁, c₁, hw, hr, h₁, hpos⟩ | ⟨w₁, c₁, err, hw, hr, h₁⟩
    · rw [Writer.pushAll_cons_ok _ hw, hr]
      have ih := drain_mirrors n h₁ (by omega)
      rw [hpos] at ih
      exact agrees_cons _ ih
    · rw [Writer.pushAll_cons_error _ hw, hr]
      exact ⟨rfl, h₁⟩

end Reading

-- ============================================================ reading a forest

/-- The containers a reader keeps open inside the begin events `around` (innermost first),
each with the namespace it passes on. -/
def openStack : List Event → List (EventKind × Option String)
  | [] => []
  | b :: bs => (b.kind, (b :: bs).findSome? Event.ns) :: openStack bs

theorem length_openStack (around : List Event) : (openStack around).length = around.length := by
  induction around with
  | nil => rfl
  | cons _ _ ih => simp [openStack, ih]

/-- A begin event passes on the namespace it inherits. -/
theorem inheritedNamespace_cons (b : Event) (around : List Event) :
    inheritedNamespace b around = (b :: around).findSome? Event.ns := by
  cases h : b.ns <;> simp [inheritedNamespace, h]

/-- Inside the begin events `around`, the reader gives an event the namespace it inherits. -/
theorem effectiveNamespace_openStack {c : Cursor} {around : List Event}
    (hs : c.stack = openStack around) (e : Event) :
    c.effectiveNamespace e = inheritedNamespace e around := by
  cases around with
  | nil => simp [Cursor.effectiveNamespace, Cursor.innerNamespace, hs, openStack,
      inheritedNamespace]
  | cons b bs => simp [Cursor.effectiveNamespace, Cursor.innerNamespace, hs, openStack,
      inheritedNamespace]

/-- What is left after a prefix. -/
theorem prefix_drop_append {x y v : List Event} {p : Nat}
    (h : x ++ y <+: v.drop p) : y <+: v.drop (p + x.length) := by
  obtain ⟨r, hr⟩ := h
  refine ⟨r, ?_⟩
  rw [← List.drop_drop, ← hr]
  simp

namespace Reading

/-- **Entering a container.** Past the begin event `b` of a container whose events come next,
the reader holds the stack of `b :: around`, the body and the end come next, and the end read
after the body closes the container, back to the stack outside. -/
theorem enter_container (ctx : String) {b e : Event} {body : List ViewTree} {around : List Event}
    {c : Cursor} (hb : b.kind.isBegin = true) (hc : b.kind.complement = some e.kind)
    (hs : c.stack = openStack around)
    (hnext : (ViewTree.node b body e).events <+: c.events.toList.drop c.pos) :
    (b.kind, c.effectiveNamespace b) :: c.stack = openStack (b :: around) ∧
      ViewTree.eventsOf body ++ [e] <+: c.events.toList.drop (c.pos + 1) ∧
      (Reading.next ctx).run
          ⟨c.events, c.pos + 1 + (ViewTree.eventsOf body).length,
            (b.kind, c.effectiveNamespace b) :: c.stack, c.maxDepth⟩ =
        .ok e { c with pos := c.pos + 1 + (ViewTree.eventsOf body).length + 1 } := by
  have hrest : ViewTree.eventsOf body ++ [e] <+: c.events.toList.drop (c.pos + 1) :=
    prefix_drop_append (x := [b]) hnext
  refine ⟨?_, hrest, ?_⟩
  · simp [hs, openStack, effectiveNamespace_openStack hs, inheritedNamespace_cons]
  · have hpe := peek_of_prefix (l := [])
      (c := ⟨c.events, c.pos + 1 + (ViewTree.eventsOf body).length,
        (b.kind, c.effectiveNamespace b) :: c.stack, c.maxDepth⟩) (prefix_drop_append hrest)
    exact next_close ctx hpe (EventKind.isEnd_of_complement hb hc) rfl hc

mutual

/-- **Reading a tree.** With room for it, the reader consumes a tree whose events come next,
gives every event the namespace it inherits, and leaves its stack as it found it. -/
theorem drain_tree : ∀ (t : ViewTree) (around : List Event) (c : Cursor), t.WellFormed →
    t.depth + around.length ≤ c.maxDepth → c.stack = openStack around →
    t.events <+: c.events.toList.drop c.pos →
    (drain t.events.length).run c =
      .ok ((t.placed around).map fun p => inheritedNamespace p.1 p.2)
        { c with pos := c.pos + t.events.length }
  | .leaf e, around, c, hwf, _, hs, hnext => by
    have he := peek_of_prefix (l := []) hnext
    obtain ⟨hb, hend⟩ := hwf
    rw [show (ViewTree.leaf e).events.length = 0 + 1 from rfl, drain_succ 0 he,
      next_leaf "event" he hb hend]
    simp [drain, EStateM.run, pure, EStateM.pure, ViewTree.placed, effectiveNamespace_openStack hs]
  | .node b body e, around, c, hwf, hroom, hs, hnext => by
    obtain ⟨hb, hc, hwfs⟩ := hwf
    simp only [ViewTree.depth] at hroom
    have hpb := peek_of_prefix hnext
    have hroom₁ : c.stack.length < c.maxDepth := by rw [hs, length_openStack]; omega
    -- the begin event opens the container, passing on the namespace it inherits
    obtain ⟨hs₁, hrest, hclose⟩ := enter_container "event" hb hc hs hnext
    let inside : List (EventKind × Option String) := (b.kind, c.effectiveNamespace b) :: c.stack
    -- the body is a forest read inside the container
    have hbody := drain_forest body (b :: around) ⟨c.events, c.pos + 1, inside, c.maxDepth⟩
      hwfs (by simp; omega) hs₁ ((List.prefix_append _ _).trans hrest)
    -- the end event closes it
    let last : Cursor :=
      ⟨c.events, c.pos + 1 + (ViewTree.eventsOf body).length, inside, c.maxDepth⟩
    have hpe := peek_of_prefix (l := []) (c := last) (prefix_drop_append hrest)
    have hend : (drain (0 + 1)).run last =
        .ok [inheritedNamespace e (b :: around)]
          { c with pos := c.pos + 1 + (ViewTree.eventsOf body).length + 1 } := by
      rw [drain_succ 0 hpe, hclose]
      simp only [drain, EStateM.run, pure, EStateM.pure, List.cons.injEq, and_true,
        EStateM.Result.ok.injEq]
      exact effectiveNamespace_openStack (c := last) hs₁ e
    rw [show (ViewTree.node b body e).events.length =
        ((ViewTree.eventsOf body).length + 1) + 1 by simp [ViewTree.events],
      drain_succ _ hpb, next_begin "event" hpb hb hroom₁]
    simp only []
    rw [drain_add _ hbody hend]
    simp [ViewTree.placed, effectiveNamespace_openStack hs]
    omega

/-- **Reading a forest.** The reader consumes the trees of a forest one after the other. -/
theorem drain_forest : ∀ (ts : List ViewTree) (around : List Event) (c : Cursor),
    ViewTree.AllWellFormed ts → ViewTree.depthOf ts + around.length ≤ c.maxDepth →
    c.stack = openStack around → ViewTree.eventsOf ts <+: c.events.toList.drop c.pos →
    (drain (ViewTree.eventsOf ts).length).run c =
      .ok ((ViewTree.placedOf around ts).map fun p => inheritedNamespace p.1 p.2)
        { c with pos := c.pos + (ViewTree.eventsOf ts).length }
  | [], around, c, _, _, _, _ => by simp [drain, EStateM.run, pure, EStateM.pure]
  | t :: ts, around, c, hwf, hroom, hs, hnext => by
    rw [ViewTree.allWellFormed_cons] at hwf
    simp only [ViewTree.depthOf_cons] at hroom
    simp only [ViewTree.eventsOf_cons] at hnext ⊢
    have ht := drain_tree t around c hwf.1 (by omega) hs ((List.prefix_append _ _).trans hnext)
    have hts := drain_forest ts around { c with pos := c.pos + t.events.length } hwf.2
      (by simp; omega) (by simpa using hs) (by simpa using prefix_drop_append hnext)
    rw [List.length_append, drain_add _ ht hts]
    simp [Nat.add_assoc]

end

/-- A reader with nothing open at the end of its view finishes. -/
theorem finish_closed {c : Cursor} (hs : c.stack = []) (hp : c.events.size ≤ c.pos) :
    Reading.finish.run c = .ok () c := by
  simp [Reading.finish, EStateM.run, bind, EStateM.bind, get, getThe, MonadStateOf.get,
    EStateM.get, pure, EStateM.pure, hs, Nat.not_lt.mpr hp]

/-- A reader with containers open does not finish. -/
theorem finish_open {c : Cursor} (hs : c.stack ≠ []) :
    Reading.finish.run c = .error (.unterminated c.stack.length) c := by
  have : c.stack.isEmpty = false := by simpa using hs
  simp [Reading.finish, EStateM.run, bind, EStateM.bind, get, getThe, MonadStateOf.get,
    EStateM.get, this, throw, throwThe, MonadExceptOf.throw, EStateM.throw]

theorem readAll_run (c : Cursor) :
    readAll.run c =
      match (drain (c.events.size - c.pos)).run c with
      | .ok ns c' =>
        match Reading.finish.run c' with
        | .ok _ c'' => .ok ns c''
        | .error err c'' => .error err c''
      | .error err c' => .error err c' := by
  simp only [readAll, EStateM.run, bind, EStateM.bind, get, getThe, MonadStateOf.get,
    EStateM.get, pure, EStateM.pure]
  split <;> rename_i h <;> simp only [h]
  split <;> rename_i heq <;> simp [heq]

/-- **A well-nested view is read to its end.** The reader accepts the events of a forest that
fits its limit and gives every event the namespace it inherits. -/
theorem readAll_forest {d : Nat} {ts : List ViewTree} (hwf : ViewTree.AllWellFormed ts)
    (hd : ViewTree.depthOf ts ≤ d) :
    readAll.run (Cursor.start d (ViewTree.eventsOf ts)) =
      .ok ((ViewTree.placedOf [] ts).map fun p => inheritedNamespace p.1 p.2)
        { Cursor.start d (ViewTree.eventsOf ts) with pos := (ViewTree.eventsOf ts).length } := by
  have h := drain_forest ts [] (Cursor.start d (ViewTree.eventsOf ts)) hwf
    (by simpa [Cursor.start] using hd)
    rfl (by simp [Cursor.start])
  rw [readAll_run]
  simp only [Cursor.start, List.size_toArray, Nat.sub_zero] at h ⊢
  rw [h]
  simp only [Nat.zero_add]
  rw [finish_closed rfl (by simp)]

end Reading

namespace Writer

/-- An accepted event is recorded. -/
theorem step_ok_events {w w' : Writer} {e : Event} (h : w.step e = (w', .ok ())) :
    w'.events = w.events.push e := by
  unfold step at h
  repeat' split at h
  all_goals simp only [Prod.mk.injEq, reduceCtorEq, and_false] at h
  all_goals rw [← h.1]

/-- An accepting run records every event it is given. -/
theorem pushAll_ok_events : ∀ (s : List Event) {w w' : Writer}, w.pushAll s = (w', .ok ()) →
    w'.events.toList = w.events.toList ++ s
  | [], w, w', h => by
    simp only [pushAll, Prod.mk.injEq] at h
    rw [h.1]
    simp
  | e :: es, w, w', h => by
    rcases hs : w.step e with ⟨w₁, (_ | _)⟩
    · rw [pushAll_cons_error _ hs] at h
      cases h
    · rw [pushAll_cons_ok _ hs] at h
      rw [pushAll_ok_events es h, step_ok_events hs]
      simp

end Writer

/-- A fresh writer and a fresh reader of the same view start mirrored. -/
theorem start_mirrors (d : Nat) (s : List Event) :
    Mirrors s.toArray { maxDepth := d } (Cursor.start d s) :=
  ⟨rfl, by simp [Cursor.start], rfl, rfl, by simp [Cursor.start]⟩

-- ============================================================ whole runs end alike

/-- Two whole runs over a view end alike: both accept, or both refuse with the same error, the
reader after as many events as the writer recorded. -/
def EndAlike {α β : Type} : Writer × Except StreamError α → EStateM.Result StreamError Cursor β →
    Prop
  | (_, .ok _), .ok _ _ => True
  | (w, .error err), .error err' c => err' = err ∧ c.pos = w.events.size
  | _, _ => False

namespace EndAlike

variable {α β : Type} {p : Writer × Except StreamError α} {r : EStateM.Result StreamError Cursor β}

theorem ok_iff (h : EndAlike p r) : (∃ v, p.2 = .ok v) ↔ ∃ b c, r = .ok b c := by
  rcases p with ⟨w, (err | v)⟩ <;> rcases r with ⟨b, c⟩ | ⟨err', c⟩ <;>
    simp_all [EndAlike]

theorem error_iff (h : EndAlike p r) (err : StreamError) :
    p.2 = .error err ↔ ∃ c, r = .error err c ∧ c.pos = p.1.events.size := by
  rcases p with ⟨w, (err₀ | v)⟩ <;> rcases r with ⟨b, c⟩ | ⟨err', c⟩ <;>
    simp_all [EndAlike, eq_comm]

end EndAlike

/-- **Whole runs end alike.** Writing the events of `s` into a fresh writer and finishing it
ends as reading `s` to its end and finishing the reader does. -/
theorem writeAll_endAlike (d : Nat) (s : List Event) :
    EndAlike (Writer.writeAll d s) (Reading.readAll.run (Cursor.start d s)) := by
  have hagree := Reading.drain_mirrors s.length (start_mirrors d s) (by simp)
  simp only [Cursor.start_pos, List.drop_zero] at hagree
  rw [Reading.readAll_run]
  simp only [Cursor.start_events, Cursor.start_pos, List.size_toArray, Nat.sub_zero,
    Writer.writeAll]
  rcases hp : ({ maxDepth := d } : Writer).pushAll s with ⟨w, (err | ⟨⟩)⟩ <;>
    rw [hp] at hagree <;>
    rcases hd : (Reading.drain s.length).run (Cursor.start d s) with ⟨ns, c⟩ | ⟨err', c⟩ <;>
    rw [hd] at hagree
  · exact hagree.elim
  · -- the writer refuses an event, and the reader refuses it with the same error
    exact ⟨hagree.1, hagree.2.pos_eq⟩
  · -- the writer accepts every event; both end as finishing does
    have hpos : c.pos = s.length := by
      rw [hagree.pos_eq, ← Array.length_toList, Writer.pushAll_ok_events s hp]
      simp
    dsimp only
    by_cases hclosed : w.stack = []
    · -- nothing left open: both accept
      have hc : c.stack = [] := by simpa [hclosed] using hagree.stack.symm
      have hf : w.finish = .ok w.events := by simp [Writer.finish, hclosed]
      rw [Reading.finish_closed hc (by rw [hagree.view, hpos]; simp), hf]
      trivial
    · -- containers left open: both report them, after the last event
      have hc : c.stack ≠ [] := fun h => hclosed (by simpa [h] using hagree.stack)
      have hf : w.finish = .error (.unterminated w.stack.length) := by
        simp [Writer.finish, hclosed]
      rw [Reading.finish_open hc, hf]
      exact ⟨by rw [hagree.stack, List.length_map], hagree.pos_eq⟩
  · exact hagree.elim

/-- A view that a fresh writer writes through and finishes is well nested. -/
theorem Writer.wellNested_of_writeAll {d : Nat} {s : List Event} {v : View}
    (h : (Writer.writeAll d s).2 = .ok v) : WellNested d s := by
  simp only [Writer.writeAll] at h
  rcases hp : ({ maxDepth := d } : Writer).pushAll s with ⟨w, (err | _)⟩ <;>
    simp only [hp] at h
  · cases h
  · have hclosed : w.stack = [] := by
      simp only [Writer.finish] at h
      split at h
      · simpa using ‹w.stack.isEmpty = true›
      · cases h
    exact Writer.wellNested_of_closes (s.length + 1) s _ (by omega) rfl (by rw [hp])
      (by rw [hp]; exact hclosed)

-- ============================================================ the main statement

/-- **A fresh writer and a fresh reader accept exactly the well-nested views.** Pushing the
events of `s` one by one into a writer limited to `d` open containers and then finishing it
succeeds exactly when `s` is well nested within `d` levels; reading `s` to its end and then
finishing the reader succeeds on the same views. On any other view both fail with the same
error, the reader at the event the writer refused. On a well-nested view the reader gives
each event the namespace it inherits. -/
theorem views_checked_alike (d : Nat) (s : List Event) :
    ((∃ v, (Writer.writeAll d s).2 = .ok v) ↔ WellNested d s) ∧
    ((∃ ns c, Reading.readAll.run (Cursor.start d s) = .ok ns c) ↔ WellNested d s) ∧
    (∀ err, (Writer.writeAll d s).2 = .error err ↔
      ∃ c, Reading.readAll.run (Cursor.start d s) = .error err c ∧
        c.pos = (Writer.writeAll d s).1.events.size) ∧
    (∀ ts, ViewTree.AllWellFormed ts → ViewTree.depthOf ts ≤ d → ViewTree.eventsOf ts = s →
      ∃ c, Reading.readAll.run (Cursor.start d s) =
        .ok ((ViewTree.placedOf [] ts).map fun p => inheritedNamespace p.1 p.2) c) := by
  have hends := writeAll_endAlike d s
  -- a well-nested view is read to its end, each event with the namespace it inherits
  have hread : ∀ ts, ViewTree.AllWellFormed ts → ViewTree.depthOf ts ≤ d →
      ViewTree.eventsOf ts = s → ∃ c, Reading.readAll.run (Cursor.start d s) =
        .ok ((ViewTree.placedOf [] ts).map fun p => inheritedNamespace p.1 p.2) c := by
    rintro ts hwf hd rfl
    exact ⟨_, Reading.readAll_forest hwf hd⟩
  have hwrite : (∃ v, (Writer.writeAll d s).2 = .ok v) ↔ WellNested d s := by
    refine ⟨fun ⟨v, h⟩ => Writer.wellNested_of_writeAll h, fun ⟨ts, hwf, hd, hs⟩ => ?_⟩
    obtain ⟨c, hc⟩ := hread ts hwf hd hs
    exact hends.ok_iff.mpr ⟨_, c, hc⟩
  exact ⟨hwrite, hends.ok_iff.symm.trans hwrite, hends.error_iff, hread⟩

end GraphViews

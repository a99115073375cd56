import Mathlib
import GraphViews.Proofs.Nesting
/-!
Reading one element of a view.

An element of a view is the events of one well-formed tree (`ViewTree`): an event that opens
and closes nothing, or a begin event, the elements inside it and the end event of its family
that closes it. `ReadsTree c c' t` says that the reader went from `c` to `c'` over the events of
`t`: they came next, and the open containers are as they were. `ReadsClosing` says that it read
a forest and then the end event that closes the innermost open container.

# Main statements

* `Reading.next_ok_cases`: what one successful step of the reader did.
* `Reading.skip_reads`: skipping, started anywhere but on an end event that would close an
  open container, reads one element.
* `Reading.subtree_reads`: so does reading a subtree, which returns the events read.

# How the proofs go

The reader's step is inverted once, and the two relations are built from its three cases
(`ReadsTree.of_next_leaf`, `ReadsTree.of_next_begin`, `ReadsClosing.of_next_end`,
`ReadsClosing.cons`). The loop behind `skip` reads events until the containers open before it
are all that is open; `Reading.closeTo_split` cuts it at the end event that closes the innermost
container, by strong induction on its fuel, which is one unit per event and never runs out.
-/

namespace GraphViews

-- ============================================================ one step of the reader

namespace Cursor

/-- The events the cursor has not read. -/
def remaining (c : Cursor) : Nat := c.events.size - c.pos

/-- The cursor does not stand on an end event that would close an open container: an end
event comes next only with nothing open, where reading it fails. -/
def AtElement (c : Cursor) : Prop := ∀ e, c.peek = some e → e.kind.isEnd = true → c.stack = []

theorem drop_eq_cons {c : Cursor} {e : Event} (he : c.peek = some e) :
    c.events.toList.drop c.pos = e :: c.events.toList.drop (c.pos + 1) := by
  simp only [peek, Array.getElem?_eq_some_iff] at he
  obtain ⟨hlt, rfl⟩ := he
  rw [List.drop_eq_getElem_cons (by simpa using hlt)]
  simp

theorem remaining_of_peek {c : Cursor} {e : Event} (he : c.peek = some e) :
    c.remaining = (c.events.size - (c.pos + 1)) + 1 := by
  simp only [peek, Array.getElem?_eq_some_iff] at he
  obtain ⟨hlt, -⟩ := he
  simp only [remaining]
  omega

theorem atElement_of_peek {c : Cursor} {e : Event} (he : c.peek = some e)
    (hend : e.kind.isEnd = false) : c.AtElement := by
  intro e' he' hend'
  rw [he, Option.some.injEq] at he'
  subst he'
  simp [hend] at hend'

end Cursor

namespace Reading

variable {c c' : Cursor} {e : Event}

/-- **The reader's step, inverted.** A successful step read the next event: a begin event
opens a container with room for it, an end event closes the innermost open container of its
family, and any other event leaves the containers as they were. -/
theorem next_ok_cases (context : String) (h : (Reading.next context).run c = .ok e c') :
    c.peek = some e ∧
      ((e.kind.isBegin = true ∧ c.stack.length < c.maxDepth ∧
          c' = { c with pos := c.pos + 1, stack := (e.kind, c.effectiveNamespace e) :: c.stack }) ∨
        (e.kind.isEnd = true ∧ ∃ o ns rest, c.stack = (o, ns) :: rest ∧
          o.complement = some e.kind ∧ c' = { c with pos := c.pos + 1, stack := rest }) ∨
        (e.kind.isBegin = false ∧ e.kind.isEnd = false ∧ c' = { c with pos := c.pos + 1 })) := by
  cases hp : c.peek with
  | none =>
    simp only [Cursor.peek] at hp
    simp [Reading.next, EStateM.run, hp, bind, EStateM.bind, get, getThe, MonadStateOf.get,
      EStateM.get, throw, throwThe, MonadExceptOf.throw, EStateM.throw] at h
  | some e' =>
    by_cases hb : e'.kind.isBegin = true
    · by_cases hroom : c.stack.length < c.maxDepth
      · rw [next_begin context hp hb hroom] at h
        cases h
        exact ⟨rfl, .inl ⟨hb, hroom, rfl⟩⟩
      · rw [next_begin_full context hp hb (Nat.le_of_not_lt hroom)] at h
        cases h
    · by_cases hend : e'.kind.isEnd = true
      · cases hs : c.stack with
        | nil => rw [next_unmatched context hp hend hs] at h; cases h
        | cons top rest =>
          obtain ⟨o, ns⟩ := top
          by_cases hc : o.complement = some e'.kind
          · rw [next_close context hp hend hs hc] at h
            cases h
            exact ⟨rfl, .inr (.inl ⟨hend, o, ns, rest, rfl, hc, rfl⟩)⟩
          · rw [next_mismatch context hp hend hs hc] at h
            cases h
      · rw [next_leaf context hp (by simpa using hb) (by simpa using hend)] at h
        cases h
        exact ⟨rfl, .inr (.inr ⟨by simpa using hb, by simpa using hend, rfl⟩)⟩

/-- Reading an event leaves one event fewer. -/
theorem remaining_lt {context : String} (h : (Reading.next context).run c = .ok e c') :
    c'.remaining < c.remaining := by
  obtain ⟨hp, hcases⟩ := next_ok_cases context h
  have hrem := Cursor.remaining_of_peek hp
  rcases hcases with ⟨-, -, rfl⟩ | ⟨-, -, -, -, -, -, rfl⟩ | ⟨-, -, rfl⟩ <;>
    simp only [Cursor.remaining] at hrem ⊢ <;> omega

end Reading

-- ============================================================ reading one element

/-- Two runs of events that come one after the other come next together. -/
theorem prefix_drop_of_append {x y l : List Event} {p : Nat} (hx : x <+: l.drop p)
    (hy : y <+: l.drop (p + x.length)) : x ++ y <+: l.drop p := by
  obtain ⟨r, hr⟩ := hx
  have hrest : l.drop (p + x.length) = r := by
    rw [← List.drop_drop, ← hr, List.drop_left]
  rw [← hr]
  exact (List.prefix_append_right_inj x).2 (hrest ▸ hy)

/-- The reader went from `c` to `c'` over the events of one well-formed tree: they come next
in the view, and only the position moved. -/
structure ReadsTree (c c' : Cursor) (t : ViewTree) : Prop where
  wellFormed : t.WellFormed
  next : t.events <+: c.events.toList.drop c.pos
  after : c' = { c with pos := c.pos + t.events.length }

/-- The reader went from `c` to `c'` over a forest and then the end event that closes the
innermost open container. -/
structure ReadsClosing (c c' : Cursor) (ts : List ViewTree) (e : Event) : Prop where
  wellFormed : ViewTree.AllWellFormed ts
  next : ViewTree.eventsOf ts ++ [e] <+: c.events.toList.drop c.pos
  closes : ∃ o ns rest, c.stack = (o, ns) :: rest ∧ o.complement = some e.kind ∧
    c' = { c with pos := c.pos + (ViewTree.eventsOf ts).length + 1, stack := rest }

namespace ReadsTree

variable {c c₁ c' : Cursor} {t : ViewTree}

/-- An event that opens and closes nothing is a tree of its own. -/
theorem of_next_leaf {context : String} (h : (Reading.next context).run c = .ok e c')
    (hb : e.kind.isBegin = false) (hend : e.kind.isEnd = false) : ReadsTree c c' (.leaf e) := by
  obtain ⟨hp, hcases⟩ := Reading.next_ok_cases context h
  rcases hcases with ⟨hb', -⟩ | ⟨hend', -⟩ | ⟨-, -, rfl⟩
  · simp [hb] at hb'
  · simp [hend] at hend'
  refine ⟨⟨hb, hend⟩, ?_, by simp [ViewTree.events]⟩
  rw [Cursor.drop_eq_cons hp]
  simp [ViewTree.events]

/-- A begin event and what closes it are a tree. -/
theorem of_next_begin {context : String} {b : Event} {ts : List ViewTree}
    (h : (Reading.next context).run c = .ok b c₁) (hb : b.kind.isBegin = true)
    (hclose : ReadsClosing c₁ c' ts e) : ReadsTree c c' (.node b ts e) := by
  obtain ⟨hp, hcases⟩ := Reading.next_ok_cases context h
  rcases hcases with ⟨-, -, rfl⟩ | ⟨hend, -⟩ | ⟨hb', -⟩
  · obtain ⟨hwf, hnext, o, ns, rest, hs, hc, rfl⟩ := hclose
    simp only [List.cons.injEq] at hs
    obtain ⟨⟨rfl, -⟩, rfl⟩ := hs
    refine ⟨⟨hb, hc, hwf⟩, ?_, ?_⟩
    · rw [Cursor.drop_eq_cons hp]
      simpa [ViewTree.events] using hnext
    · simp [ViewTree.events]
      omega
  · simp [EventKind.isBegin_false_of_isEnd hend] at hb
  · simp [hb] at hb'

/-- A tree is at least one event, within the view. -/
theorem progress (h : ReadsTree c c' t) : c'.remaining < c.remaining := by
  obtain ⟨-, hnext, rfl⟩ := h
  have hlen := hnext.length_le
  have hpos : 0 < t.events.length := by cases t <;> simp [ViewTree.events]
  simp only [List.length_drop, Array.length_toList] at hlen
  simp only [Cursor.remaining]
  omega

end ReadsTree

namespace ReadsClosing

variable {c c₁ c' : Cursor} {ts : List ViewTree}

/-- An end event that closes the innermost open container closes it after an empty forest. -/
theorem of_next_end {context : String} (h : (Reading.next context).run c = .ok e c')
    (hend : e.kind.isEnd = true) : ReadsClosing c c' [] e := by
  obtain ⟨hp, hcases⟩ := Reading.next_ok_cases context h
  rcases hcases with ⟨hb, -⟩ | ⟨-, o, ns, rest, hs, hc, rfl⟩ | ⟨-, hend', -⟩
  · simp [EventKind.isBegin_false_of_isEnd hend] at hb
  · refine ⟨trivial, ?_, o, ns, rest, hs, hc, by simp⟩
    rw [Cursor.drop_eq_cons hp]
    simp
  · simp [hend] at hend'

/-- A tree read before a closing forest joins it. -/
theorem cons {t : ViewTree} (ht : ReadsTree c c₁ t) (hc : ReadsClosing c₁ c' ts e) :
    ReadsClosing c c' (t :: ts) e := by
  obtain ⟨hwf, hnext, rfl⟩ := ht
  obtain ⟨hwfs, hnext', o, ns, rest, hs, hcl, rfl⟩ := hc
  refine ⟨⟨hwf, hwfs⟩, ?_, o, ns, rest, hs, hcl, ?_⟩
  · simp only [ViewTree.eventsOf_cons, List.append_assoc]
    exact prefix_drop_of_append hnext hnext'
  · simp
    omega

theorem stack_eq {e : Event} (h : ReadsClosing c c' ts e) : c'.stack = c.stack.tail := by
  obtain ⟨-, -, o, ns, rest, hs, -, rfl⟩ := h
  simp [hs]

end ReadsClosing

-- ============================================================ skipping one element

namespace Reading

variable {c c' : Cursor} {start : Nat} {context : String}

/-- Nothing more to close: the loop stops where it is. -/
theorem closeTo_done (fuel : Nat) (hs : c.stack.length ≤ start) :
    (closeTo start context fuel).run c = .ok () c := by
  cases fuel with
  | zero => rfl
  | succ fuel =>
    simp [closeTo, EStateM.run, Nat.not_lt.2 hs, bind, EStateM.bind, get, getThe,
      MonadStateOf.get, EStateM.get, pure, EStateM.pure]

/-- A container more to close: the loop reads an event and goes on. -/
theorem closeTo_succ (fuel : Nat) (hs : start < c.stack.length) :
    (closeTo start context (fuel + 1)).run c =
      match (Reading.next context).run c with
      | .ok _ c₁ => (closeTo start context fuel).run c₁
      | .error err c₁ => .error err c₁ := by
  simp only [closeTo, EStateM.run, bind, EStateM.bind, get, getThe, MonadStateOf.get,
    EStateM.get, gt_iff_lt, hs, if_true]
  rcases (Reading.next context) c with ⟨a, c₁⟩ | ⟨err, c₁⟩ <;> rfl

/-- **Closing a container.** The loop behind `skip`, run with a container `o` open above the
`start` containers where it stops, reads a forest and the end event that closes `o`, and goes
on from there with less fuel. Strong induction on the fuel: a begin event inside `o` opens a
container that closes first. -/
theorem closeTo_split : ∀ (fuel : Nat) {c c' : Cursor} {o : EventKind} {ns : Option String}
    {k : List (EventKind × Option String)}, c.stack = (o, ns) :: k → start ≤ k.length →
    c.remaining < fuel → (closeTo start context fuel).run c = .ok () c' →
    ∃ ts e c₂ m, ReadsClosing c c₂ ts e ∧ m < fuel ∧ c₂.remaining < m ∧
      (closeTo start context m).run c₂ = .ok () c' := by
  intro fuel
  induction fuel using Nat.strong_induction_on with
  | _ fuel ih =>
  intro c c' o ns k hs hstart hfuel h
  cases fuel with
  | zero => omega
  | succ fuel =>
  rw [closeTo_succ fuel (by simp [hs]; omega)] at h
  rcases hnext : (Reading.next context).run c with ⟨e, c₁⟩ | ⟨err, c₁⟩
  case error => rw [hnext] at h; cases h
  rw [hnext] at h
  dsimp only at h
  obtain ⟨hp, hcases⟩ := next_ok_cases context hnext
  have hrem := Cursor.remaining_of_peek hp
  rcases hcases with ⟨hb, -, rfl⟩ | ⟨hend, o', ns', rest, hs', hc, rfl⟩ | ⟨hb, hend, rfl⟩
  · -- a begin event: its container closes first, then `o` does
    obtain ⟨ts₁, e₁, c₂, m₁, hr₁, hm₁, hrem₁, h₁⟩ :=
      ih fuel (by omega) rfl (by simp [hs]; omega) (by simp only [Cursor.remaining]; omega) h
    have ht := ReadsTree.of_next_begin hnext hb hr₁
    have hs₂ : c₂.stack = (o, ns) :: k := by simp [hr₁.stack_eq, hs]
    obtain ⟨ts₂, e₂, c₃, m₂, hr₂, hm₂, hrem₂, h₂⟩ := ih m₁ (by omega) hs₂ hstart hrem₁ h₁
    exact ⟨_, _, _, _, ReadsClosing.cons ht hr₂, by omega, hrem₂, h₂⟩
  · -- an end event: it closes `o` itself, after an empty forest
    exact ⟨[], e, _, fuel, ReadsClosing.of_next_end hnext hend, by omega,
      by simp only [Cursor.remaining]; omega, h⟩
  · -- an event that opens nothing joins the forest in front
    obtain ⟨ts, e', c₂, m, hr, hm, hrem', h'⟩ :=
      ih fuel (by omega) (by simpa using hs) hstart (by simp only [Cursor.remaining]; omega) h
    exact ⟨_, _, _, _, ReadsClosing.cons (ReadsTree.of_next_leaf hnext hb hend) hr, by omega,
      hrem', h'⟩

theorem skip_run :
    (Reading.skip context).run c =
      match (Reading.next context).run c with
      | .ok first c₁ =>
        if first.kind.isBegin then (closeTo c.stack.length context c.events.size).run c₁
        else .ok () c₁
      | .error err c₁ => .error err c₁ := by
  simp only [Reading.skip, EStateM.run, bind, EStateM.bind, get, getThe, MonadStateOf.get,
    EStateM.get]
  rcases (Reading.next context) c with ⟨first, c₁⟩ | ⟨err, c₁⟩
  · dsimp only
    split <;> rfl
  · rfl

/-- **Skipping reads one element.** Started anywhere but on an end event that closes an open
container, a successful skip reads one tree. -/
theorem skip_reads (hat : c.AtElement) (h : (Reading.skip context).run c = .ok () c') :
    ∃ t, ReadsTree c c' t := by
  rw [skip_run] at h
  rcases hnext : (Reading.next context).run c with ⟨first, c₁⟩ | ⟨err, c₁⟩
  case error => rw [hnext] at h; cases h
  rw [hnext] at h
  dsimp only at h
  obtain ⟨hp, hcases⟩ := next_ok_cases context hnext
  by_cases hb : first.kind.isBegin = true
  · -- a begin event: the loop closes its container, and stops there
    rw [if_pos hb] at h
    obtain ⟨-, -, rfl⟩ := hcases.resolve_right fun h' => by
      rcases h' with ⟨hend, -⟩ | ⟨hb', -⟩
      · simp [EventKind.isBegin_false_of_isEnd hend] at hb
      · simp [hb] at hb'
    have hrem := Cursor.remaining_of_peek hp
    obtain ⟨ts, e, c₂, m, hr, -, -, h₂⟩ := closeTo_split _ rfl le_rfl
      (by simp only [Cursor.remaining] at hrem ⊢; omega) h
    have hs₂ : c₂.stack.length ≤ c.stack.length := by simp [hr.stack_eq]
    rw [closeTo_done m hs₂] at h₂
    cases h₂
    exact ⟨_, ReadsTree.of_next_begin hnext hb hr⟩
  · -- any other event is read alone: an end event here would close nothing
    rw [if_neg hb] at h
    cases h
    have hend : first.kind.isEnd = false := by
      by_contra hend
      have hempty := hat first hp (by simpa using hend)
      rcases hcases with ⟨hb', -⟩ | ⟨-, o, ns, rest, hs, -⟩ | ⟨-, hend', -⟩
      · exact hb hb'
      · simp [hempty] at hs
      · simp [hend'] at hend
    exact ⟨_, ReadsTree.of_next_leaf hnext (by simpa using hb) hend⟩

theorem subtree_run :
    (Reading.subtree context).run c =
      match (Reading.skip context).run c with
      | .ok _ c₁ => .ok (c₁.events.extract c.pos c₁.pos) c₁
      | .error err c₁ => .error err c₁ := by
  simp only [Reading.subtree, EStateM.run, bind, EStateM.bind, get, getThe, MonadStateOf.get,
    EStateM.get, pure, EStateM.pure]
  rcases (Reading.skip context) c with ⟨u, c₁⟩ | ⟨err, c₁⟩ <;> rfl

/-- **A subtree is the events read.** A successful subtree read reads one tree, and returns
its events. -/
theorem subtree_reads {v : View} (hat : c.AtElement)
    (h : (Reading.subtree context).run c = .ok v c') :
    ∃ t, ReadsTree c c' t ∧ v.toList = t.events := by
  rw [subtree_run] at h
  rcases hskip : (Reading.skip context).run c with ⟨u, c₁⟩ | ⟨err, c₁⟩
  case error => rw [hskip] at h; cases h
  rw [hskip] at h
  dsimp only at h
  cases h
  obtain ⟨t, ht⟩ := skip_reads hat hskip
  refine ⟨t, ht, ?_⟩
  obtain ⟨-, hnext, rfl⟩ := ht
  rw [Array.toList_extract, List.extract_eq_take_drop, List.prefix_iff_eq_take.1 hnext]
  simp

/-- A read of an expected kind read that kind. -/
theorem expect_ok {kind : EventKind} {e : Event} (h : (Reading.expect kind context).run c = .ok e c') :
    (Reading.next context).run c = .ok e c' ∧ e.kind = kind := by
  simp only [Reading.expect, EStateM.run, bind, EStateM.bind] at h
  rcases hnext : Reading.next context c with ⟨e', c₁⟩ | ⟨err, c₁⟩
  · rw [hnext] at h
    dsimp only at h
    by_cases hk : e'.kind = kind
    · simp [hk, pure, EStateM.pure] at h
      obtain ⟨rfl, rfl⟩ := h
      exact ⟨hnext, hk⟩
    · simp [hk, throw, throwThe, MonadExceptOf.throw, EStateM.throw, EStateM.bind] at h
  · rw [hnext] at h
    cases h

end Reading

end GraphViews

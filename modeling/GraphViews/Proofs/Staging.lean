import Mathlib
import GraphViews.Proofs.Discrimination
import GraphViews.Proofs.Elements
/-!
Staging reads one element, within its fuel.

Staging walks the events of a view with the template's nodes. A successful call reads one
element of the view (`ReadsTree`, from `GraphViews.Proofs.Elements`): one event that opens and
closes nothing, or a begin event, the elements inside it and the end event that closes it; the
reader's open containers are then as they were. Every loop of staging reads at least one event
before it goes round again, so the fuel that staging carries, eight units per event of the view,
never runs out: with more fuel, every outcome is the same.

# Main statements

* `Stage.stageReads`: what every successful staging call reads, at every fuel.
* `Stage.stageStable`: above a bound of four units per unread event, more fuel changes no
  outcome of any staging call.
* `staging_reads_one_element`: both for a node and for the root of a template, with skipping
  and reading a subtree.

# How the proofs go

The staging functions are mutually recursive through their fuel, so both statements about them
are structures with one field per function (`StageReads`, `StageStable`), proved by induction
on the fuel with one lemma per function for the step. Each step lemma peels the function's do
block with the inversions `bind_ok`, `peek_ok`, `guard_ok` and their kin. For the bound, the
unread events are worth four units each and each function has an offset: a call to another
function on the same event has a lower offset, and a call after reading an event an offset at
most three higher; `stageReads` gives the event read.
-/
namespace GraphViews

-- ============================================================ staging steps, inverted

theorem Event.kind_of_isNullValue {e : Event} (h : e.isNullValue = true) : e.kind = .value := by
  simp only [Event.isNullValue, Bool.and_eq_true, beq_iff_eq] at h
  exact h.1

namespace Stage

variable {ctx : Context} {c c' : Cursor}

theorem bind_ok {α β : Type} {x : Stage α} {f : α → Stage β} {b : β}
    (h : (x >>= f) c = .ok b c') : ∃ a c₁, x c = .ok a c₁ ∧ f a c₁ = .ok b c' := by
  simp only [bind, EStateM.bind] at h
  split at h
  · exact ⟨_, _, ‹_›, h⟩
  · cases h

theorem map_ok {α β : Type} {x : Stage α} {f : α → β} {b : β} (h : (f <$> x) c = .ok b c') :
    ∃ a, x c = .ok a c' ∧ b = f a := by
  simp only [Functor.map, EStateM.map] at h
  split at h
  · cases h
    exact ⟨_, ‹_›, rfl⟩
  · cases h

theorem pure_ok {α : Type} {a b : α} (h : (pure a : Stage α) c = .ok b c') : b = a ∧ c' = c := by
  simp only [pure, EStateM.pure, EStateM.Result.ok.injEq] at h
  exact ⟨h.1.symm, h.2.symm⟩

theorem get_ok {a : Cursor} (h : (get : Stage Cursor) c = .ok a c') : a = c ∧ c' = c := by
  simp only [get, getThe, MonadStateOf.get, EStateM.get, EStateM.Result.ok.injEq] at h
  exact ⟨h.1.symm, h.2.symm⟩

theorem fail_ne_ok {α : Type} {k : ViewErrorKind} {a : α} : Stage.fail ctx k c ≠ .ok a c' := by
  simp [Stage.fail, throw, throwThe, MonadExceptOf.throw, EStateM.throw]

theorem read_ok_run {α : Type} {r : Reading α} {a : α} (h : Stage.read ctx r c = .ok a c') :
    r.run c = .ok a c' := by
  simp only [Stage.read] at h
  rcases hr : r c with ⟨a', c₁⟩ | ⟨err, c₁⟩ <;> rw [hr] at h <;> cases h
  exact hr

theorem next_ok_run {context : String} {e : Event} (h : Stage.next ctx context c = .ok e c') :
    (Reading.next context).run c = .ok e c' :=
  read_ok_run h

theorem peek_ok {context : String} {e : Event} (h : Stage.peek ctx context c = .ok e c') :
    c' = c ∧ c.peek = some e := by
  cases hp : c.peek with
  | none =>
    simp [Stage.peek, hp, bind, EStateM.bind, get, getThe, MonadStateOf.get, EStateM.get,
      Stage.fail, throw, throwThe, MonadExceptOf.throw, EStateM.throw] at h
  | some e' =>
    rw [peek_some context hp] at h
    cases h
    exact ⟨rfl, rfl⟩

/-- Converting a scalar reads nothing. -/
theorem scalarToModel_ok {n : Node} {v w : Scalar} (h : scalarToModel ctx n v c = .ok w c') :
    c' = c := by
  simp only [scalarToModel] at h
  cases hconv : toModel (n.info.converter <|> n.info.scalarKind.bind ctx.converterFor) v
      n.info.scalarKind with
  | ok w' => rw [hconv] at h; exact (pure_ok h).2
  | error err => rw [hconv] at h; exact absurd h fail_ne_ok

theorem keyToModel_ok {n : Node} {k w : Scalar} (h : keyToModel ctx n k c = .ok w c') :
    c' = c := by
  simp only [keyToModel] at h
  cases hconv : toModel (n.info.keyConverter <|> n.info.keyKind.bind ctx.converterFor) k
      n.info.keyKind with
  | ok w' => rw [hconv] at h; exact (pure_ok h).2
  | error err => rw [hconv] at h; exact absurd h fail_ne_ok

theorem scalar_ok {n : Node} {e : Event} {v : Staged} (h : Stage.scalar ctx n e c = .ok v c') :
    c' = c := by
  simp only [Stage.scalar] at h
  cases hw : ctx.willInjectValue n (e.value.getD .null) with
  | none => rw [hw] at h; exact (pure_ok h).2
  | some w =>
    rw [hw] at h
    dsimp only at h
    split at h
    · exact (pure_ok h).2
    · obtain ⟨w', hw', -⟩ := map_ok h
      exact scalarToModel_ok hw'

/-- An unknown property is skipped. -/
theorem unknown_ok {name : String} {u : Unit} (h : unknown ctx name c = .ok u c') :
    (Reading.skip "unknown property").run c = .ok () c' := by
  simp only [unknown] at h
  split at h
  · exact read_ok_run h
  · exact absurd h fail_ne_ok

/-- Where no end event is peeked, an unknown property is one tree. -/
theorem unknown_reads {name : String} {u : Unit} (hat : c.AtElement)
    (h : unknown ctx name c = .ok u c') : ∃ t, ReadsTree c c' t :=
  Reading.skip_reads hat (unknown_ok h)

/-- A value, metadata or discriminator event read is one tree. -/
theorem leaf_of_next {context : String} {e : Event} {c₁ : Cursor}
    (hnext : (Reading.next context).run c = .ok e c₁)
    (hk : e.kind = .value ∨ e.kind = .metadata ∨ e.kind = .discriminator) :
    ReadsTree c c₁ (.leaf e) := by
  refine ReadsTree.of_next_leaf hnext ?_ ?_ <;>
    rcases hk with hk | hk | hk <;> simp [hk, EventKind.isBegin, EventKind.isEnd]

/-- A null value is one event. -/
theorem null_reads {context : String} {e : Event} {c₁ : Cursor} {x v : Staged}
    (hnext : Stage.next ctx context c = .ok e c₁) (hnull : e.isNullValue = true)
    (h : (pure x : Stage Staged) c₁ = .ok v c') : ReadsTree c c' (.leaf e) := by
  obtain ⟨-, rfl⟩ := pure_ok h
  exact leaf_of_next (next_ok_run hnext) (.inl (Event.kind_of_isNullValue hnull))

/-- A begin event of a kind, then what closes it. -/
theorem begin_reads {context : String} {b e : Event} {c₁ : Cursor} {ts : List ViewTree}
    {k : EventKind} (hnext : (Reading.next context).run c = .ok b c₁) (hk : b.kind = k)
    (hbegin : k.isBegin = true) (hclose : ReadsClosing c₁ c' ts e) :
    ReadsTree c c' (.node b ts e) :=
  ReadsTree.of_next_begin hnext (hk ▸ hbegin) hclose

/-- A discriminator is one event that opens nothing. -/
theorem discriminator_reads {d : Node} {candidates : List ModelType} {t : ModelType}
    (h : discriminator ctx d candidates c = .ok t c') : ∃ tr, ReadsTree c c' tr := by
  simp only [discriminator] at h
  obtain ⟨e, c₁, hnext, h⟩ := bind_ok h
  have hnext := next_ok_run hnext
  split at h
  next hkind =>
    -- a discriminator or a value: the resolution reads nothing more
    have hc : c' = c₁ := by
      cases hs : d.info.discriminator with
      | none => rw [hs] at h; exact absurd h fail_ne_ok
      | some s =>
        rw [hs] at h
        dsimp only at h
        cases hr : s.resolve (e.value.getD .null) candidates with
        | ok t' => rw [hr] at h; exact (pure_ok h).2
        | error k => rw [hr] at h; exact absurd h fail_ne_ok
    subst hc
    have hk : e.kind = .discriminator ∨ e.kind = .value := by simpa using hkind
    exact ⟨_, leaf_of_next hnext (hk.elim (fun h => .inr (.inr h)) .inl)⟩
  next =>
    obtain ⟨u, c₂, hu, -⟩ := bind_ok h
    exact absurd hu fail_ne_ok

/-- The event read is the one peeked. -/
theorem peeked_next {context : String} {e e' : Event} (hp : c.peek = some e)
    (h : (Reading.next context).run c = .ok e' c') : e' = e := by
  have := (Reading.next_ok_cases context h).1
  rw [hp, Option.some.injEq] at this
  exact this.symm

-- ============================================================ what staging reads

/-- What every successful staging call reads, at one fuel: a value, an object, a collection, a
map or an entry is one tree; the loops inside an open container read a forest and the end that
closes it. A node reads one tree where it does not stand on an end event. -/
structure StageReads (fuel : Nat) : Prop where
  node : ∀ {ctx n c v c'}, c.AtElement → Stage.node fuel ctx n c = .ok v c' →
    ∃ t, ReadsTree c c' t
  object : ∀ {ctx n ty c v c'}, Stage.object fuel ctx n ty c = .ok v c' → ∃ t, ReadsTree c c' t
  body : ∀ {ctx n entity c v c'}, Stage.body fuel ctx n entity c = .ok v c' →
    ∃ ts e, ReadsClosing c c' ts e
  array : ∀ {ctx n c v c'}, Stage.array fuel ctx n c = .ok v c' → ∃ t, ReadsTree c c' t
  elements : ∀ {ctx n acc c v c'}, Stage.elements fuel ctx n acc c = .ok v c' →
    ∃ ts e, ReadsClosing c c' ts e
  element : ∀ {ctx n c v c'}, Stage.element fuel ctx n c = .ok v c' → ∃ t, ReadsTree c c' t
  map : ∀ {ctx n c v c'}, Stage.map fuel ctx n c = .ok v c' → ∃ t, ReadsTree c c' t
  namedEntries : ∀ {ctx n acc c v c'}, Stage.namedEntries fuel ctx n acc c = .ok v c' →
    ∃ ts e, ReadsClosing c c' ts e
  entryList : ∀ {ctx n acc c v c'}, Stage.entryList fuel ctx n acc c = .ok v c' →
    ∃ ts e, ReadsClosing c c' ts e
  entry : ∀ {ctx n c v c'}, Stage.entry fuel ctx n c = .ok v c' → ∃ t, ReadsTree c c' t
  entryFields : ∀ {ctx n key value c v c'}, Stage.entryFields fuel ctx n key value c = .ok v c' →
    ∃ ts e, ReadsClosing c c' ts e

/-- Out of fuel, staging reads nothing: it fails. -/
theorem stageReads_zero : StageReads 0 where
  node _ h := absurd h fail_ne_ok
  object h := absurd h fail_ne_ok
  body h := absurd h fail_ne_ok
  array h := absurd h fail_ne_ok
  elements h := absurd h fail_ne_ok
  element h := absurd h fail_ne_ok
  map h := absurd h fail_ne_ok
  namedEntries h := absurd h fail_ne_ok
  entryList h := absurd h fail_ne_ok
  entry h := absurd h fail_ne_ok
  entryFields h := absurd h fail_ne_ok

variable {fuel : Nat} {n : Node} {v : Staged}

/-- The end of a loop: the end event peeked is read, and closes the container. -/
theorem closing_of_end {α : Type} {context : String} {e : Event} {x a : α}
    (hp : c.peek = some e) (hend : e.kind.isEnd = true)
    (h : (Stage.next ctx context >>= fun _ => (pure x : Stage α)) c = .ok a c') :
    ReadsClosing c c' [] e := by
  obtain ⟨e', c₁, hnext, hdone⟩ := bind_ok h
  obtain ⟨-, rfl⟩ := pure_ok hdone
  have hnext := next_ok_run hnext
  rw [← peeked_next hp hnext] at hend ⊢
  exact ReadsClosing.of_next_end hnext hend

theorem object_reads (ih : StageReads fuel) {ty : ModelType}
    (h : object (fuel + 1) ctx n ty c = .ok v c') : ∃ t, ReadsTree c c' t := by
  simp only [object] at h
  obtain ⟨e, c₁, hnext', h⟩ := bind_ok h
  have hnext := next_ok_run hnext'
  split at h
  next hb =>
    -- a begin event: the body reads up to the end that closes it
    obtain ⟨w, hbody, -⟩ := map_ok h
    obtain ⟨ts, e', hclose⟩ := ih.body hbody
    have hb : e.kind.isBegin = true := by simp_all [EventKind.isBegin]
    exact ⟨_, ReadsTree.of_next_begin hnext hb hclose⟩
  next =>
    split at h
    next hnull => exact ⟨_, null_reads hnext' hnull h⟩
    next => exact absurd h fail_ne_ok

theorem body_reads (ih : StageReads fuel) {entity : Entity} {w : Entity}
    (h : body (fuel + 1) ctx n entity c = .ok w c') : ∃ ts e, ReadsClosing c c' ts e := by
  simp only [body] at h
  obtain ⟨e, c₁, hpeek, hprop⟩ := bind_ok h
  obtain ⟨hc₁, hp⟩ := peek_ok hpeek
  subst c₁
  split at hprop
  next hend =>
    -- the end of the object
    exact ⟨[], e, closing_of_end hp hend hprop⟩
  next hend =>
    -- a property: one tree, then the rest of the object
    have hat := Cursor.atElement_of_peek hp (by simpa using hend)
    cases hname : e.name with
    | none => rw [hname] at hprop; exact absurd hprop fail_ne_ok
    | some name =>
    rw [hname] at hprop
    obtain ⟨d, c₂, hget, hroute⟩ := bind_ok hprop
    obtain ⟨hd, hc₂⟩ := get_ok hget
    subst d c₂
    cases hchild : n.route? name (c.effectiveNamespace e) entity.type with
    | none =>
      -- an unknown property is skipped
      rw [hchild] at hroute
      obtain ⟨u, c₂, hunknown, hrest⟩ := bind_ok hroute
      obtain ⟨t, ht⟩ := unknown_reads hat hunknown
      obtain ⟨ts, e', hc⟩ := ih.body hrest
      exact ⟨_, _, ReadsClosing.cons ht hc⟩
    | some child =>
      rw [hchild] at hroute
      dsimp only at hroute
      split at hroute
      next =>
        -- a discriminator resolves the type
        obtain ⟨ty, c₂, hdisc, hrest⟩ := bind_ok hroute
        obtain ⟨t, ht⟩ := discriminator_reads hdisc
        obtain ⟨ts, e', hc⟩ := ih.body hrest
        exact ⟨_, _, ReadsClosing.cons ht hc⟩
      next =>
        -- any other child stages one tree
        obtain ⟨staged, c₂, hnode, hrest⟩ := bind_ok hroute
        obtain ⟨t, ht⟩ := ih.node hat hnode
        obtain ⟨ts, e', hc⟩ := ih.body hrest
        exact ⟨_, _, ReadsClosing.cons ht hc⟩

/-- A read checked against a kind read that kind. -/
theorem guard_ok {α : Type} {k : EventKind} {e : Event} {context : String} {x : Stage α} {a : α}
    (h : (if (e.kind != k) = true then (unexpected ctx context e : Stage Unit) >>= fun _ => x
      else x) c = .ok a c') : e.kind = k ∧ x c = .ok a c' := by
  split at h
  next => obtain ⟨u, c₂, hu, -⟩ := bind_ok h; exact absurd hu fail_ne_ok
  next hk => exact ⟨by simpa using hk, h⟩

theorem node_reads (ih : StageReads fuel) (hat : c.AtElement)
    (h : node (fuel + 1) ctx n c = .ok v c') : ∃ t, ReadsTree c c' t := by
  cases hk : n.kind <;> simp only [node, hk] at h
  case value =>
    -- one value event
    obtain ⟨e, c₁, hnext, hrest⟩ := bind_ok h
    obtain ⟨hk, hs⟩ := guard_ok hrest
    rw [scalar_ok hs]
    exact ⟨_, leaf_of_next (next_ok_run hnext) (.inl hk)⟩
  case object | reference =>
    cases ht : n.modelType with
    | none => rw [ht] at h; exact absurd h fail_ne_ok
    | some ty => rw [ht] at h; exact ih.object h
  case envelope =>
    -- the begin event, then the body up to its end
    obtain ⟨b, c₁, hexpect, hrest⟩ := bind_ok h
    obtain ⟨hnext, hb⟩ := Reading.expect_ok (read_ok_run hexpect)
    cases ht : n.modelType with
    | none => rw [ht] at hrest; exact absurd hrest fail_ne_ok
    | some ty =>
      rw [ht] at hrest
      obtain ⟨w, hbody, -⟩ := map_ok hrest
      obtain ⟨ts, e', hclose⟩ := ih.body hbody
      exact ⟨_, begin_reads hnext hb rfl hclose⟩
  case arrayOfValues | arrayOfObjects => exact ih.array h
  case mapOfValues | mapOfObjects => exact ih.map h
  case metadata =>
    obtain ⟨e, c₁, hnext, hrest⟩ := bind_ok h
    split at hrest
    next hkind =>
      obtain ⟨-, rfl⟩ := pure_ok hrest
      have hk : e.kind = .metadata ∨ e.kind = .value := by simpa using hkind
      exact ⟨_, leaf_of_next (next_ok_run hnext) (hk.elim (fun h => .inr (.inl h)) .inl)⟩
    next => exact absurd hrest fail_ne_ok
  case splice =>
    -- the spliced subtree
    obtain ⟨view, hsub, -⟩ := map_ok h
    obtain ⟨t, ht, -⟩ := Reading.subtree_reads hat (read_ok_run hsub)
    exact ⟨t, ht⟩
  case discriminator | subtype =>
    -- consumed by the container: skipped here
    obtain ⟨u, c₁, hskip, hrest⟩ := bind_ok h
    obtain ⟨-, rfl⟩ := pure_ok hrest
    exact Reading.skip_reads hat (read_ok_run hskip)

theorem array_reads (ih : StageReads fuel) (h : array (fuel + 1) ctx n c = .ok v c') :
    ∃ t, ReadsTree c c' t := by
  simp only [array] at h
  obtain ⟨e, c₁, hnext, hrest⟩ := bind_ok h
  split at hrest
  next hnull => exact ⟨_, null_reads hnext hnull hrest⟩
  next =>
    -- the begin event, then the elements up to the end
    obtain ⟨hk, hel⟩ := guard_ok hrest
    obtain ⟨w, hel, -⟩ := map_ok hel
    obtain ⟨ts, e', hclose⟩ := ih.elements hel
    exact ⟨_, begin_reads (next_ok_run hnext) hk rfl hclose⟩

theorem elements_reads (ih : StageReads fuel) {acc w : List Staged}
    (h : elements (fuel + 1) ctx n acc c = .ok w c') : ∃ ts e, ReadsClosing c c' ts e := by
  simp only [elements] at h
  obtain ⟨e, c₁, hpeek, hrest⟩ := bind_ok h
  obtain ⟨hc₁, hp⟩ := peek_ok hpeek
  subst c₁
  split at hrest
  next hend => exact ⟨[], e, closing_of_end hp hend hrest⟩
  next =>
    -- one element, then the rest of the collection
    obtain ⟨staged, c₂, hel, hmore⟩ := bind_ok hrest
    obtain ⟨t, ht⟩ := ih.element hel
    obtain ⟨ts, e', hc⟩ := ih.elements hmore
    exact ⟨_, _, ReadsClosing.cons ht hc⟩

theorem element_reads (ih : StageReads fuel) (h : element (fuel + 1) ctx n c = .ok v c') :
    ∃ t, ReadsTree c c' t := by
  simp only [element] at h
  split at h
  next =>
    -- an object element
    cases ht : n.modelType with
    | none => rw [ht] at h; exact absurd h fail_ne_ok
    | some ty => rw [ht] at h; exact ih.object h
  next =>
    -- a scalar element: one value event
    obtain ⟨e, c₁, hnext, hrest⟩ := bind_ok h
    obtain ⟨hk, hs⟩ := guard_ok hrest
    rw [scalar_ok hs]
    exact ⟨_, leaf_of_next (next_ok_run hnext) (.inl hk)⟩

theorem map_reads (ih : StageReads fuel) (h : map (fuel + 1) ctx n c = .ok v c') :
    ∃ t, ReadsTree c c' t := by
  simp only [map] at h
  obtain ⟨e, c₁, hnext, hrest⟩ := bind_ok h
  split at hrest
  next hnull => exact ⟨_, null_reads hnext hnull hrest⟩
  next =>
    split at hrest
    next =>
      -- keyed by names: an object of entries
      obtain ⟨hk, hentries⟩ := guard_ok hrest
      obtain ⟨w, hentries, -⟩ := map_ok hentries
      obtain ⟨ts, e', hclose⟩ := ih.namedEntries hentries
      exact ⟨_, begin_reads (next_ok_run hnext) hk rfl hclose⟩
    next =>
      -- keyed by other scalars: an array of entries
      obtain ⟨hk, hentries⟩ := guard_ok hrest
      obtain ⟨w, hentries, -⟩ := map_ok hentries
      obtain ⟨ts, e', hclose⟩ := ih.entryList hentries
      exact ⟨_, begin_reads (next_ok_run hnext) hk rfl hclose⟩

theorem namedEntries_reads (ih : StageReads fuel) {acc w : List (Scalar × Staged)}
    (h : namedEntries (fuel + 1) ctx n acc c = .ok w c') : ∃ ts e, ReadsClosing c c' ts e := by
  simp only [namedEntries] at h
  obtain ⟨e, c₁, hpeek, hrest⟩ := bind_ok h
  obtain ⟨hc₁, hp⟩ := peek_ok hpeek
  subst c₁
  split at hrest
  next hend => exact ⟨[], e, closing_of_end hp hend hrest⟩
  next =>
    cases hname : e.name with
    | none => rw [hname] at hrest; exact absurd hrest fail_ne_ok
    | some name =>
      -- the key is the name, and the value one element
      rw [hname] at hrest
      obtain ⟨key, c₂, hkey, hvalue⟩ := bind_ok hrest
      have hc₂ := keyToModel_ok hkey
      subst c₂
      obtain ⟨staged, c₃, hel, hmore⟩ := bind_ok hvalue
      obtain ⟨t, ht⟩ := ih.element hel
      obtain ⟨ts, e', hc⟩ := ih.namedEntries hmore
      exact ⟨_, _, ReadsClosing.cons ht hc⟩

theorem entryList_reads (ih : StageReads fuel) {acc w : List (Scalar × Staged)}
    (h : entryList (fuel + 1) ctx n acc c = .ok w c') : ∃ ts e, ReadsClosing c c' ts e := by
  simp only [entryList] at h
  obtain ⟨e, c₁, hpeek, hrest⟩ := bind_ok h
  obtain ⟨hc₁, hp⟩ := peek_ok hpeek
  subst c₁
  split at hrest
  next hend => exact ⟨[], e, closing_of_end hp hend hrest⟩
  next =>
    -- one entry, then the rest of the map
    obtain ⟨entry, c₂, hentry, hmore⟩ := bind_ok hrest
    obtain ⟨t, ht⟩ := ih.entry hentry
    obtain ⟨ts, e', hc⟩ := ih.entryList hmore
    exact ⟨_, _, ReadsClosing.cons ht hc⟩

theorem entry_reads (ih : StageReads fuel) {w : Scalar × Staged}
    (h : entry (fuel + 1) ctx n c = .ok w c') : ∃ t, ReadsTree c c' t := by
  simp only [entry] at h
  obtain ⟨b, c₁, hexpect, hrest⟩ := bind_ok h
  obtain ⟨hnext, hb⟩ := Reading.expect_ok (read_ok_run hexpect)
  obtain ⟨⟨key, value⟩, c₂, hfields, hkey⟩ := bind_ok hrest
  obtain ⟨ts, e', hclose⟩ := ih.entryFields hfields
  -- checking the key reads nothing more
  have hc₂ : c' = c₂ := by
    dsimp only at hkey
    cases key with
    | none => exact absurd hkey fail_ne_ok
    | some k =>
      dsimp only at hkey
      split at hkey
      next => exact absurd hkey fail_ne_ok
      next => exact (pure_ok hkey).2
  subst hc₂
  exact ⟨_, begin_reads hnext hb rfl hclose⟩

theorem entryFields_reads (ih : StageReads fuel) {key : Option Scalar} {value : Staged}
    {w : Option Scalar × Staged} (h : entryFields (fuel + 1) ctx n key value c = .ok w c') :
    ∃ ts e, ReadsClosing c c' ts e := by
  simp only [entryFields] at h
  obtain ⟨e, c₁, hpeek, hrest⟩ := bind_ok h
  obtain ⟨hc₁, hp⟩ := peek_ok hpeek
  subst c₁
  split at hrest
  next hend => exact ⟨[], e, closing_of_end hp hend hrest⟩
  next hend =>
    have hat := Cursor.atElement_of_peek hp (by simpa using hend)
    cases hname : e.name with
    | none => rw [hname] at hrest; exact absurd hrest fail_ne_ok
    | some name =>
    rw [hname] at hrest
    -- each field is one tree: the key a value event, the value an element, any other skipped
    have hfield : ∃ t c₂ key' value', ReadsTree c c₂ t ∧
        entryFields fuel ctx n key' value' c₂ = .ok w c' := by
      by_cases hk : name = "key"
      · subst hk
        simp only at hrest
        obtain ⟨e', c₂, hexpect, hconv⟩ := bind_ok hrest
        obtain ⟨hnext, hk'⟩ := Reading.expect_ok (read_ok_run hexpect)
        obtain ⟨k, c₃, hkey, hmore⟩ := bind_ok hconv
        have hc₃ := keyToModel_ok hkey
        subst c₃
        exact ⟨_, _, _, _, leaf_of_next hnext (.inl hk'), hmore⟩
      · by_cases hv : name = "value"
        · subst hv
          simp only at hrest
          obtain ⟨staged, c₂, hel, hmore⟩ := bind_ok hrest
          obtain ⟨t, ht⟩ := ih.element hel
          exact ⟨_, _, _, _, ht, hmore⟩
        · simp only at hrest
          obtain ⟨u, c₂, hunknown, hmore⟩ := bind_ok hrest
          obtain ⟨t, ht⟩ := unknown_reads hat hunknown
          exact ⟨_, _, _, _, ht, hmore⟩
    obtain ⟨t, c₂, key', value', ht, hmore⟩ := hfield
    obtain ⟨ts, e', hc⟩ := ih.entryFields hmore
    exact ⟨_, _, ReadsClosing.cons ht hc⟩

/-- **What staging reads.** At every fuel, every successful staging call reads one tree, or a
forest and the end that closes the innermost open container. Induction on the fuel, one step
lemma per function. -/
theorem stageReads : ∀ fuel, StageReads fuel
  | 0 => stageReads_zero
  | fuel + 1 =>
    have ih := stageReads fuel
    { node := node_reads ih
      object := object_reads ih
      body := body_reads ih
      array := array_reads ih
      elements := elements_reads ih
      element := element_reads ih
      map := map_reads ih
      namedEntries := namedEntries_reads ih
      entryList := entryList_reads ih
      entry := entry_reads ih
      entryFields := entryFields_reads ih }

-- ============================================================ the fuel is enough

theorem bind_congr {α β : Type} {x y : Stage α} {f g : α → Stage β} (hxy : x c = y c)
    (hfg : ∀ a c₁, x c = .ok a c₁ → f a c₁ = g a c₁) : (x >>= f) c = (y >>= g) c := by
  simp only [bind, EStateM.bind]
  rw [← hxy]
  rcases hx : x c with ⟨a, c₁⟩ | ⟨err, c₁⟩
  · exact hfg a c₁ hx
  · rfl

theorem map_congr {α β : Type} {x y : Stage α} {f : α → β} (hxy : x c = y c) :
    (f <$> x) c = (f <$> y) c := by
  simp only [Functor.map, EStateM.map, hxy]

/-- A check of the kind read agrees when what follows it does. -/
theorem guard_congr {α : Type} {k : EventKind} {e : Event} {context : String} {x y : Stage α}
    (hxy : x c = y c) :
    (if (e.kind != k) = true then (unexpected ctx context e : Stage Unit) >>= fun _ => x
      else x) c =
    (if (e.kind != k) = true then (unexpected ctx context e : Stage Unit) >>= fun _ => y
      else y) c := by
  split
  next => exact bind_congr rfl fun _ _ hu => absurd hu fail_ne_ok
  next => exact hxy

theorem remaining_lt_of_next {context : String} {e : Event}
    (h : Stage.next ctx context c = .ok e c') : c'.remaining < c.remaining :=
  Reading.remaining_lt (next_ok_run h)

theorem remaining_lt_of_expect {context : String} {k : EventKind} {e : Event}
    (h : Stage.read ctx (Reading.expect k context) c = .ok e c') : c'.remaining < c.remaining :=
  Reading.remaining_lt (Reading.expect_ok (read_ok_run h)).1

/-- Above its bound, one more unit of fuel changes no outcome of a staging call. The bound is
four units per unread event plus an offset for the function: a call to another function on the
same event has a lower offset, one after reading an event an offset at most three higher. -/
structure StageStable (fuel : Nat) : Prop where
  node : ∀ {ctx n c}, 4 * c.remaining + 1 < fuel →
    Stage.node (fuel + 1) ctx n c = Stage.node fuel ctx n c
  object : ∀ {ctx n ty c}, 4 * c.remaining < fuel →
    Stage.object (fuel + 1) ctx n ty c = Stage.object fuel ctx n ty c
  body : ∀ {ctx n entity c}, 4 * c.remaining + 2 < fuel →
    Stage.body (fuel + 1) ctx n entity c = Stage.body fuel ctx n entity c
  array : ∀ {ctx n c}, 4 * c.remaining < fuel →
    Stage.array (fuel + 1) ctx n c = Stage.array fuel ctx n c
  elements : ∀ {ctx n acc c}, 4 * c.remaining + 2 < fuel →
    Stage.elements (fuel + 1) ctx n acc c = Stage.elements fuel ctx n acc c
  element : ∀ {ctx n c}, 4 * c.remaining + 1 < fuel →
    Stage.element (fuel + 1) ctx n c = Stage.element fuel ctx n c
  map : ∀ {ctx n c}, 4 * c.remaining < fuel → Stage.map (fuel + 1) ctx n c = Stage.map fuel ctx n c
  namedEntries : ∀ {ctx n acc c}, 4 * c.remaining + 2 < fuel →
    Stage.namedEntries (fuel + 1) ctx n acc c = Stage.namedEntries fuel ctx n acc c
  entryList : ∀ {ctx n acc c}, 4 * c.remaining + 1 < fuel →
    Stage.entryList (fuel + 1) ctx n acc c = Stage.entryList fuel ctx n acc c
  entry : ∀ {ctx n c}, 4 * c.remaining < fuel →
    Stage.entry (fuel + 1) ctx n c = Stage.entry fuel ctx n c
  entryFields : ∀ {ctx n key value c}, 4 * c.remaining + 2 < fuel →
    Stage.entryFields (fuel + 1) ctx n key value c = Stage.entryFields fuel ctx n key value c

/-- No bound is below no fuel. -/
theorem stageStable_zero : StageStable 0 where
  node h := absurd h (Nat.not_lt_zero _)
  object h := absurd h (Nat.not_lt_zero _)
  body h := absurd h (Nat.not_lt_zero _)
  array h := absurd h (Nat.not_lt_zero _)
  elements h := absurd h (Nat.not_lt_zero _)
  element h := absurd h (Nat.not_lt_zero _)
  map h := absurd h (Nat.not_lt_zero _)
  namedEntries h := absurd h (Nat.not_lt_zero _)
  entryList h := absurd h (Nat.not_lt_zero _)
  entry h := absurd h (Nat.not_lt_zero _)
  entryFields h := absurd h (Nat.not_lt_zero _)

variable {m : Nat}

theorem object_stable (ih : StageStable m) {ty : ModelType} (hb : 4 * c.remaining < m + 1) :
    object (m + 2) ctx n ty c = object (m + 1) ctx n ty c := by
  simp only [object]
  refine bind_congr rfl fun e c₁ hnext => ?_
  have hrem := remaining_lt_of_next hnext
  split
  next => exact map_congr (ih.body (by omega))
  next => rfl

theorem node_stable (ih : StageStable m) (hb : 4 * c.remaining + 1 < m + 1) :
    node (m + 2) ctx n c = node (m + 1) ctx n c := by
  cases hk : n.kind <;> simp only [node, hk]
  case object | reference =>
    cases n.modelType with
    | none => rfl
    | some ty => exact ih.object (by omega)
  case envelope =>
    -- the body is read after the begin event
    refine bind_congr rfl fun b c₁ hexpect => ?_
    have hrem := remaining_lt_of_expect hexpect
    cases n.modelType with
    | none => rfl
    | some ty => exact map_congr (ih.body (by omega))
  case arrayOfValues | arrayOfObjects => exact ih.array (by omega)
  case mapOfValues | mapOfObjects => exact ih.map (by omega)

theorem body_stable (ih : StageStable m) {entity : Entity} (hb : 4 * c.remaining + 2 < m + 1) :
    body (m + 2) ctx n entity c = body (m + 1) ctx n entity c := by
  simp only [body]
  refine bind_congr rfl fun e c₁ hpeek => ?_
  obtain ⟨hc₁, hp⟩ := peek_ok hpeek
  subst c₁
  split
  next => rfl
  next hend =>
    have hat := Cursor.atElement_of_peek hp (by simpa using hend)
    cases e.name with
    | none => rfl
    | some name =>
    refine bind_congr rfl fun d c₂ hget => ?_
    obtain ⟨hd, hc₂⟩ := get_ok hget
    subst d c₂
    cases n.route? name (c.effectiveNamespace e) entity.type with
    | none =>
      -- an unknown property is skipped, then the object goes on
      refine bind_congr rfl fun u c₂ hunknown => ?_
      obtain ⟨t, ht⟩ := unknown_reads hat hunknown
      have hrem := ht.progress
      exact ih.body (by omega)
    | some child =>
      dsimp only
      split
      next =>
        refine bind_congr rfl fun ty c₂ hdisc => ?_
        obtain ⟨t, ht⟩ := discriminator_reads hdisc
        have hrem := ht.progress
        exact ih.body (by omega)
      next =>
        -- the child is staged with the same outcome, and reads at least one event
        refine bind_congr (ih.node (by omega)) fun staged c₂ hnode => ?_
        obtain ⟨t, ht⟩ := (stageReads (m + 1)).node hat hnode
        have hrem := ht.progress
        exact ih.body (by omega)

theorem array_stable (ih : StageStable m) (hb : 4 * c.remaining < m + 1) :
    array (m + 2) ctx n c = array (m + 1) ctx n c := by
  simp only [array]
  refine bind_congr rfl fun e c₁ hnext => ?_
  have hrem := remaining_lt_of_next hnext
  split
  next => rfl
  next => exact guard_congr (map_congr (ih.elements (by omega)))

theorem elements_stable (ih : StageStable m) {acc : List Staged}
    (hb : 4 * c.remaining + 2 < m + 1) :
    elements (m + 2) ctx n acc c = elements (m + 1) ctx n acc c := by
  simp only [elements]
  refine bind_congr rfl fun e c₁ hpeek => ?_
  obtain ⟨hc₁, hp⟩ := peek_ok hpeek
  subst c₁
  split
  next => rfl
  next =>
    refine bind_congr (ih.element (by omega)) fun staged c₂ hel => ?_
    obtain ⟨t, ht⟩ := (stageReads (m + 1)).element hel
    have hrem := ht.progress
    exact ih.elements (by omega)

theorem element_stable (ih : StageStable m) (hb : 4 * c.remaining + 1 < m + 1) :
    element (m + 2) ctx n c = element (m + 1) ctx n c := by
  simp only [element]
  split
  next =>
    cases n.modelType with
    | none => rfl
    | some ty => exact ih.object (by omega)
  next => rfl

theorem map_stable (ih : StageStable m) (hb : 4 * c.remaining < m + 1) :
    map (m + 2) ctx n c = map (m + 1) ctx n c := by
  simp only [map]
  refine bind_congr rfl fun e c₁ hnext => ?_
  have hrem := remaining_lt_of_next hnext
  split
  next => rfl
  next =>
    split
    next => exact guard_congr (map_congr (ih.namedEntries (by omega)))
    next => exact guard_congr (map_congr (ih.entryList (by omega)))

theorem namedEntries_stable (ih : StageStable m) {acc : List (Scalar × Staged)}
    (hb : 4 * c.remaining + 2 < m + 1) :
    namedEntries (m + 2) ctx n acc c = namedEntries (m + 1) ctx n acc c := by
  simp only [namedEntries]
  refine bind_congr rfl fun e c₁ hpeek => ?_
  obtain ⟨hc₁, hp⟩ := peek_ok hpeek
  subst c₁
  split
  next => rfl
  next =>
    cases e.name with
    | none => rfl
    | some name =>
    refine bind_congr rfl fun key c₂ hkey => ?_
    have hc₂ := keyToModel_ok hkey
    subst c₂
    refine bind_congr (ih.element (by omega)) fun staged c₃ hel => ?_
    obtain ⟨t, ht⟩ := (stageReads (m + 1)).element hel
    have hrem := ht.progress
    exact ih.namedEntries (by omega)

theorem entryList_stable (ih : StageStable m) {acc : List (Scalar × Staged)}
    (hb : 4 * c.remaining + 1 < m + 1) :
    entryList (m + 2) ctx n acc c = entryList (m + 1) ctx n acc c := by
  simp only [entryList]
  refine bind_congr rfl fun e c₁ hpeek => ?_
  obtain ⟨hc₁, hp⟩ := peek_ok hpeek
  subst c₁
  split
  next => rfl
  next =>
    refine bind_congr (ih.entry (by omega)) fun entry c₂ hentry => ?_
    obtain ⟨t, ht⟩ := (stageReads (m + 1)).entry hentry
    have hrem := ht.progress
    exact ih.entryList (by omega)

theorem entry_stable (ih : StageStable m) (hb : 4 * c.remaining < m + 1) :
    entry (m + 2) ctx n c = entry (m + 1) ctx n c := by
  simp only [entry]
  refine bind_congr rfl fun b c₁ hexpect => ?_
  have hrem := remaining_lt_of_expect hexpect
  exact bind_congr (ih.entryFields (by omega)) fun _ _ _ => rfl

theorem entryFields_stable (ih : StageStable m) {key : Option Scalar} {value : Staged}
    (hb : 4 * c.remaining + 2 < m + 1) :
    entryFields (m + 2) ctx n key value c = entryFields (m + 1) ctx n key value c := by
  simp only [entryFields]
  refine bind_congr rfl fun e c₁ hpeek => ?_
  obtain ⟨hc₁, hp⟩ := peek_ok hpeek
  subst c₁
  split
  next => rfl
  next hend =>
    have hat := Cursor.atElement_of_peek hp (by simpa using hend)
    cases e.name with
    | none => rfl
    | some name =>
    by_cases hk : name = "key"
    · -- the key: a value event, converted
      subst hk
      simp only
      refine bind_congr rfl fun e' c₂ hexpect => ?_
      have hrem := remaining_lt_of_expect hexpect
      refine bind_congr rfl fun k c₃ hkey => ?_
      have hc₃ := keyToModel_ok hkey
      subst c₃
      exact ih.entryFields (by omega)
    · by_cases hv : name = "value"
      · -- the value: one element
        subst hv
        simp only
        refine bind_congr (ih.element (by omega)) fun staged c₂ hel => ?_
        obtain ⟨t, ht⟩ := (stageReads (m + 1)).element hel
        have hrem := ht.progress
        exact ih.entryFields (by omega)
      · -- any other field is skipped
        simp only
        refine bind_congr rfl fun u c₂ hunknown => ?_
        obtain ⟨t, ht⟩ := unknown_reads hat hunknown
        have hrem := ht.progress
        exact ih.entryFields (by omega)

/-- **The fuel is enough.** Above four units per unread event and the function's offset, one
more unit of fuel changes no outcome of any staging call. Induction on the fuel, one step lemma
per function; `stageReads` gives the progress each loop makes. -/
theorem stageStable : ∀ m, StageStable m
  | 0 => stageStable_zero
  | m + 1 =>
    have ih := stageStable m
    { node := node_stable ih
      object := object_stable ih
      body := body_stable ih
      array := array_stable ih
      elements := elements_stable ih
      element := element_stable ih
      map := map_stable ih
      namedEntries := namedEntries_stable ih
      entryList := entryList_stable ih
      entry := entry_stable ih
      entryFields := entryFields_stable ih }

/-- The root of a template is staged like its node, or its object, with the same fuel. -/
theorem root_succ {fuel : Nat} {r : Node} {initial : Option ModelType}
    (hb : 4 * c.remaining + 1 < fuel) :
    root (fuel + 1) ctx r initial c = root fuel ctx r initial c := by
  cases initial with
  | none => cases hk : r.kind <;> simp only [root, hk] <;> exact (stageStable fuel).node hb
  | some ty =>
    -- an object root read as a given type is staged as that object
    cases hk : r.kind <;> simp only [root, hk]
    case object => exact (stageStable fuel).object (by omega)
    all_goals exact (stageStable fuel).node hb

end Stage

-- ============================================================ the main statement

/-- **Staging reads one element, within its fuel.** Above four units per unread event, more
fuel changes no outcome of staging a node, and the eight units per event that the root of a
template is given are above that. A successful stage, started anywhere but on an end event
that closes an open container, reads the events of one well-formed tree, and leaves the open
containers as they were; so do skipping and reading a subtree, and the subtree is the events
read. -/
theorem staging_reads_one_element :
    (∀ (ctx : Context) (n : Node) (c : Cursor) (fuel : Nat), 4 * c.remaining + 1 < fuel →
      Stage.node (fuel + 1) ctx n c = Stage.node fuel ctx n c) ∧
    (∀ (ctx : Context) (r : Node) (initial : Option ModelType) (view : View) (d fuel : Nat),
      8 * (view.size + 1) ≤ fuel →
      Stage.root fuel ctx r initial { events := view, maxDepth := d } =
        Stage.root (8 * (view.size + 1)) ctx r initial { events := view, maxDepth := d }) ∧
    (∀ (fuel : Nat) (ctx : Context) (n : Node) (c c' : Cursor) (v : Staged), c.AtElement →
      Stage.node fuel ctx n c = .ok v c' → ∃ t, ReadsTree c c' t) ∧
    (∀ (context : String) (c c' : Cursor), c.AtElement →
      (Reading.skip context).run c = .ok () c' → ∃ t, ReadsTree c c' t) ∧
    (∀ (context : String) (c c' : Cursor) (v : View), c.AtElement →
      (Reading.subtree context).run c = .ok v c' → ∃ t, ReadsTree c c' t ∧ v.toList = t.events) := by
  refine ⟨fun ctx n c fuel hb => (Stage.stageStable fuel).node hb, ?_,
    fun fuel ctx n c c' v hat h => (Stage.stageReads fuel).node hat h,
    fun context c c' hat h => Reading.skip_reads hat h,
    fun context c c' v hat h => Reading.subtree_reads hat h⟩
  intro ctx r initial view d fuel hfuel
  -- from the applicator's fuel on, each unit more changes nothing
  induction fuel, hfuel using Nat.le_induction with
  | base => rfl
  | succ fuel hfuel ih =>
    rw [← ih]
    exact Stage.root_succ (by simp [Cursor.remaining]; omega)

/-- An array holding one value. -/
def oneValueArray : View :=
  #[⟨.beginArray, none, none, none⟩, ⟨.value, none, none, some (.int 1)⟩, ⟨.endArray, none, none, none⟩]

theorem oneValueArray_subtree :
    ∃ t, ReadsTree { events := oneValueArray, maxDepth := 4 }
      { events := oneValueArray, pos := 3, maxDepth := 4 } t ∧ oneValueArray.toList = t.events :=
  staging_reads_one_element.2.2.2.2 "splice" _ _ _
    (Cursor.atElement_of_peek (e := ⟨.beginArray, none, none, none⟩) rfl rfl) rfl

end GraphViews

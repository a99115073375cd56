import Mathlib
import GraphViews.Proofs.Effects
/-!
# Ordered reconciliation rebuilds the list in view order

Ordered reconciliation makes a live list the staged entities in view order. The main statement,
`Reconciler.ordered_rebuilds_in_view_order`, says what a successful call did, for any manager
that keeps the indexed contract `Manager.IndexedLaws` and any injection that keeps the list and
only appends to the notices (`Reconciler.Framed`):

* the list ends as one associate per staged entity, in order; null and unchanged elements take
  no place;
* each associate is the first live object not matched yet, in the list's original order, that
  the manager judges the entity's associate in the state the entity is examined in, or else a
  new associate, which is announced created;
* the live elements no entity matched are removed after the loop, in order, and each object
  among them is announced discarded; the notices are, for each entity in order, what injecting
  it told and then, for a new associate, its creation, and after them the discards;
* every live object is either matched or discarded, and, for owned associates of a list of
  distinct objects of the store, no associate is discarded.

An associate obtained by resolving a reference may be a live object that no entity matched: it
is put in place, announced created, and then removed and announced discarded with the rest
(`ordered_reference_discarded`).

# How the proof goes

The decisions are computed in advance by `orderedMatch`, from the verdicts the run gives
(`Reconciler.orderedVerdict`). During the loop the list is `A ++ R`, the view index is the
length of `A`, `A` holds the associates of the entities examined so far and `R` what is left
of the live list, in its original order. A step skips an element, moves the first match in `R`
to the view index, or puts a new associate there (`orderedStep_skip`, `orderedStep_matched`,
`orderedStep_obtained`); `foldlM_orderedStep` runs the loop, and `discardFrom_ok` the pass that
removes `R`. `indexedLaws_fieldList` shows that the engine's manager of a list field keeps the
contract.
-/

namespace GraphViews

-- ============================================================ the manager's contract

/-- The contract of an indexed manager for one owner, stated over `live st = some xs`: in store
`st` the association is a list holding `xs`. Reading changes nothing and reads `xs`; inserting
and removing edit `xs` at the index; the bracket only journals; no call tells the listeners
anything or shrinks the store; and a new object leaves the list as it is. -/
structure Manager.IndexedLaws (m : Manager) (owner : Value) (live : Store → Option (List Value)) :
    Prop where
  begin : ∀ c, Run.Keeps (m.begin c)
  finish : ∀ c, Run.Keeps (m.finish c)
  size : ∀ {c s n s' xs}, live s.store = some xs → m.size c owner s = .ok n s' →
    n = xs.length ∧ s' = s
  getAt : ∀ {c s i v s' xs}, live s.store = some xs → m.getAt c owner i s = .ok v s' →
    xs[i]? = some v ∧ s' = s
  addAt : ∀ {c s i v s' xs}, live s.store = some xs → m.addAt c owner i v s = .ok () s' →
    live s'.store = some (xs.insertIdx i v) ∧ s'.notices = s.notices ∧
      s.store.size ≤ s'.store.size
  removeAt : ∀ {c s i v s' xs}, live s.store = some xs → m.removeAt c owner i s = .ok v s' →
    xs[i]? = some v ∧ live s'.store = some (xs.eraseIdx i) ∧ s'.notices = s.notices ∧
      s.store.size ≤ s'.store.size
  newObject : ∀ {st xs} t, live st = some xs → live (st.newObject t).1 = some xs

-- ============================================================ ordered matching, in advance

/-- The first object of a list that `p` accepts, with its index. -/
def firstSame (p : Handle → Bool) : List Value → Option (Nat × Handle)
  | [] => none
  | .object h :: xs => if p h then some (0, h) else (firstSame p xs).map (Prod.map Nat.succ id)
  | _ :: xs => (firstSame p xs).map (Prod.map Nat.succ id)

/-- What `firstSame` finds is an object of the list that `p` accepts, at its index. -/
theorem getElem?_of_firstSame {p : Handle → Bool} {xs : List Value} {i : Nat} {h : Handle}
    (hf : firstSame p xs = some (i, h)) : xs[i]? = some (.object h) ∧ p h = true := by
  induction xs generalizing i with
  | nil => cases hf
  | cons v xs ih =>
    have later : (firstSame p xs).map (Prod.map Nat.succ id) = some (i, h) →
        (v :: xs)[i]? = some (.object h) ∧ p h = true := by
      intro hf
      obtain ⟨⟨j, h'⟩, hj, he⟩ := Option.map_eq_some_iff.mp hf
      cases he
      simpa using ih hj
    cases v with
    | object o =>
      simp only [firstSame] at hf
      split at hf
      · cases hf
        simpa
      · exact later hf
    | _ => exact later hf

/-- Taking the object `firstSame` finds out of the pool leaves the other objects. -/
theorem objects_perm_of_firstSame {p : Handle → Bool} {pool : List Value} {i : Nat} {h : Handle}
    (hf : firstSame p pool = some (i, h)) :
    (pool.filterMap Value.object?).Perm (h :: (pool.eraseIdx i).filterMap Value.object?) := by
  obtain ⟨hi, -⟩ := getElem?_of_firstSame hf
  obtain ⟨hlt, hget⟩ := List.getElem?_eq_some_iff.mp hi
  have hperm := (List.getElem_cons_eraseIdx_perm hlt).filterMap Value.object?
  rw [hget] at hperm
  simpa [Value.object?] using hperm.symm

/-- Ordered matching, decided in advance of the run: the staged elements in order, each entity
taking the first object of the pool that `same n` (the verdict on the `n`-th element) accepts,
which then leaves the pool; `none` marks an entity that gets a new associate, and null and
unchanged elements decide nothing. Returns the decisions and the pool that is left. -/
def orderedMatch (same : Nat → Handle → Entity → Bool) :
    List Value → List Staged → List (Option Handle) × List Value
  | pool, [] => ([], pool)
  | pool, st :: rest =>
    match st.entity? with
    | none => orderedMatch (fun n => same (n + 1)) pool rest
    | some e =>
      match firstSame (same 0 · e) pool with
      | some (i, h) =>
        let next := orderedMatch (fun n => same (n + 1)) (pool.eraseIdx i) rest
        (some h :: next.1, next.2)
      | none =>
        let next := orderedMatch (fun n => same (n + 1)) pool rest
        (none :: next.1, next.2)

/-- Ordered matching loses no live object: each object of the pool is either matched to an
entity or left over. -/
theorem orderedMatch_perm (es : List Staged) :
    ∀ (same : Nat → Handle → Entity → Bool) (pool : List Value),
      (pool.filterMap Value.object?).Perm
        ((orderedMatch same pool es).1.filterMap id ++
          (orderedMatch same pool es).2.filterMap Value.object?) := by
  induction es with
  | nil => intro same pool; simp [orderedMatch]
  | cons st rest ih =>
    intro same pool
    simp only [orderedMatch]
    cases st.entity? with
    | none => exact ih _ pool
    | some e =>
      cases hf : firstSame (same 0 · e) pool with
      | some found =>
        obtain ⟨i, h⟩ := found
        simp only [hf, List.filterMap_cons, id, List.cons_append]
        exact (objects_perm_of_firstSame hf).trans (.cons h (ih _ (pool.eraseIdx i)))
      | none =>
        simpa [hf, List.filterMap_cons] using ih _ pool

-- ============================================================ the search for a match

/-- The answer of one probe of the search at index `i`: the object there, if `same` accepts
it. -/
def probe (same : Handle → Bool) (xs : List Value) (i : Nat) : Option (Nat × Handle) :=
  match xs[i]? with
  | some (.object h) => if same h then some (i, h) else none
  | _ => none

/-- Probing the indices after a prefix, in order, finds the first accepted object after it. -/
theorem findSome?_probe (same : Handle → Bool) (R : List Value) :
    ∀ A : List Value, (List.range' A.length R.length).findSome? (probe same (A ++ R)) =
      (firstSame same R).map (Prod.map (A.length + ·) id) := by
  induction R with
  | nil => intro A; rfl
  | cons v R ih =>
    intro A
    -- the probes after the first one are those behind the longer prefix `A ++ [v]`
    have htail := ih (A ++ [v])
    rw [List.append_assoc, List.singleton_append, List.length_append,
      List.length_singleton] at htail
    have hshift : Prod.map (A.length + ·) id ∘ Prod.map Nat.succ id =
        Prod.map (A.length + 1 + ·) (id : Handle → Handle) := by
      funext x
      simp only [Function.comp, Prod.map]
      congr 1
      omega
    rw [List.length_cons, List.range'_succ, List.findSome?_cons, htail]
    cases v with
    | object h => by_cases hs : same h <;> simp [probe, firstSame, hs, Option.map_map, hshift]
    | _ => simp [probe, firstSame, Option.map_map, hshift]

theorem insertIdx_length_append {α : Type} (A R : List α) (v : α) :
    (A ++ R).insertIdx A.length v = A ++ v :: R := by
  induction A with
  | nil => simp [List.insertIdx_zero]
  | cons a A ih => simp [List.insertIdx_succ_cons, ih]

namespace Reconciler

variable {m : Manager} {owner : Value} {live : Store → Option (List Value)}
  {ctx : Context} {e : Entity} {s s' : RunState}

/-- The search for a live match from the view index reads the list and finds the first object
after the prefix that the manager judges the entity's associate, now. -/
theorem findFrom_ok (hm : m.IndexedLaws owner live) {A R : List Value}
    (hs : live s.store = some (A ++ R)) {res : Option (Nat × Handle)}
    (hrun : findFrom m ctx owner e A.length (A ++ R).length s = .ok res s') :
    res = (firstSame (m.isSame s.store · e) R).map (Prod.map (A.length + ·) id) ∧ s' = s := by
  unfold findFrom at hrun
  rw [List.length_append, Nat.add_sub_cancel_left] at hrun
  have hsearch := Run.findSomeM?_ok (g := probe (m.isSame s.store · e) (A ++ R)) hrun
  refine (fun hf => ?_) (hsearch ?_)
  · obtain ⟨rfl, rfl⟩ := hf
    exact ⟨findSome?_probe _ R A, rfl⟩
  -- each probe reads the element through the manager, and the store for the verdict
  intro i r s₁ h
  obtain ⟨v, s₂, h₁, h₂⟩ := Run.bind_ok h
  obtain ⟨hv, rfl⟩ := hm.getAt hs h₁
  simp only [probe, hv]
  cases v with
  | object o =>
    simp only [bind, EStateM.bind, Run.store, get, getThe, MonadStateOf.get, EStateM.get,
      pure, EStateM.pure] at h₂
    split at h₂ <;> cases h₂ <;> simp_all
  | _ => cases h₂; exact ⟨rfl, rfl⟩

-- ============================================================ one step of the loop

/-- The loop body of ordered reconciliation: one staged element, at the view index reached. -/
def orderedStep (r : Reconciler) (m : Manager) (ctx : Context) (owner : Value) (viewIndex : Nat)
    (item : Staged × Nat) : Run Nat := do
  let (staged, position) := item
  let some e ← entityOf ctx staged | pure viewIndex
  let cctx := ctx.push (Frame.indexed position (some e.type))
  let size ← m.size cctx owner
  match ← findFrom m cctx owner e viewIndex size with
  | some (i, h) =>
    r.inject cctx e h
    if i > viewIndex then
      let v ← m.removeAt cctx owner i
      m.addAt cctx owner viewIndex v
  | none =>
    let h ← r.obtain cctx e
    r.inject cctx e h
    m.addAt cctx owner viewIndex (.object h)
    cctx.entityCreated h
  pure (viewIndex + 1)

theorem ordered_eq (r : Reconciler) (m : Manager) (ctx : Context) (owner : Value)
    (es : List Staged) :
    r.ordered m ctx owner es = (do
      m.begin ctx
      let kept ← es.zipIdx.foldlM (r.orderedStep m ctx owner) 0
      discardFrom m ctx owner kept ((← m.size ctx owner) + 1)
      m.finish ctx) := rfl

variable {r : Reconciler} {A R : List Value} {j k : Nat} {st : Staged} {p : Nat}

/-- A null or unchanged element takes no place. -/
theorem orderedStep_skip (he : st.entity? = none)
    (hrun : r.orderedStep m ctx owner j (st, p) s = .ok k s') : k = j ∧ s' = s := by
  obtain ⟨o, s₁, h₁, h₂⟩ := Run.bind_ok hrun
  obtain ⟨rfl, rfl⟩ := entityOf_ok h₁
  rw [he] at h₂
  cases h₂
  exact ⟨rfl, rfl⟩

/-- An entity that a live object after the view index matches updates it in place and moves it
to the view index; only the injection tells anything. -/
theorem orderedStep_matched (hm : m.IndexedLaws owner live) (hr : r.Framed live)
    (hs : live s.store = some (A ++ R)) (hj : A.length = j) (he : st.entity? = some e)
    {i : Nat} {h : Handle} (hf : firstSame (m.isSame s.store · e) R = some (i, h))
    (hrun : r.orderedStep m ctx owner j (st, p) s = .ok k s') :
    k = j + 1 ∧ live s'.store = some (A ++ .object h :: R.eraseIdx i) ∧
      (∃ told, r.Tells h told ∧ s'.notices = s.notices ++ told) ∧
      s.store.size ≤ s'.store.size := by
  subst hj
  obtain ⟨o, s₁, h₁, h₂⟩ := Run.bind_ok hrun
  obtain ⟨rfl, rfl⟩ := entityOf_ok h₁
  rw [he] at h₂
  obtain ⟨n, s₂, h₃, h₄⟩ := Run.bind_ok h₂
  obtain ⟨rfl, rfl⟩ := hm.size hs h₃
  obtain ⟨res, s₃, h₅, h₆⟩ := Run.bind_ok h₄
  obtain ⟨rfl, rfl⟩ := findFrom_ok hm hs h₅
  rw [hf] at h₆
  dsimp only [Option.map_some, Prod.map, id] at h₆
  obtain ⟨u, s₄, h₇, h₈⟩ := Run.bind_ok h₆
  obtain ⟨told, ht, hl₄, hn₄, hz₄⟩ := hr.inject hs h₇
  obtain ⟨hRi, -⟩ := getElem?_of_firstSame hf
  split at h₈
  · -- the match lies further on: it is taken out and put back at the view index
    obtain ⟨v, s₅, h₉, h₁₀⟩ := Run.bind_ok h₈
    obtain ⟨hv, hl₅, hn₅, hz₅⟩ := hm.removeAt hl₄ h₉
    rw [List.getElem?_append_right (by omega), Nat.add_sub_cancel_left, hRi] at hv
    cases hv
    rw [List.eraseIdx_append_of_length_le (by omega), Nat.add_sub_cancel_left] at hl₅
    obtain ⟨u', s₆, h₁₁, h₁₂⟩ := Run.bind_ok h₁₀
    obtain ⟨hl₆, hn₆, hz₆⟩ := hm.addAt hl₅ h₁₁
    cases h₁₂
    rw [insertIdx_length_append] at hl₆
    exact ⟨rfl, hl₆, ⟨told, ht, by rw [hn₆, hn₅, hn₄]⟩, hz₄.trans (hz₅.trans hz₆)⟩
  · -- the match is at the view index already
    cases h₈
    have hi : i = 0 := by omega
    subst hi
    obtain ⟨R', rfl⟩ : ∃ R', R = .object h :: R' := by
      cases R with
      | nil => cases hRi
      | cons x R' => cases hRi; exact ⟨R', rfl⟩
    exact ⟨rfl, hl₄, ⟨told, ht, hn₄⟩, hz₄⟩

/-- An entity that no live object after the view index matches gets a new associate, put at the
view index and announced created once its injection is done. -/
theorem orderedStep_obtained (hm : m.IndexedLaws owner live) (hr : r.Framed live)
    (hs : live s.store = some (A ++ R)) (hj : A.length = j) (he : st.entity? = some e)
    (hf : firstSame (m.isSame s.store · e) R = none)
    (hrun : r.orderedStep m ctx owner j (st, p) s = .ok k s') :
    ∃ a, k = j + 1 ∧ live s'.store = some (A ++ .object a :: R) ∧
      (∃ told, r.Tells a told ∧ s'.notices = s.notices ++ told ++ [.created a]) ∧
      s.store.size ≤ s'.store.size ∧
      (r.reference = false → s.store.size ≤ a) := by
  subst hj
  obtain ⟨o, s₁, h₁, h₂⟩ := Run.bind_ok hrun
  obtain ⟨rfl, rfl⟩ := entityOf_ok h₁
  rw [he] at h₂
  obtain ⟨n, s₂, h₃, h₄⟩ := Run.bind_ok h₂
  obtain ⟨rfl, rfl⟩ := hm.size hs h₃
  obtain ⟨res, s₃, h₅, h₆⟩ := Run.bind_ok h₄
  obtain ⟨rfl, rfl⟩ := findFrom_ok hm hs h₅
  rw [hf] at h₆
  dsimp only [Option.map_none] at h₆
  obtain ⟨a, s₄, h₇, h₈⟩ := Run.bind_ok h₆
  have hl₄ := live_obtain hm.newObject hs h₇
  obtain ⟨hn₄, -⟩ := obtain_ok h₇
  have hz₄ := size_le_obtain h₇
  obtain ⟨u, s₅, h₉, h₁₀⟩ := Run.bind_ok h₈
  obtain ⟨told, ht, hl₅, hn₅, hz₅⟩ := hr.inject hl₄ h₉
  obtain ⟨u', s₆, h₁₁, h₁₂⟩ := Run.bind_ok h₁₀
  obtain ⟨hl₆, hn₆, hz₆⟩ := hm.addAt hl₅ h₁₁
  rw [insertIdx_length_append] at hl₆
  obtain ⟨u'', s₇, h₁₃, h₁₄⟩ := Run.bind_ok h₁₂
  obtain ⟨hst₇, hn₇⟩ := Context.entityCreated_ok h₁₃
  cases h₁₄
  refine ⟨a, rfl, hst₇ ▸ hl₆, ⟨told, ht, ?_⟩, ?_, fun hown => (obtain_owned_fresh hown h₇).1⟩
  · rw [hn₇, hn₆, hn₅, hn₄]
  · rw [hst₇]
    omega

-- ============================================================ the loop and the trailing pass

/-- The verdicts of a run of the ordered loop over `items` from view index `j` and state `s`:
the `n`-th element is judged in the state the loop reached after the elements before it. -/
def stepVerdict (r : Reconciler) (m : Manager) (ctx : Context) (owner : Value)
    (items : List (Staged × Nat)) (j : Nat) (s : RunState) (n : Nat) : Handle → Entity → Bool :=
  m.isSame (Run.after ((items.take n).foldlM (r.orderedStep m ctx owner) j) s).store

theorem stepVerdict_zero (items : List (Staged × Nat)) (j : Nat) (s : RunState) :
    r.stepVerdict m ctx owner items j s 0 = m.isSame s.store := rfl

theorem stepVerdict_succ {item : Staged × Nat} {items : List (Staged × Nat)}
    {j₁ : Nat} {s₁ : RunState} (h : r.orderedStep m ctx owner j item s = .ok j₁ s₁) (n : Nat) :
    r.stepVerdict m ctx owner (item :: items) j s (n + 1) =
      r.stepVerdict m ctx owner items j₁ s₁ n := by
  simp only [stepVerdict, List.take_succ_cons, List.foldlM_cons, Run.after, bind,
    EStateM.bind, h]

/-- The ordered loop, run over staged elements from a list `A ++ R` with the view index at the
end of `A`, puts the entities' associates after `A` in order, the matched ones taken from `R`
as `orderedMatch` decides with the verdicts of the run, and leaves what is unmatched of `R`
after them; for each entity in order, what its injection told comes first, then the creation
of its associate if it got a new one. -/
theorem foldlM_orderedStep (hm : m.IndexedLaws owner live) (hr : r.Framed live)
    (items : List (Staged × Nat)) :
    ∀ {A R : List Value} {j k : Nat} {s s' : RunState}, live s.store = some (A ++ R) →
      A.length = j → items.foldlM (r.orderedStep m ctx owner) j s = .ok k s' →
      ∃ (outs : List Outcome) (tells : List (List Notice)),
        outs.map Outcome.matched? =
          (orderedMatch (r.stepVerdict m ctx owner items j s) R (items.map Prod.fst)).1 ∧
        k = j + outs.length ∧
        live s'.store = some (A ++ outs.map (.object ·.handle) ++
          (orderedMatch (r.stepVerdict m ctx owner items j s) R (items.map Prod.fst)).2) ∧
        List.Forall₂ (r.Tells ·.handle ·) outs tells ∧
        s'.notices = s.notices ++ (List.zipWith Outcome.notices outs tells).flatten ∧
        s.store.size ≤ s'.store.size ∧
        (r.reference = false → ∀ a ∈ outs.filterMap Outcome.obtained?, s.store.size ≤ a) := by
  induction items with
  | nil =>
    intro A R j k s s' hs hj hrun
    cases hrun
    exact ⟨[], [], rfl, rfl, by simpa [orderedMatch] using hs, .nil, by simp, le_rfl, by simp⟩
  | cons item items ih =>
    intro A R j k s s' hs hj hrun
    obtain ⟨st, p⟩ := item
    rw [List.foldlM_cons] at hrun
    obtain ⟨j₁, s₁, h₁, h₂⟩ := Run.bind_ok hrun
    simp only [List.map_cons, orderedMatch, stepVerdict_succ h₁, stepVerdict_zero]
    cases he : st.entity? with
    | none =>
      obtain ⟨rfl, rfl⟩ := orderedStep_skip he h₁
      exact ih hs hj h₂
    | some e =>
      cases hf : firstSame (m.isSame s.store · e) R with
      | some found =>
        obtain ⟨i, h⟩ := found
        simp only [hf]
        obtain ⟨rfl, hl₁, ⟨told, ht, hn₁⟩, hz₁⟩ := orderedStep_matched hm hr hs hj he hf h₁
        obtain ⟨outs, tells, hmatch, hk, hl, htells, hn, hz, hfresh⟩ :=
          ih (A := A ++ [.object h]) (by simpa using hl₁) (by simp [hj]) h₂
        refine ⟨.matched h :: outs, told :: tells, by simp [hmatch], by simp [hk]; omega,
          by simpa using hl, .cons ht htells, by simp [hn, hn₁], hz₁.trans hz, ?_⟩
        intro hown a ha
        simp only [List.filterMap_cons, Outcome.obtained?] at ha
        exact hz₁.trans (hfresh hown a ha)
      | none =>
        simp only [hf]
        obtain ⟨a, rfl, hl₁, ⟨told, ht, hn₁⟩, hz₁, hfresh₁⟩ :=
          orderedStep_obtained hm hr hs hj he hf h₁
        obtain ⟨outs, tells, hmatch, hk, hl, htells, hn, hz, hfresh⟩ :=
          ih (A := A ++ [.object a]) (by simpa using hl₁) (by simp [hj]) h₂
        refine ⟨.obtained a :: outs, told :: tells, by simp [hmatch], by simp [hk]; omega,
          by simpa using hl, .cons ht htells, by simp [hn, hn₁], hz₁.trans hz, ?_⟩
        intro hown b hb
        simp only [List.filterMap_cons, Outcome.obtained?, List.mem_cons] at hb
        rcases hb with rfl | hb
        · exact hfresh₁ hown
        · exact hz₁.trans (hfresh hown b hb)

/-- The trailing pass of ordered reconciliation removes everything after the kept prefix, in
order, and announces each object it removes as discarded. -/
theorem discardFrom_ok (hm : m.IndexedLaws owner live) (fuel : Nat) :
    ∀ {A R : List Value} {s s' : RunState}, live s.store = some (A ++ R) → R.length < fuel →
      discardFrom m ctx owner A.length fuel s = .ok () s' →
      live s'.store = some A ∧
        s'.notices = s.notices ++ (R.filterMap Value.object?).map Notice.discarded ∧
        s.store.size ≤ s'.store.size := by
  induction fuel with
  | zero => intro A R s s' _ hR; omega
  | succ fuel ih =>
    intro A R s s' hs hR hrun
    obtain ⟨n, s₁, h₁, h₂⟩ := Run.bind_ok hrun
    obtain ⟨rfl, rfl⟩ := hm.size hs h₁
    dsimp only at h₂
    split at h₂
    · -- an element is left after the prefix: the first one is removed, then the rest
      obtain ⟨v, R, rfl⟩ : ∃ v R', R = v :: R' := by
        cases R with
        | nil => simp at *
        | cons v R' => exact ⟨v, R', rfl⟩
      obtain ⟨v', s₂, h₃, h₄⟩ := Run.bind_ok h₂
      obtain ⟨hv, hl₂, hn₂, hz₂⟩ := hm.removeAt hs h₃
      rw [List.getElem?_append_right le_rfl, Nat.sub_self] at hv
      cases hv
      rw [List.eraseIdx_append_of_length_le le_rfl, Nat.sub_self, List.eraseIdx_zero,
        List.tail_cons] at hl₂
      have hR' : R.length < fuel := by simp at hR; omega
      cases v with
      | object h =>
        obtain ⟨u, s₃, h₅, h₆⟩ := Run.bind_ok h₄
        obtain ⟨hst₃, hn₃⟩ := Context.entityDiscarded_ok h₅
        obtain ⟨hl, hn, hz⟩ := ih (hst₃ ▸ hl₂) hR' h₆
        refine ⟨hl, ?_, ?_⟩
        · simp [hn, hn₃, hn₂, Value.object?]
        · rw [hst₃] at hz
          exact hz₂.trans hz
      | _ =>
        obtain ⟨hl, hn, hz⟩ := ih hl₂ hR' h₄
        exact ⟨hl, by simp [hn, hn₂, Value.object?, List.filterMap_cons], hz₂.trans hz⟩
    · -- nothing is left after the prefix
      rename_i hle
      cases h₂
      have hR0 : R = [] := by
        rw [List.length_append] at hle
        exact List.eq_nil_of_length_eq_zero (by omega)
      subst hR0
      exact ⟨by simpa using hs, by simp, le_rfl⟩

-- ============================================================ the whole reconciliation

/-- The verdicts of ordered reconciliation: the `n`-th staged element is judged in the state
reached once the bracket is open and the elements before it are reconciled. -/
def orderedVerdict (r : Reconciler) (m : Manager) (ctx : Context) (owner : Value)
    (es : List Staged) (s : RunState) (n : Nat) : Handle → Entity → Bool :=
  m.isSame (Run.after (m.begin ctx >>= fun _ =>
    (es.zipIdx.take n).foldlM (r.orderedStep m ctx owner) 0) s).store

/-- What ordered reconciliation decides for the live list `L`, with the verdicts of its run. -/
def orderedPlan (r : Reconciler) (m : Manager) (ctx : Context) (owner : Value) (es : List Staged)
    (s : RunState) (L : List Value) : List (Option Handle) × List Value :=
  orderedMatch (r.orderedVerdict m ctx owner es s) L es

/-- A successful ordered reconciliation of the live list `L`: the list becomes the outcomes'
associates, the matched ones as planned, and the notices are, outcome by outcome, what the
injection told and the creation of a new associate, then the objects left over, discarded. -/
theorem ordered_run (hm : m.IndexedLaws owner live) (hr : r.Framed live)
    {es : List Staged} {L : List Value} (hL : live s.store = some L)
    (hrun : r.ordered m ctx owner es s = .ok () s') :
    ∃ (outs : List Outcome) (tells : List (List Notice)),
      outs.map Outcome.matched? = (r.orderedPlan m ctx owner es s L).1 ∧
      live s'.store = some (outs.map (.object ·.handle)) ∧
      List.Forall₂ (r.Tells ·.handle ·) outs tells ∧
      s'.notices = s.notices ++ (List.zipWith Outcome.notices outs tells).flatten ++
        ((r.orderedPlan m ctx owner es s L).2.filterMap Value.object?).map .discarded ∧
      (r.reference = false → ∀ a ∈ outs.filterMap Outcome.obtained?, s.store.size ≤ a) := by
  rw [ordered_eq] at hrun
  obtain ⟨u, s₁, h₁, h₂⟩ := Run.bind_ok hrun
  obtain ⟨hst₁, hn₁⟩ := hm.begin ctx s u s₁ h₁
  -- after the bracket opens, the verdicts are those of the loop run from there
  have hverdicts : r.orderedVerdict m ctx owner es s = r.stepVerdict m ctx owner es.zipIdx 0 s₁ := by
    funext n
    simp only [orderedVerdict, stepVerdict, Run.after_bind_ok h₁]
  rw [orderedPlan, hverdicts]
  obtain ⟨kept, s₂, h₃, h₄⟩ := Run.bind_ok h₂
  obtain ⟨outs, tells, hmatch, rfl, hl₂, htells, hn₂, hz₂, hfresh⟩ :=
    foldlM_orderedStep hm hr es.zipIdx (A := []) (hst₁ ▸ hL) rfl h₃
  simp only [List.zipIdx_map_fst, List.nil_append, List.length_nil] at hmatch hl₂
  obtain ⟨n, s₃, h₅, h₆⟩ := Run.bind_ok h₄
  obtain ⟨rfl, rfl⟩ := hm.size hl₂ h₅
  obtain ⟨u', s₄, h₇, h₈⟩ := Run.bind_ok h₆
  have hfuel : (orderedMatch (r.stepVerdict m ctx owner es.zipIdx 0 s₁) L es).2.length <
      (outs.map (Value.object ·.handle) ++
        (orderedMatch (r.stepVerdict m ctx owner es.zipIdx 0 s₁) L es).2).length + 1 := by
    rw [List.length_append]
    omega
  obtain ⟨hl₄, hn₄, hz₄⟩ := discardFrom_ok hm _ hl₂ hfuel (by simpa using h₇)
  obtain ⟨hst₅, hn₅⟩ := hm.finish ctx s₄ () s' h₈
  refine ⟨outs, tells, hmatch, hst₅ ▸ hl₄, htells, ?_, fun hown a ha => hst₁ ▸ hfresh hown a ha⟩
  rw [hn₅, hn₄, hn₂, hn₁]

end Reconciler

-- ============================================================ the manager of a list field

/-- The elements of the list an object's field holds: none unless the owner is an object and
the field names a list cell, or is null, which reads as the empty list. -/
def fieldList (n : String) (owner : Value) (st : Store) : Option (List Value) :=
  match owner with
  | .object o =>
    (st.instance? o).bind fun _ =>
      match st.field o n with
      | .list h =>
        match st.cell? h with
        | some (.list xs) => some xs
        | _ => none
      | .scalar .null => some []
      | _ => none
  | _ => none

section FieldList

variable {n : String} {owner : Value} {o h : Handle} {st : Store} {inst : Instance}
  {xs : List Value}

/-- How the field list can read `xs`: the owner is an object whose field names a list cell
holding `xs`, or is null and `xs` is empty. -/
theorem fieldList_cases (hl : fieldList n owner st = some xs) :
    ∃ o inst, owner = .object o ∧ st.instance? o = some inst ∧
      ((∃ h, st.field o n = .list h ∧ st.cell? h = some (.list xs)) ∨
        (st.field o n = .null ∧ xs = [])) := by
  cases owner with
  | object o =>
    simp only [fieldList] at hl
    cases hi : st.instance? o with
    | none => simp [hi] at hl
    | some inst =>
      simp only [hi, Option.bind_some] at hl
      refine ⟨o, inst, rfl, hi, ?_⟩
      split at hl
      · rename_i h hf
        split at hl
        · cases hl
          exact .inl ⟨h, hf, by assumption⟩
        · cases hl
      · cases hl
        exact .inr ⟨by assumption, rfl⟩
      · cases hl
  | _ => cases hl

theorem fieldList_of_list (hi : st.instance? o = some inst) (hf : st.field o n = .list h)
    (hc : st.cell? h = some (.list xs)) : fieldList n (.object o) st = some xs := by
  simp [fieldList, hi, hf, hc]

theorem fieldList_of_null (hi : st.instance? o = some inst) (hf : st.field o n = .null) :
    fieldList n (.object o) st = some [] := by
  simp [fieldList, hi, hf, Value.null]


end FieldList

namespace Multi

-- What the list operations do through a readable field: on the list cell the field names, or,
-- for a null field, on the empty list a write first stores.
variable {n : String} {dt : DataType} {modes : AccessModes} {o h : Handle} {st : Store}
  {xs : List Value}

theorem get_field (hr : modes.read = true) :
    (Accessor.field n dt modes).get (.object o) st = .ok (st.field o n) st := by
  simp [Accessor.get, hr, Access.expectObject, bind, EStateM.bind, getThe, MonadStateOf.get,
    EStateM.get, pure, EStateM.pure]

theorem readCell_of_list (hr : modes.read = true) (hf : st.field o n = .list h) :
    readCell (.field n dt modes) "list" (.object o) st = .ok (some h) st := by
  simp [readCell, get_field hr, hf, bind, EStateM.bind, pure, EStateM.pure]

theorem readCell_of_null (hr : modes.read = true) (hf : st.field o n = .null) (shape : String) :
    readCell (.field n dt modes) shape (.object o) st = .ok none st := by
  simp [readCell, get_field hr, hf, Value.isNull, Value.null, bind, EStateM.bind, pure,
    EStateM.pure]

theorem size_of_list (hr : modes.read = true) (hf : st.field o n = .list h)
    (hc : st.cell? h = some (.list xs)) :
    (list (.field n dt modes)).size (.object o) st = .ok xs.length st := by
  simp [size, iterate, capability, readCell_of_list hr hf, items, Store.items, hc, bind,
    EStateM.bind, getThe, MonadStateOf.get, EStateM.get, pure, EStateM.pure]

theorem getAt_of_list (hr : modes.read = true) (hf : st.field o n = .list h)
    (hc : st.cell? h = some (.list xs)) (i : Nat) :
    (list (.field n dt modes)).getAt (.object o) i st =
      match xs[i]? with
      | some v => .ok v st
      | none => .error (.indexOutOfBounds n i xs.length) st := by
  simp [getAt, readCell_of_list hr hf, items, Store.items, hc, name, accessor, Accessor.name,
    bind, EStateM.bind, getThe, MonadStateOf.get, EStateM.get, pure, EStateM.pure, throw,
    throwThe, MonadExceptOf.throw]
  cases xs[i]? <;> rfl

theorem insertAt_of_list (hr : modes.read = true) (hf : st.field o n = .list h)
    (hc : st.cell? h = some (.list xs)) (i : Nat) (v : Value) :
    (list (.field n dt modes)).insertAt (.object o) i v st =
      if i < xs.length + 1 then .ok () (st.put h (.list (xs.insertIdx i v)))
      else .error (.indexOutOfBounds n i (xs.length + 1)) st := by
  simp [insertAt, writeCell, readCell_of_list hr hf, items, Store.items, hc, checkIndex,
    setItems, Store.setItems, name, accessor, Accessor.name, bind, EStateM.bind, getThe,
    MonadStateOf.get, EStateM.get, pure, EStateM.pure, modify, modifyGet,
    MonadStateOf.modifyGet, EStateM.modifyGet, throw, throwThe, MonadExceptOf.throw]
  by_cases hi : i ≤ xs.length <;> simp [hi, EStateM.pure, EStateM.throw, hc]

theorem removeAt_of_list (hr : modes.read = true) (hf : st.field o n = .list h)
    (hc : st.cell? h = some (.list xs)) (i : Nat) :
    (list (.field n dt modes)).removeAt (.object o) i st =
      if i < xs.length then .ok (xs[i]?.getD .null) (st.put h (.list (xs.eraseIdx i)))
      else .error (.indexOutOfBounds n i xs.length) st := by
  simp [removeAt, writeCell, readCell_of_list hr hf, items, Store.items, hc, checkIndex,
    setItems, Store.setItems, name, accessor, Accessor.name, bind, EStateM.bind, getThe,
    MonadStateOf.get, EStateM.get, pure, EStateM.pure, modify, modifyGet,
    MonadStateOf.modifyGet, EStateM.modifyGet, throw, throwThe, MonadExceptOf.throw]
  by_cases hi : i < xs.length <;> simp [hi, EStateM.pure, EStateM.throw, hc]

theorem size_of_null (hr : modes.read = true) (hf : st.field o n = .null) :
    (list (.field n dt modes)).size (.object o) st = .ok 0 st := by
  simp [size, iterate, capability, readCell_of_null hr hf, bind, EStateM.bind, pure,
    EStateM.pure]

theorem getAt_of_null (hr : modes.read = true) (hf : st.field o n = .null) (i : Nat) :
    (list (.field n dt modes)).getAt (.object o) i st = .error (.indexOutOfBounds n i 0) st := by
  simp [getAt, readCell_of_null hr hf, name, accessor, Accessor.name, bind, EStateM.bind, pure,
    EStateM.pure, throw, throwThe, MonadExceptOf.throw, EStateM.throw]

theorem insertAt_of_null (hr : modes.read = true) (hf : st.field o n = .null) (ho : o < st.size)
    (i : Nat) (v : Value) {u : Unit} {st' : Store}
    (hrun : (list (.field n dt modes)).insertAt (.object o) i v st = .ok u st') :
    i = 0 ∧ st' = ((st.alloc (.list [])).1.setField o n (.list st.size)).put st.size (.list [v]) := by
  cases hw : modes.write with
  | false =>
    simp [insertAt, writeCell, readCell_of_null hr hf, Accessor.set, hw, Access.step, bind,
      EStateM.bind, throw, throwThe, MonadExceptOf.throw, EStateM.throw, modifyGetThe,
      MonadStateOf.modifyGet, EStateM.modifyGet] at hrun
  | true =>
    simp [insertAt, writeCell, readCell_of_null hr hf, Accessor.set, hw, Access.step,
      Access.expectObject, items, Store.items, checkIndex, setItems, Store.setItems,
      Store.handle_alloc, Store.cell?_alloc_setField ho, bind, EStateM.bind, getThe,
      MonadStateOf.get, EStateM.get, pure, EStateM.pure, modify, modifyGet, MonadStateOf.modifyGet,
      EStateM.modifyGet, throw, throwThe, MonadExceptOf.throw, modifyGetThe] at hrun
    by_cases hi0 : i = 0
    · subst hi0
      simp [EStateM.pure, Store.cell?_alloc_setField ho] at hrun
      exact ⟨rfl, hrun.symm⟩
    · simp [hi0, EStateM.throw] at hrun

theorem removeAt_of_null (hr : modes.read = true) (hf : st.field o n = .null) (ho : o < st.size)
    (i : Nat) {v : Value} {st' : Store}
    (hrun : (list (.field n dt modes)).removeAt (.object o) i st = .ok v st') : False := by
  cases hw : modes.write <;>
    simp [removeAt, writeCell, readCell_of_null hr hf, Accessor.set, hw, Access.step,
      Access.expectObject, items, Store.items, checkIndex, Store.handle_alloc,
      Store.cell?_alloc_setField ho, bind, EStateM.bind, getThe, MonadStateOf.get, EStateM.get,
      pure, EStateM.pure, modify, modifyGet, MonadStateOf.modifyGet, EStateM.modifyGet, throw,
      throwThe, MonadExceptOf.throw, EStateM.throw, modifyGetThe] at hrun

end Multi

/-- The engine's manager of an ordered association held in a readable list field keeps the
indexed contract, over the list the field holds. -/
theorem indexedLaws_fieldList {n : String} {dt : DataType} {modes : AccessModes}
    (hr : modes.read = true) (c : ManagerCapability) (ids : List IdentityKey) (owner : Value) :
    (Manager.collection c (.list (.field n dt modes)) ids).IndexedLaws owner (fieldList n owner) where
  begin _ := Run.Keeps.pure ()
  finish _ := Run.Keeps.pure ()
  size := by
    intro ctx s k s' xs hl hrun
    obtain ⟨st, hx, rfl⟩ := Run.access_ok hrun
    obtain ⟨o, inst, rfl, hi, ⟨h, hf, hc⟩ | ⟨hf, rfl⟩⟩ := fieldList_cases hl
    · rw [Multi.size_of_list hr hf hc] at hx
      cases hx
      exact ⟨rfl, rfl⟩
    · rw [Multi.size_of_null hr hf] at hx
      cases hx
      exact ⟨rfl, rfl⟩
  getAt := by
    intro ctx s i v s' xs hl hrun
    obtain ⟨st, hx, rfl⟩ := Run.access_ok hrun
    obtain ⟨o, inst, rfl, hi, ⟨h, hf, hc⟩ | ⟨hf, rfl⟩⟩ := fieldList_cases hl
    · rw [Multi.getAt_of_list hr hf hc] at hx
      cases hxi : xs[i]? with
      | some w => rw [hxi] at hx; cases hx; exact ⟨rfl, rfl⟩
      | none => rw [hxi] at hx; cases hx
    · rw [Multi.getAt_of_null hr hf] at hx
      cases hx
  addAt := by
    intro ctx s i v s' xs hl hrun
    obtain ⟨st, hx, rfl⟩ := Run.access_ok hrun
    obtain ⟨o, inst, rfl, hi, ⟨h, hf, hc⟩ | ⟨hf, rfl⟩⟩ := fieldList_cases hl
    · rw [Multi.insertAt_of_list hr hf hc] at hx
      split at hx
      · cases hx
        obtain ⟨hi', hf', hc'⟩ :=
          Store.put_container hi hc (fun _ => nofun) (.list (xs.insertIdx i v))
        exact ⟨fieldList_of_list hi' (by rw [hf', hf]) hc', rfl, by rw [Store.size_put]⟩
      · cases hx
    · have ho := Store.lt_size_of_instance? hi
      obtain ⟨rfl, rfl⟩ := Multi.insertAt_of_null hr hf ho i v hx
      -- a fresh list cell is stored in the field and given the element
      obtain ⟨⟨inst', hi'⟩, hf', hc', hsize⟩ :=
        Store.put_alloc_setField hi n (.list []) (.list [v]) (.list s.store.size)
      refine ⟨fieldList_of_list hi' hf' hc', rfl, ?_⟩
      rw [hsize]
      exact Nat.le_succ _
  removeAt := by
    intro ctx s i v s' xs hl hrun
    obtain ⟨st, hx, rfl⟩ := Run.access_ok hrun
    obtain ⟨o, inst, rfl, hi, ⟨h, hf, hc⟩ | ⟨hf, rfl⟩⟩ := fieldList_cases hl
    · rw [Multi.removeAt_of_list hr hf hc] at hx
      split at hx
      · rename_i hlt
        cases hx
        obtain ⟨hi', hf', hc'⟩ :=
          Store.put_container hi hc (fun _ => nofun) (.list (xs.eraseIdx i))
        exact ⟨by simp [List.getElem?_eq_getElem hlt], fieldList_of_list hi' (by rw [hf', hf]) hc',
          rfl, by rw [Store.size_put]⟩
      · cases hx
    · exact (Multi.removeAt_of_null hr hf (Store.lt_size_of_instance? hi) i hx).elim
  newObject := by
    intro st xs t hl
    obtain ⟨o, inst, rfl, hi, ⟨h, hf, hc⟩ | ⟨hf, rfl⟩⟩ := fieldList_cases hl
    · have hco := Store.newObject_cell?_of_lt (t := t) (Store.lt_size_of_instance? hi)
      exact fieldList_of_list (by rw [Store.instance?_congr hco, hi])
        (by rw [Store.field_congr hco, hf])
        (by rw [Store.newObject_cell?_of_lt (Store.lt_size_of_cell? hc), hc])
    · have hco := Store.newObject_cell?_of_lt (t := t) (Store.lt_size_of_instance? hi)
      exact fieldList_of_null (by rw [Store.instance?_congr hco, hi])
        (by rw [Store.field_congr hco, hf])

-- ============================================================ people and their friends

namespace Sample

/-- People with a name and a list of friends. -/
def personType : ModelType :=
  { name := "Person", props := [.field "name" (.scalar .string), .field "friends" .list] }

/-- A person whose friends list holds one person, Cy: the list is cell 0, the person cell 1,
Cy's own friends cell 2 and Cy cell 3. -/
def friendsStore : Store :=
  let (st, p) := ({} : Store).newObject personType
  let (st, cy) := st.newObject personType
  let st := st.setField cy "name" (.scalar (.string "Cy"))
  st.setItems (match st.field p "friends" with | .list h => h | _ => 0) [.object cy]

/-- The engine's manager of a friends list with no identity: ordered access through the
field. -/
def friendsManager : Manager :=
  .collection .indexed (.list (.field "friends" .list .readWrite)) []

/-- The manager of a friends list that knows people by name. -/
def friendsByName : Manager :=
  .collection .indexed (.list (.field "friends" .list .readWrite))
    [{ name := "name", accessor := .field "name" (.scalar .string) .readWrite }]

/-- A registry of people by name, holding Cy. -/
def registryContext : Context :=
  { resolvers := [{ type := personType, key := "name", objects := [3] }] }

def cy : Staged := .entity personType [("name", .value (.string "Cy"))]

def dee : Staged := .entity personType [("name", .value (.string "Dee"))]

/-- The friends list of person 1. -/
def friends : Store → Option (List Value) := fieldList "friends" (.object 1)

def start : RunState := { store := friendsStore }

/-- Owned friends, into whom injecting writes nothing. -/
def owned : Reconciler := ⟨false, fun _ _ _ => pure ()⟩

/-- Friends by reference, into whom injecting writes nothing. -/
def resolving : Reconciler := ⟨true, fun _ _ _ => pure ()⟩

/-- The state after Dee and Cy are reconciled with the friends list as owned friends. -/
def rebuilt : RunState := (owned.ordered friendsByName {} (.object 1) [dee, cy]).after start

end Sample

namespace Reconciler

variable {m : Manager} {owner : Value} {live : Store → Option (List Value)}
  {ctx : Context} {s s' : RunState} {r : Reconciler}

theorem ordered_rebuilds_in_view_order (hm : m.IndexedLaws owner live) (hr : r.Framed live)
    {es : List Staged} {L : List Value} (hL : live s.store = some L)
    (hrun : r.ordered m ctx owner es s = .ok () s') :
    ∃ (outs : List Outcome) (tells : List (List Notice)),
      outs.map Outcome.matched? = (r.orderedPlan m ctx owner es s L).1 ∧
      live s'.store = some (outs.map (.object ·.handle)) ∧
      List.Forall₂ (r.Tells ·.handle ·) outs tells ∧
      s'.notices = s.notices ++ (List.zipWith Outcome.notices outs tells).flatten ++
        ((r.orderedPlan m ctx owner es s L).2.filterMap Value.object?).map .discarded ∧
      (L.filterMap Value.object?).Perm (outs.filterMap Outcome.matched? ++
        (r.orderedPlan m ctx owner es s L).2.filterMap Value.object?) ∧
      (r.reference = false → (∀ h ∈ L.filterMap Value.object?, h < s.store.size) →
        (L.filterMap Value.object?).Nodup →
        ∀ o ∈ outs, o.handle ∉ (r.orderedPlan m ctx owner es s L).2.filterMap Value.object?) := by
  obtain ⟨outs, tells, hmatch, hl, htells, hn, hfresh⟩ := ordered_run hm hr hL hrun
  have hperm : (L.filterMap Value.object?).Perm (outs.filterMap Outcome.matched? ++
      (r.orderedPlan m ctx owner es s L).2.filterMap Value.object?) := by
    have h : (L.filterMap Value.object?).Perm ((r.orderedPlan m ctx owner es s L).1.filterMap id ++
        (r.orderedPlan m ctx owner es s L).2.filterMap Value.object?) :=
      orderedMatch_perm es _ L
    rwa [← hmatch, List.filterMap_map, Function.id_comp] at h
  refine ⟨outs, tells, hmatch, hl, htells, hn, hperm, ?_⟩
  intro hown hvalid hnodup o ho hleft
  have hdisj := List.disjoint_of_nodup_append (hperm.nodup_iff.mp hnodup)
  cases o with
  | matched h =>
    -- a matched object left the pool, and the live objects are distinct
    exact hdisj (List.mem_filterMap.mpr ⟨_, ho, rfl⟩) hleft
  | obtained a =>
    -- an owned associate is newer than every live object
    have hold := hvalid a (hperm.mem_iff.mpr (List.mem_append_right _ hleft))
    have hnew := hfresh hown a (List.mem_filterMap.mpr ⟨_, ho, rfl⟩)
    exact absurd hold (Nat.not_lt.mpr hnew)

/-- Dee and Cy reconciled with a friends list that holds Cy: Dee gets a new associate in
front of Cy, who is kept. -/
theorem ordered_friends_rebuilt :
    Sample.friendsByName.IndexedLaws (.object 1) Sample.friends ∧
    Sample.owned.Framed Sample.friends ∧
    Sample.friends Sample.start.store = some [.object 3] ∧
    Sample.owned.ordered Sample.friendsByName {} (.object 1) [Sample.dee, Sample.cy]
      Sample.start = .ok () Sample.rebuilt ∧
    ∃ (outs : List Outcome) (tells : List (List Notice)),
      outs.map Outcome.matched? = (Sample.owned.orderedPlan Sample.friendsByName {} (.object 1)
        [Sample.dee, Sample.cy] Sample.start [.object 3]).1 ∧
      Sample.friends Sample.rebuilt.store = some (outs.map (.object ·.handle)) ∧
      List.Forall₂ (Sample.owned.Tells ·.handle ·) outs tells ∧
      Sample.rebuilt.notices = Sample.start.notices ++
        (List.zipWith Outcome.notices outs tells).flatten ++
        ((Sample.owned.orderedPlan Sample.friendsByName {} (.object 1) [Sample.dee, Sample.cy]
          Sample.start [.object 3]).2.filterMap Value.object?).map .discarded ∧
      ([Value.object 3].filterMap Value.object?).Perm (outs.filterMap Outcome.matched? ++
        (Sample.owned.orderedPlan Sample.friendsByName {} (.object 1) [Sample.dee, Sample.cy]
          Sample.start [.object 3]).2.filterMap Value.object?) ∧
      (Sample.owned.reference = false →
        (∀ h ∈ [Value.object 3].filterMap Value.object?, h < Sample.start.store.size) →
        ([Value.object 3].filterMap Value.object?).Nodup →
        ∀ o ∈ outs, o.handle ∉ (Sample.owned.orderedPlan Sample.friendsByName {} (.object 1)
          [Sample.dee, Sample.cy] Sample.start [.object 3]).2.filterMap Value.object?) := by
  have hm : Sample.friendsByName.IndexedLaws (.object 1) Sample.friends :=
    indexedLaws_fieldList rfl _ _ _
  have hr : Sample.owned.Framed Sample.friends := framed_of_pure false _
  have hL : Sample.friends Sample.start.store = some [.object 3] := by cbv
  have hrun : Sample.owned.ordered Sample.friendsByName {} (.object 1) [Sample.dee, Sample.cy]
      Sample.start = .ok () Sample.rebuilt := by
    cbv
  exact ⟨hm, hr, hL, hrun, ordered_rebuilds_in_view_order hm hr hL hrun⟩

/-- Cy, a reference, reconciled with a friends list that holds Cy itself, when the manager
knows no identity: the registry finds Cy, who is put in front, announced created, and then, as
the live Cy no entity matched, removed from behind and announced discarded. The list ends as
`[Cy]`, and the one associate was discarded. -/
theorem ordered_reference_discarded :
    match Sample.resolving.ordered Sample.friendsManager Sample.registryContext (.object 1)
        [Sample.cy] Sample.start with
    | .ok _ s => s.notices = [.created 3, .discarded 3] ∧ Sample.friends s.store = some [.object 3]
    | .error _ _ => False := by
  cbv

end Reconciler

end GraphViews

import Mathlib
import GraphViews.Proofs.Ordered
/-!
# Unordered reconciliation claims each live object once and loses nothing

Unordered reconciliation takes a snapshot of the live set's objects as a pool. Each staged
entity, in order, claims the first object of the pool that the manager judges its associate and
takes it out of the pool; an entity that claims nothing gets a new or resolved associate, which
is added to the set and announced created. New associates never join the pool. The objects left
in the pool are then removed from the set and announced discarded.

The statement is made against a contract (`Manager.UnorderedLaws`) that says what iterating,
adding and removing do to the members of the set, and a set never holds an object twice. The
engine's set-field manager keeps it (`unorderedLaws_fieldSet`), with swap-removal shown to take
out exactly the removed object (`swapRemove_perm`, `mem_eraseIdx_of_nodup`).

The proof follows a plan decided in advance, `unorderedMatch`, with the verdicts the run
computes (`unorderedVerdict`): the step lemmas (`unorderedStep_skip`, `unorderedStep_claimed`,
`unorderedStep_obtained`) say what one element does to the pool, the members and the notices;
`foldlM_unorderedStep` carries them over the loop and `discardAll_ok` over the trailing removals,
and `unordered_run` puts the bracket around them. Injecting an entity may tell notices of its
own, from the associations inside it (`Reconciler.Framed`); the reconciliation's notices come
after each injection's block. A permutation of entities that each match exactly their own
object claims the whole pool and tells nothing beyond what the injections tell
(`unorderedMatch_of_perm`, `unordered_permutation_quiet`).

An associate obtained for an entity is a member at the end when it is a new object; a
reference resolved to a live object that no entity claimed is in the pool, so it is added, which
changes nothing, and then removed with the unclaimed: `unordered_reference_discarded`.
-/

namespace GraphViews

-- ============================================================ the contract of an unordered manager

/-- The association `live` reads is well formed in the store, and its members are the values
that `P` holds of. -/
def Members (live : Store → Option (List Value)) (st : Store) (P : Value → Prop) : Prop :=
  ∃ ys, live st = some ys ∧ ∀ w, w ∈ ys ↔ P w

theorem Members.of_live {live : Store → Option (List Value)} {st : Store} {xs : List Value}
    (h : live st = some xs) : Members live st (· ∈ xs) :=
  ⟨xs, h, fun _ => Iff.rfl⟩

theorem Members.congr {live : Store → Option (List Value)} {st : Store} {P Q : Value → Prop}
    (h : Members live st P) (hPQ : ∀ w, P w ↔ Q w) : Members live st Q := by
  obtain ⟨ys, hl, hys⟩ := h
  exact ⟨ys, hl, fun w => (hys w).trans (hPQ w)⟩

/-- The contract of an unordered manager for one owner, over the association `live` reads: on a
well-formed store the association holds the values `xs`, no object twice, and the manager
iterates exactly them; adding an object makes it a member, removing one takes it out, and
neither touches the other members, tells anyone anything or shrinks the store. -/
structure Manager.UnorderedLaws (m : Manager) (owner : Value)
    (live : Store → Option (List Value)) : Prop where
  nodup : ∀ {st xs}, live st = some xs → (xs.filterMap Value.object?).Nodup
  begin : ∀ c, Run.Keeps (m.begin c)
  finish : ∀ c, Run.Keeps (m.finish c)
  iterate : ∀ {c s ys s' xs}, live s.store = some xs → m.iterate c owner s = .ok ys s' →
    ys = xs ∧ s' = s
  add : ∀ {c s h s' xs}, live s.store = some xs → m.add c owner (.object h) s = .ok () s' →
    Members live s'.store (fun w => w ∈ xs ∨ w = .object h) ∧
      s'.notices = s.notices ∧ s.store.size ≤ s'.store.size
  remove : ∀ {c s h b s' xs}, live s.store = some xs →
    m.remove c owner (.object h) s = .ok b s' →
    Members live s'.store (fun w => w ∈ xs ∧ w ≠ .object h) ∧
      s'.notices = s.notices ∧ s.store.size ≤ s'.store.size
  newObject : ∀ {st xs} t, live st = some xs → live (st.newObject t).1 = some xs

-- ============================================================ unordered matching, in advance

/-- Unordered matching, decided in advance: each entity in turn claims the first object of the
pool that `same n` accepts, which leaves the pool; `none` marks an entity that gets a new
associate. New associates never join the pool. Returns the claims and the unclaimed objects. -/
def unorderedMatch (same : Nat → Handle → Entity → Bool) :
    List Handle → List Staged → List (Option Handle) × List Handle
  | pool, [] => ([], pool)
  | pool, st :: rest =>
    match st.entity? with
    | none => unorderedMatch (fun n => same (n + 1)) pool rest
    | some e =>
      match pool.find? (same 0 · e) with
      | some h =>
        let next := unorderedMatch (fun n => same (n + 1)) (pool.erase h) rest
        (some h :: next.1, next.2)
      | none =>
        let next := unorderedMatch (fun n => same (n + 1)) pool rest
        (none :: next.1, next.2)

/-- The claims and the unclaimed objects split the pool. -/
theorem unorderedMatch_perm (es : List Staged) :
    ∀ (same : Nat → Handle → Entity → Bool) (pool : List Handle),
      pool.Perm ((unorderedMatch same pool es).1.filterMap id ++
        (unorderedMatch same pool es).2) := by
  induction es with
  | nil => intro same pool; simp [unorderedMatch]
  | cons st es ih =>
    intro same pool
    simp only [unorderedMatch]
    split
    · exact ih _ pool
    · split
      · rename_i h hf
        have hmem : h ∈ pool := List.mem_of_find?_eq_some hf
        simp only [List.filterMap_cons, id, List.cons_append]
        exact (List.perm_cons_erase hmem).trans ((ih _ (pool.erase h)).cons h)
      · simpa [List.filterMap_cons] using ih _ pool

/-- Entities that each accept exactly one object of the pool, in the order of a permutation of
the pool, claim the whole pool in that order and get no new associate. -/
theorem unorderedMatch_of_perm (es : List Staged) :
    ∀ (same : Nat → Handle → Entity → Bool) (pool hs : List Handle), pool.Perm hs →
      es.length = hs.length →
      (∀ n st, es[n]? = some st → ∃ e, st.entity? = some e ∧
        ∀ h ∈ pool, same n h e = true ↔ hs[n]? = some h) →
      unorderedMatch same pool es = (hs.map some, []) := by
  induction es with
  | nil =>
    intro same pool hs hperm hlen _
    obtain rfl : hs = [] := List.eq_nil_of_length_eq_zero hlen.symm
    simp [unorderedMatch, hperm.eq_nil]
  | cons st es ih =>
    intro same pool hs hperm hlen hsame
    obtain ⟨h, hs, rfl⟩ : ∃ h hs', hs = h :: hs' :=
      List.exists_cons_of_length_eq_add_one hlen.symm
    obtain ⟨e, he, hone⟩ := hsame 0 st rfl
    -- the first entity accepts `h` alone, so the search finds it wherever it stands
    have hfind : pool.find? (same 0 · e) = some h := by
      have hmem : h ∈ pool := hperm.symm.subset List.mem_cons_self
      cases hx : pool.find? (same 0 · e) with
      | none =>
        have hno := List.find?_eq_none.mp hx h hmem
        rw [(hone h hmem).mpr rfl] at hno
        exact absurd rfl hno
      | some x =>
        have hsx := List.find?_some hx
        have hxh := (hone x (List.mem_of_find?_eq_some hx)).mp hsx
        simp only [List.getElem?_cons_zero, Option.some.injEq] at hxh
        rw [hxh]
    have hrest : (pool.erase h).Perm hs := by
      simpa using hperm.erase h
    simp only [unorderedMatch, he, hfind, List.map_cons]
    rw [ih _ _ hs hrest (by simpa using hlen) fun n st' hst' => ?_]
    obtain ⟨e', he', hone'⟩ := hsame (n + 1) st' (by simpa using hst')
    exact ⟨e', he', fun x hx => by simpa using hone' x (List.erase_subset hx)⟩

/-- The index search of the loop finds what `find?` finds, and erasing at its index erases it. -/
theorem find?_of_findIdx? {p : Handle → Bool} :
    ∀ {pool : List Handle} {i : Nat}, pool.findIdx? p = some i →
      pool.find? p = some (pool[i]?.getD 0) ∧ pool.eraseIdx i = pool.erase (pool[i]?.getD 0) := by
  intro pool
  induction pool with
  | nil => intro i h; simp at h
  | cons a pool ih =>
    intro i h
    rw [List.findIdx?_cons] at h
    by_cases ha : p a
    · simp only [ha, if_true, Option.some.injEq] at h
      subst h
      simp [ha]
    · simp only [ha, Bool.false_eq_true, if_false, Option.map_eq_some_iff] at h
      obtain ⟨j, hj, rfl⟩ := h
      obtain ⟨hf, he⟩ := ih hj
      have hne : (a == pool[j]?.getD 0) = false := by
        have hp := List.find?_some hf
        simp only [beq_eq_false_iff_ne, ne_eq]
        rintro rfl
        exact ha hp
      simp [ha, hf, he, hne]

theorem find?_eq_none_of_findIdx? {p : Handle → Bool} {pool : List Handle}
    (h : pool.findIdx? p = none) : pool.find? p = none := by
  rw [List.findIdx?_eq_none_iff] at h
  exact List.find?_eq_none.mpr fun x hx => by simp [h x hx]

namespace Reconciler

-- ============================================================ one step of the loop

/-- The loop body of unordered reconciliation: one staged element, against the pool of
unclaimed objects. -/
def unorderedStep (r : Reconciler) (m : Manager) (ctx : Context) (owner : Value)
    (untouched : List Handle) (item : Staged × Nat) : Run (List Handle) := do
  let (staged, position) := item
  let some e ← entityOf ctx staged | pure untouched
  let cctx := ctx.push (Frame.indexed position (some e.type))
  let s ← Run.store
  match untouched.findIdx? (m.isSame s · e) with
  | some i =>
    r.inject cctx e (untouched[i]?.getD 0)
    pure (untouched.eraseIdx i)
  | none =>
    let h ← r.obtain cctx e
    r.inject cctx e h
    m.add cctx owner (.object h)
    cctx.entityCreated h
    pure untouched

/-- Removes the unclaimed objects, announcing each discarded. -/
def discardAll (m : Manager) (ctx : Context) (owner : Value) (hs : List Handle) : Run PUnit :=
  forIn hs PUnit.unit fun h _ => do
    let _ ← m.remove ctx owner (.object h)
    ctx.entityDiscarded h
    pure (ForInStep.yield PUnit.unit)

theorem unordered_eq (r : Reconciler) (m : Manager) (ctx : Context) (owner : Value)
    (es : List Staged) :
    r.unordered m ctx owner es = (do
      m.begin ctx
      let live ← m.iterate ctx owner
      let untouched ←
        es.zipIdx.foldlM (r.unorderedStep m ctx owner) (live.filterMap Value.object?)
      discardAll m ctx owner untouched
      m.finish ctx) := rfl

variable {m : Manager} {owner : Value} {live : Store → Option (List Value)} {ctx : Context}
  {r : Reconciler} {e : Entity} {s s' : RunState} {st : Staged} {p : Nat}
  {pool pool' : List Handle} {xs : List Value}

/-- A null or unchanged element claims nothing. -/
theorem unorderedStep_skip (he : st.entity? = none)
    (hrun : r.unorderedStep m ctx owner pool (st, p) s = .ok pool' s') :
    pool' = pool ∧ s' = s := by
  obtain ⟨o, s₁, h₁, h₂⟩ := Run.bind_ok hrun
  obtain ⟨rfl, rfl⟩ := entityOf_ok h₁
  rw [he] at h₂
  cases h₂
  exact ⟨rfl, rfl⟩

/-- An entity that an unclaimed object matches claims it and updates it in place; the set is
not touched and only the injection tells anything. -/
theorem unorderedStep_claimed (hr : r.Framed live) (hs : live s.store = some xs)
    (he : st.entity? = some e) {h : Handle} (hf : pool.find? (m.isSame s.store · e) = some h)
    (hrun : r.unorderedStep m ctx owner pool (st, p) s = .ok pool' s') :
    pool' = pool.erase h ∧ live s'.store = some xs ∧
      (∃ told, r.Tells h told ∧ s'.notices = s.notices ++ told) ∧
      s.store.size ≤ s'.store.size := by
  obtain ⟨o, s₁, h₁, h₂⟩ := Run.bind_ok hrun
  obtain ⟨rfl, hs₁⟩ := entityOf_ok h₁
  rw [hs₁, he] at h₂
  obtain ⟨now, s₂, h₃, h₄⟩ := Run.bind_ok h₂
  cases h₃
  cases hi : pool.findIdx? (m.isSame s.store · e) with
  | none =>
    rw [find?_eq_none_of_findIdx? hi] at hf
    cases hf
  | some i =>
    simp only [hi] at h₄
    obtain ⟨hfind, herase⟩ := find?_of_findIdx? hi
    rw [hf, Option.some.injEq] at hfind
    subst hfind
    obtain ⟨u, s₃, h₅, h₆⟩ := Run.bind_ok h₄
    obtain ⟨told, ht, hl, hn, hz⟩ := hr.inject hs h₅
    cases h₆
    exact ⟨herase, hl, ⟨told, ht, hn⟩, hz⟩

/-- An entity that no unclaimed object matches gets a new associate, added to the set and
announced created once its injection is done; the pool stays as it is. -/
theorem unorderedStep_obtained (hm : m.UnorderedLaws owner live) (hr : r.Framed live)
    (hs : live s.store = some xs) (he : st.entity? = some e)
    (hf : pool.find? (m.isSame s.store · e) = none)
    (hrun : r.unorderedStep m ctx owner pool (st, p) s = .ok pool' s') :
    ∃ a, pool' = pool ∧ Members live s'.store (fun w => w ∈ xs ∨ w = .object a) ∧
      (∃ told, r.Tells a told ∧ s'.notices = s.notices ++ told ++ [.created a]) ∧
      s.store.size ≤ s'.store.size ∧
      (r.reference = false → s.store.size ≤ a) := by
  obtain ⟨o, s₁, h₁, h₂⟩ := Run.bind_ok hrun
  obtain ⟨rfl, hs₁⟩ := entityOf_ok h₁
  rw [hs₁, he] at h₂
  obtain ⟨now, s₂, h₃, h₄⟩ := Run.bind_ok h₂
  cases h₃
  cases hi : pool.findIdx? (m.isSame s.store · e) with
  | some i =>
    rw [(find?_of_findIdx? hi).1] at hf
    cases hf
  | none =>
    simp only [hi] at h₄
    obtain ⟨a, s₄, h₅, h₆⟩ := Run.bind_ok h₄
    have hl₄ := live_obtain hm.newObject hs h₅
    obtain ⟨hn₄, -⟩ := obtain_ok h₅
    have hz₄ := size_le_obtain h₅
    obtain ⟨u, s₅, h₇, h₈⟩ := Run.bind_ok h₆
    obtain ⟨told, ht, hl₅, hn₅, hz₅⟩ := hr.inject hl₄ h₇
    obtain ⟨u', s₆, h₉, h₁₀⟩ := Run.bind_ok h₈
    obtain ⟨⟨ys, hl₆, hys⟩, hn₆, hz₆⟩ := hm.add hl₅ h₉
    obtain ⟨u'', s₇, h₁₁, h₁₂⟩ := Run.bind_ok h₁₀
    obtain ⟨hst₇, hn₇⟩ := Context.entityCreated_ok h₁₁
    cases h₁₂
    refine ⟨a, rfl, ⟨ys, hst₇ ▸ hl₆, hys⟩, ⟨told, ht, ?_⟩, ?_,
      fun hown => (obtain_owned_fresh hown h₅).1⟩
    · rw [hn₇, hn₆, hn₅, hn₄]
    · rw [hst₇]
      omega

-- ============================================================ the loop and the trailing pass

/-- The verdicts of a run of the unordered loop over `items` from the pool `pool` and state `s`:
the `n`-th element is judged in the state the loop reached after the elements before it. -/
def unorderedStepVerdict (r : Reconciler) (m : Manager) (ctx : Context) (owner : Value)
    (items : List (Staged × Nat)) (pool : List Handle) (s : RunState) (n : Nat) :
    Handle → Entity → Bool :=
  m.isSame (Run.after ((items.take n).foldlM (r.unorderedStep m ctx owner) pool) s).store

theorem unorderedStepVerdict_zero (items : List (Staged × Nat)) (pool : List Handle)
    (s : RunState) :
    r.unorderedStepVerdict m ctx owner items pool s 0 = m.isSame s.store := rfl

theorem unorderedStepVerdict_succ {item : Staged × Nat} {items : List (Staged × Nat)}
    {pool₁ : List Handle} {s₁ : RunState}
    (h : r.unorderedStep m ctx owner pool item s = .ok pool₁ s₁) (n : Nat) :
    r.unorderedStepVerdict m ctx owner (item :: items) pool s (n + 1) =
      r.unorderedStepVerdict m ctx owner items pool₁ s₁ n := by
  simp only [unorderedStepVerdict, List.take_succ_cons, List.foldlM_cons, Run.after, bind,
    EStateM.bind, h]

/-- The unordered loop claims objects of the pool as `unorderedMatch` decides with the verdicts
of the run, and leaves the rest of the pool unclaimed; the set gains the obtained associates;
for each entity in order, what its injection told comes first, then the creation of its
associate if it got a new one. -/
theorem foldlM_unorderedStep (hm : m.UnorderedLaws owner live) (hr : r.Framed live)
    (items : List (Staged × Nat)) :
    ∀ {pool pool' : List Handle} {s s' : RunState} {P : Value → Prop},
      Members live s.store P →
      items.foldlM (r.unorderedStep m ctx owner) pool s = .ok pool' s' →
      ∃ (outs : List Outcome) (tells : List (List Notice)),
        outs.map Outcome.matched? =
          (unorderedMatch (r.unorderedStepVerdict m ctx owner items pool s)
            pool (items.map Prod.fst)).1 ∧
        pool' = (unorderedMatch (r.unorderedStepVerdict m ctx owner items pool s)
          pool (items.map Prod.fst)).2 ∧
        Members live s'.store
          (fun w => P w ∨ w ∈ (outs.filterMap Outcome.obtained?).map .object) ∧
        List.Forall₂ (r.Tells ·.handle ·) outs tells ∧
        s'.notices = s.notices ++ (List.zipWith Outcome.notices outs tells).flatten ∧
        s.store.size ≤ s'.store.size ∧
        (r.reference = false →
          ∀ a ∈ outs.filterMap Outcome.obtained?, s.store.size ≤ a) := by
  induction items with
  | nil =>
    intro pool pool' s s' P hs hrun
    cases hrun
    exact ⟨[], [], rfl, rfl, hs.congr (by simp), .nil, by simp, le_rfl, by simp⟩
  | cons item items ih =>
    intro pool pool' s s' P hs hrun
    obtain ⟨st, p⟩ := item
    rw [List.foldlM_cons] at hrun
    obtain ⟨pool₁, s₁, h₁, h₂⟩ := Run.bind_ok hrun
    simp only [List.map_cons, unorderedMatch, unorderedStepVerdict_succ h₁,
      unorderedStepVerdict_zero]
    obtain ⟨ys, hys, hP⟩ := hs
    cases he : st.entity? with
    | none =>
      obtain ⟨rfl, rfl⟩ := unorderedStep_skip he h₁
      exact ih ⟨ys, hys, hP⟩ h₂
    | some e =>
      cases hf : pool.find? (m.isSame s.store · e) with
      | some h =>
        simp only [hf]
        obtain ⟨rfl, hl₁, ⟨told, ht, hn₁⟩, hz₁⟩ := unorderedStep_claimed hr hys he hf h₁
        obtain ⟨outs, tells, hmatch, hpool, hl, htells, hn, hz, hfresh⟩ := ih ⟨ys, hl₁, hP⟩ h₂
        refine ⟨.matched h :: outs, told :: tells, by simp [hmatch], hpool, hl.congr (by simp),
          .cons ht htells, by simp [hn, hn₁], hz₁.trans hz, ?_⟩
        intro hown a ha
        simp only [List.filterMap_cons, Outcome.obtained?] at ha
        exact hz₁.trans (hfresh hown a ha)
      | none =>
        simp only [hf]
        obtain ⟨a, rfl, hl₁, ⟨told, ht, hn₁⟩, hz₁, hfresh₁⟩ :=
          unorderedStep_obtained hm hr hys he hf h₁
        obtain ⟨outs, tells, hmatch, hpool, hl, htells, hn, hz, hfresh⟩ :=
          ih (hl₁.congr fun w => by rw [hP]) h₂
        refine ⟨.obtained a :: outs, told :: tells, by simp [hmatch], hpool,
          hl.congr (by simp [or_assoc]), .cons ht htells, by simp [hn, hn₁], hz₁.trans hz, ?_⟩
        intro hown b hb
        simp only [List.filterMap_cons, Outcome.obtained?, List.mem_cons] at hb
        rcases hb with rfl | hb
        · exact hfresh₁ hown
        · exact hz₁.trans (hfresh hown b hb)

/-- The trailing pass removes the unclaimed objects from the set, announcing each discarded. -/
theorem discardAll_ok (hm : m.UnorderedLaws owner live) (hs : List Handle) :
    ∀ {s s' : RunState} {u : PUnit} {P : Value → Prop}, Members live s.store P →
      discardAll m ctx owner hs s = .ok u s' →
      Members live s'.store (fun w => P w ∧ ∀ h ∈ hs, w ≠ .object h) ∧
        s'.notices = s.notices ++ hs.map Notice.discarded ∧ s.store.size ≤ s'.store.size := by
  induction hs with
  | nil =>
    intro s s' u P hP hrun
    cases hrun
    exact ⟨hP.congr (by simp), by simp, le_rfl⟩
  | cons h hs ih =>
    intro s s' u P hP hrun
    simp only [discardAll, List.forIn_cons] at hrun
    obtain ⟨step, s₁, h₁, h₂⟩ := Run.bind_ok hrun
    obtain ⟨b, s₂, h₃, h₄⟩ := Run.bind_ok h₁
    obtain ⟨ys, hys, hyP⟩ := hP
    obtain ⟨hl₂, hn₂, hz₂⟩ := hm.remove hys h₃
    obtain ⟨u', s₃, h₅, h₆⟩ := Run.bind_ok h₄
    obtain ⟨hst₃, hn₃⟩ := Context.entityDiscarded_ok h₅
    cases h₆
    obtain ⟨hl, hn, hz⟩ := ih (hst₃ ▸ hl₂.congr fun w => by rw [hyP]) h₂
    refine ⟨hl.congr fun w => by simp [and_assoc], by simp [hn, hn₃, hn₂], ?_⟩
    rw [hst₃] at hz
    exact hz₂.trans hz

-- ============================================================ the whole reconciliation

/-- The verdicts of unordered reconciliation: the `n`-th staged element is judged in the state
reached once the bracket is open, the set iterated and the elements before it reconciled. -/
def unorderedVerdict (r : Reconciler) (m : Manager) (ctx : Context) (owner : Value)
    (es : List Staged) (s : RunState) (n : Nat) : Handle → Entity → Bool :=
  m.isSame (Run.after (m.begin ctx >>= fun _ => m.iterate ctx owner >>= fun live =>
    (es.zipIdx.take n).foldlM (r.unorderedStep m ctx owner) (live.filterMap Value.object?)) s).store

/-- What unordered reconciliation decides for the live set `L`, with the verdicts of its run:
the objects the entities claim and the objects left unclaimed. -/
def unorderedPlan (r : Reconciler) (m : Manager) (ctx : Context) (owner : Value)
    (es : List Staged) (s : RunState) (L : List Value) : List (Option Handle) × List Handle :=
  unorderedMatch (r.unorderedVerdict m ctx owner es s) (L.filterMap Value.object?) es

/-- A successful unordered reconciliation of the live set `L`: the entities claim objects of `L`
as planned, the others get new associates, which are added and announced created after their
injection's notices; the unclaimed objects are then removed and announced discarded. -/
theorem unordered_run (hm : m.UnorderedLaws owner live) (hr : r.Framed live)
    {es : List Staged} {L : List Value} (hL : live s.store = some L)
    (hrun : r.unordered m ctx owner es s = .ok () s') :
    ∃ (outs : List Outcome) (tells : List (List Notice)),
      outs.map Outcome.matched? = (r.unorderedPlan m ctx owner es s L).1 ∧
      Members live s'.store (fun w =>
        (w ∈ L ∨ w ∈ (outs.filterMap Outcome.obtained?).map .object) ∧
          ∀ h ∈ (r.unorderedPlan m ctx owner es s L).2, w ≠ .object h) ∧
      List.Forall₂ (r.Tells ·.handle ·) outs tells ∧
      s'.notices = s.notices ++ (List.zipWith Outcome.notices outs tells).flatten ++
        (r.unorderedPlan m ctx owner es s L).2.map .discarded ∧
      (r.reference = false → ∀ a ∈ outs.filterMap Outcome.obtained?, s.store.size ≤ a) := by
  rw [unordered_eq] at hrun
  obtain ⟨u, s₁, h₁, h₂⟩ := Run.bind_ok hrun
  obtain ⟨hst₁, hn₁⟩ := hm.begin ctx s u s₁ h₁
  obtain ⟨ys, s₂, h₃, h₄⟩ := Run.bind_ok h₂
  obtain ⟨hys, hs₂⟩ := hm.iterate (hst₁ ▸ hL) h₃
  rw [hys, hs₂] at h₃ h₄
  -- once the bracket is open and the set iterated, the verdicts are those of the loop
  have hverdicts : r.unorderedVerdict m ctx owner es s =
      r.unorderedStepVerdict m ctx owner es.zipIdx (L.filterMap Value.object?) s₁ := by
    funext n
    simp only [unorderedVerdict, unorderedStepVerdict, Run.after_bind_ok h₁,
      Run.after_bind_ok h₃]
  rw [unorderedPlan, hverdicts]
  obtain ⟨pool, s₃, h₅, h₆⟩ := Run.bind_ok h₄
  obtain ⟨outs, tells, hmatch, hpool, hl₃, htells, hn₃, hz₃, hfresh⟩ :=
    foldlM_unorderedStep hm hr es.zipIdx (Members.of_live (hst₁ ▸ hL)) h₅
  rw [List.zipIdx_map_fst] at hmatch hpool
  obtain ⟨u', s₄, h₇, h₈⟩ := Run.bind_ok h₆
  obtain ⟨hl₄, hn₄, hz₄⟩ := discardAll_ok hm _ hl₃ h₇
  obtain ⟨hst₅, hn₅⟩ := hm.finish ctx s₄ () s' h₈
  refine ⟨outs, tells, hmatch, hpool ▸ hst₅ ▸ hl₄, htells, ?_,
    fun hown a ha => hst₁ ▸ hfresh hown a ha⟩
  rw [hn₅, hn₄, hn₃, hn₁, hpool]

/-- Reconciling a set against entities that, in the order of a permutation of its objects,
each match exactly their own object, tells nothing beyond what injecting each entity into its
object tells, and leaves the set's members as they were. -/
theorem unordered_permutation_quiet (hm : m.UnorderedLaws owner live) (hr : r.Framed live)
    {es : List Staged} {L : List Value} (hL : live s.store = some L)
    (hrun : r.unordered m ctx owner es s = .ok () s') {hs : List Handle}
    (hperm : hs.Perm (L.filterMap Value.object?)) (hlen : es.length = hs.length)
    (hone : ∀ n st, es[n]? = some st → ∃ e, st.entity? = some e ∧
      ∀ h ∈ L.filterMap Value.object?, r.unorderedVerdict m ctx owner es s n h e = true ↔
        hs[n]? = some h) :
    (∃ tells : List (List Notice), List.Forall₂ r.Tells hs tells ∧
      s'.notices = s.notices ++ tells.flatten) ∧ Members live s'.store (· ∈ L) := by
  obtain ⟨outs, tells, hmatch, hl, htells, hn, -⟩ := unordered_run hm hr hL hrun
  have hplan : r.unorderedPlan m ctx owner es s L = (hs.map some, []) :=
    unorderedMatch_of_perm es _ _ hs hperm.symm hlen hone
  rw [hplan] at hmatch hl hn
  dsimp only at hmatch
  -- every entity claims an object, so each outcome is the match of its own object
  obtain rfl := Outcome.eq_map_matched hmatch
  rw [List.forall₂_map_left_iff] at htells
  refine ⟨⟨tells, htells, ?_⟩, hl.congr (by simp)⟩
  simpa [Outcome.zipWith_notices_map_matched htells] using hn

end Reconciler

-- ============================================================ the manager of a set field

/-- A value is the same as an object exactly when it is that object. -/
@[simp] theorem Value.isSame_object {w : Value} {a : Handle} :
    w.isSame (.object a) = true ↔ w = .object a := by
  cases w <;> simp [Value.isSame]

/-- Swap-removal takes out the first element `p` accepts, up to the order of the rest. -/
theorem swapRemove_perm {xs ys : List Value} {p : Value → Bool} (h : swapRemove xs p = some ys) :
    ∃ i, xs.findIdx? p = some i ∧ ys.Perm (xs.eraseIdx i) := by
  unfold swapRemove at h
  cases hi : xs.findIdx? p with
  | none => simp [hi] at h
  | some i =>
    simp only [hi] at h
    refine ⟨i, rfl, ?_⟩
    have hlt : i < xs.length := (List.findIdx?_eq_some_iff_getElem.mp hi).1
    split at h
    · cases h
      rw [List.dropLast_eq_eraseIdx ‹_›]
    · -- the last element takes the removed one's place
      cases h
      have hne : xs ≠ [] := List.ne_nil_of_length_pos (by omega)
      have hlt' : i < xs.dropLast.length := by rw [List.length_dropLast]; omega
      rw [List.getLast?_eq_some_getLast hne, Option.getD_some]
      conv_rhs => rw [← List.dropLast_concat_getLast hne]
      rw [List.eraseIdx_append_of_lt_length hlt']
      exact (List.set_perm_cons_eraseIdx hlt' _).trans (List.perm_append_singleton _ _).symm

/-- In a list that holds no object twice, taking out the place of an object takes out that
object and nothing else. -/
theorem mem_eraseIdx_of_nodup {xs : List Value} {i : Nat} {a : Handle}
    (hd : (xs.filterMap Value.object?).Nodup) (hi : xs[i]? = some (.object a)) (w : Value) :
    w ∈ xs.eraseIdx i ↔ w ∈ xs ∧ w ≠ .object a := by
  obtain ⟨hlt, hxi⟩ := List.getElem?_eq_some_iff.mp hi
  -- the object stands between the elements before and after it, neither of which holds it
  have hsplit : xs = xs.take i ++ .object a :: xs.drop (i + 1) := by
    rw [← hxi, ← List.drop_eq_getElem_cons hlt, List.take_append_drop]
  have hout : .object a ∉ xs.take i ∧ .object a ∉ xs.drop (i + 1) := by
    rw [hsplit, List.filterMap_append, List.filterMap_cons] at hd
    simp only [Value.object?, List.nodup_append, List.nodup_cons, List.mem_cons] at hd
    refine ⟨fun h => ?_, fun h => hd.2.1.1 (List.mem_filterMap.mpr ⟨_, h, rfl⟩)⟩
    exact hd.2.2 a (List.mem_filterMap.mpr ⟨_, h, rfl⟩) a (.inl rfl) rfl
  rw [List.eraseIdx_eq_take_drop_succ]
  conv_rhs => rw [hsplit]
  simp only [List.mem_append, List.mem_cons]
  constructor
  · rintro (h | h)
    · exact ⟨.inl h, fun hw => hout.1 (hw ▸ h)⟩
    · exact ⟨.inr (.inr h), fun hw => hout.2 (hw ▸ h)⟩
  · rintro ⟨h | rfl | h, hw⟩
    · exact .inl h
    · exact absurd rfl hw
    · exact .inr h

namespace Store

variable {s : Store}

theorem setInsert_of_set {h : Handle} {xs : List Value} (hc : s.cell? h = some (.set xs))
    (v : Value) :
    s.setInsert h v =
      if xs.any (·.isSame v) then (s, false) else (s.put h (.set (xs ++ [v])), true) := by
  simp [setInsert, items, setItems, hc]

theorem setRemove_of_some {h : Handle} {xs ys : List Value} {v : Value}
    (hc : s.cell? h = some (.set xs)) (hs : swapRemove xs (·.isSame v) = some ys) :
    s.setRemove h v = (s.put h (.set ys), true) := by
  simp [setRemove, items, setItems, hc, hs]

theorem setRemove_of_none {h : Handle} {xs : List Value} {v : Value}
    (hc : s.cell? h = some (.set xs)) (hs : swapRemove xs (·.isSame v) = none) :
    s.setRemove h v = (s, false) := by
  simp [setRemove, items, hc, hs]

end Store

/-- The elements of the set an object's field holds, when it holds no object twice: none unless
the owner is an object and the field names such a set cell, or is null, which reads as the
empty set. -/
def fieldSet (n : String) (owner : Value) (st : Store) : Option (List Value) :=
  match owner with
  | .object o =>
    (st.instance? o).bind fun _ =>
      match st.field o n with
      | .set h =>
        match st.cell? h with
        | some (.set xs) => if (xs.filterMap Value.object?).Nodup then some xs else none
        | _ => none
      | .scalar .null => some []
      | _ => none
  | _ => none

section FieldSet

variable {n : String} {owner : Value} {o h : Handle} {st : Store} {inst : Instance}
  {xs : List Value}

theorem fieldSet_cases (hl : fieldSet n owner st = some xs) :
    ∃ o inst, owner = .object o ∧ st.instance? o = some inst ∧
      ((∃ h, st.field o n = .set h ∧ st.cell? h = some (.set xs) ∧
        (xs.filterMap Value.object?).Nodup) ∨ (st.field o n = .null ∧ xs = [])) := by
  cases owner with
  | object o =>
    simp only [fieldSet] at hl
    cases hi : st.instance? o with
    | none => simp [hi] at hl
    | some inst =>
      simp only [hi, Option.bind_some] at hl
      refine ⟨o, inst, rfl, hi, ?_⟩
      split at hl
      · rename_i h hf
        split at hl
        · split at hl
          · cases hl
            exact .inl ⟨h, hf, by assumption, by assumption⟩
          · cases hl
        · cases hl
      · cases hl
        exact .inr ⟨by assumption, rfl⟩
      · cases hl
  | _ => cases hl

theorem fieldSet_of_set (hi : st.instance? o = some inst) (hf : st.field o n = .set h)
    (hc : st.cell? h = some (.set xs)) (hd : (xs.filterMap Value.object?).Nodup) :
    fieldSet n (.object o) st = some xs := by
  simp [fieldSet, hi, hf, hc, hd]

theorem fieldSet_of_null (hi : st.instance? o = some inst) (hf : st.field o n = .null) :
    fieldSet n (.object o) st = some [] := by
  simp [fieldSet, hi, hf, Value.null]


end FieldSet

namespace Multi

variable {n : String} {dt : DataType} {modes : AccessModes} {o h : Handle} {st : Store}
  {xs : List Value}

theorem readCell_of_set (hr : modes.read = true) (hf : st.field o n = .set h) :
    readCell (.field n dt modes) "set" (.object o) st = .ok (some h) st := by
  simp [readCell, get_field hr, hf, bind, EStateM.bind, pure, EStateM.pure]

theorem iterate_of_set (hr : modes.read = true) (hf : st.field o n = .set h)
    (hc : st.cell? h = some (.set xs)) :
    (set (.field n dt modes)).iterate (.object o) st = .ok xs st := by
  simp [iterate, capability, readCell_of_set hr hf, items, Store.items, hc, bind,
    EStateM.bind, getThe, MonadStateOf.get, EStateM.get, pure, EStateM.pure]

theorem iterate_of_null (hr : modes.read = true) (hf : st.field o n = .null) :
    (set (.field n dt modes)).iterate (.object o) st = .ok [] st := by
  simp [iterate, capability, readCell_of_null hr hf, bind, EStateM.bind, pure, EStateM.pure]

theorem add_of_set (hr : modes.read = true) (hf : st.field o n = .set h) (v : Value) :
    (set (.field n dt modes)).add (.object o) v st = .ok () (st.setInsert h v).1 := by
  simp [add, writeCell, readCell_of_set hr hf, bind, EStateM.bind, pure, EStateM.pure, modify,
    modifyGet, MonadStateOf.modifyGet, EStateM.modifyGet]

theorem remove_of_set (hr : modes.read = true) (hf : st.field o n = .set h) (v : Value) :
    (set (.field n dt modes)).remove (.object o) v st =
      .ok (st.setRemove h v).2 (st.setRemove h v).1 := by
  simp [remove, readCell_of_set hr hf, Access.step, bind, EStateM.bind, modifyGetThe,
    MonadStateOf.modifyGet, EStateM.modifyGet]

theorem remove_of_null (hr : modes.read = true) (hf : st.field o n = .null) (v : Value) :
    (set (.field n dt modes)).remove (.object o) v st = .ok false st := by
  simp [remove, readCell_of_null hr hf, bind, EStateM.bind, pure, EStateM.pure]

theorem add_of_null (hr : modes.read = true) (hf : st.field o n = .null) (ho : o < st.size)
    (v : Value) {u : Unit} {st' : Store}
    (hrun : (set (.field n dt modes)).add (.object o) v st = .ok u st') :
    st' = ((st.alloc (.set [])).1.setField o n (.set st.size)).put st.size (.set [v]) := by
  cases hw : modes.write with
  | false =>
    simp [add, writeCell, readCell_of_null hr hf, Accessor.set, hw, Access.step, bind,
      EStateM.bind, throw, throwThe, MonadExceptOf.throw, EStateM.throw, modifyGetThe,
      MonadStateOf.modifyGet, EStateM.modifyGet] at hrun
  | true =>
    simp [add, writeCell, readCell_of_null hr hf, Accessor.set, hw, Access.step,
      Access.expectObject, Store.setInsert, Store.items, Store.setItems, Store.handle_alloc,
      Store.cell?_alloc_setField ho, bind, EStateM.bind, pure, EStateM.pure, modify, modifyGet,
      MonadStateOf.modifyGet, EStateM.modifyGet, modifyGetThe] at hrun
    exact hrun.symm

end Multi


/-- The engine's manager of an unordered association held in a readable set field keeps the
unordered contract, over the set the field holds. -/
theorem unorderedLaws_fieldSet {n : String} {dt : DataType} {modes : AccessModes}
    (hr : modes.read = true) (c : ManagerCapability) (ids : List IdentityKey) (owner : Value) :
    (Manager.collection c (.set (.field n dt modes)) ids).UnorderedLaws owner
      (fieldSet n owner) where
  nodup := by
    intro st xs hl
    obtain ⟨o, inst, rfl, hi, ⟨h, hf, hc, hd⟩ | ⟨hf, rfl⟩⟩ := fieldSet_cases hl
    · exact hd
    · exact List.nodup_nil
  begin _ := Run.Keeps.pure ()
  finish _ := Run.Keeps.pure ()
  iterate := by
    intro ctx s ys s' xs hl hrun
    obtain ⟨st, hx, rfl⟩ := Run.access_ok hrun
    obtain ⟨o, inst, rfl, hi, ⟨h, hf, hc, hd⟩ | ⟨hf, rfl⟩⟩ := fieldSet_cases hl
    · rw [Multi.iterate_of_set hr hf hc] at hx
      cases hx
      exact ⟨rfl, rfl⟩
    · rw [Multi.iterate_of_null hr hf] at hx
      cases hx
      exact ⟨rfl, rfl⟩
  add := by
    intro ctx s a s' xs hl hrun
    obtain ⟨st, hx, rfl⟩ := Run.access_ok hrun
    obtain ⟨o, inst, rfl, hi, ⟨h, hf, hc, hd⟩ | ⟨hf, rfl⟩⟩ := fieldSet_cases hl
    · rw [Multi.add_of_set hr hf, Store.setInsert_of_set hc] at hx
      split at hx
      · -- the object is a member already: nothing changes
        rename_i hany
        cases hx
        obtain ⟨w, hw, hsame⟩ := List.any_eq_true.mp hany
        have hmem : Value.object a ∈ xs := Value.isSame_object.mp hsame ▸ hw
        refine ⟨⟨xs, hl, fun w => ⟨.inl, ?_⟩⟩, rfl, le_rfl⟩
        rintro (h | rfl)
        · exact h
        · exact hmem
      · rename_i hany
        cases hx
        obtain ⟨hi', hf', hc'⟩ :=
          Store.put_container hi hc (fun _ => nofun) (.set (xs ++ [.object a]))
        have hnew : a ∉ xs.filterMap Value.object? := by
          intro ha
          obtain ⟨w, hw, hwa⟩ := List.mem_filterMap.mp ha
          refine hany (List.any_eq_true.mpr ⟨w, hw, ?_⟩)
          cases w <;> simp_all [Value.object?]
        have hd' : ((xs ++ [Value.object a]).filterMap Value.object?).Nodup := by
          have hone : [Value.object a].filterMap Value.object? = [a] := rfl
          rw [List.filterMap_append, hone, List.nodup_append]
          refine ⟨hd, List.nodup_singleton a, fun x hx y hy => ?_⟩
          rw [List.mem_singleton.mp hy]
          rintro rfl
          exact hnew hx
        exact ⟨⟨_, fieldSet_of_set hi' (by rw [hf', hf]) hc' hd', by simp⟩, rfl,
          by rw [Store.size_put]⟩
    · have ho := Store.lt_size_of_instance? hi
      obtain ⟨rfl⟩ := Multi.add_of_null hr hf ho _ hx
      obtain ⟨⟨inst', hi'⟩, hf', hc', hsize⟩ :=
        Store.put_alloc_setField hi n (.set []) (.set [.object a]) (.set s.store.size)
      refine ⟨⟨_, fieldSet_of_set hi' hf' hc' (by simp [Value.object?]), by simp⟩, rfl, ?_⟩
      rw [hsize]
      exact Nat.le_succ _
  remove := by
    intro ctx s a b s' xs hl hrun
    obtain ⟨st, hx, rfl⟩ := Run.access_ok hrun
    obtain ⟨o, inst, rfl, hi, ⟨h, hf, hc, hd⟩ | ⟨hf, rfl⟩⟩ := fieldSet_cases hl
    · rw [Multi.remove_of_set hr hf] at hx
      cases hsw : swapRemove xs (·.isSame (Value.object a)) with
      | none =>
        -- no element is the object: nothing changes
        rw [Store.setRemove_of_none hc hsw] at hx
        cases hx
        have hout : Value.object a ∉ xs := by
          intro hmem
          have hsome : (xs.findIdx? (·.isSame (Value.object a))).isSome := by
            rw [List.findIdx?_isSome]
            exact List.any_eq_true.mpr ⟨_, hmem, Value.isSame_object.mpr rfl⟩
          obtain ⟨i, hi⟩ := Option.isSome_iff_exists.mp hsome
          simp only [swapRemove, hi] at hsw
          split at hsw <;> cases hsw
        refine ⟨⟨xs, hl, fun w => ⟨fun h => ⟨h, fun hw => hout (hw ▸ h)⟩, And.left⟩⟩, rfl,
          le_rfl⟩
      | some ys =>
        rw [Store.setRemove_of_some hc hsw] at hx
        cases hx
        obtain ⟨i, hidx, hperm⟩ := swapRemove_perm hsw
        obtain ⟨hlt, hsame, -⟩ := List.findIdx?_eq_some_iff_getElem.mp hidx
        have hxi : xs[i]? = some (.object a) := by
          rw [List.getElem?_eq_getElem hlt, Value.isSame_object.mp hsame]
        obtain ⟨hi', hf', hc'⟩ := Store.put_container hi hc (fun _ => nofun) (.set ys)
        have hd' : (ys.filterMap Value.object?).Nodup :=
          (hperm.filterMap _).nodup_iff.mpr (hd.sublist ((List.eraseIdx_sublist xs i).filterMap _))
        exact ⟨⟨ys, fieldSet_of_set hi' (by rw [hf', hf]) hc' hd',
          fun w => hperm.mem_iff.trans (mem_eraseIdx_of_nodup hd hxi w)⟩, rfl,
          by rw [Store.size_put]⟩
    · rw [Multi.remove_of_null hr hf] at hx
      cases hx
      exact ⟨⟨[], hl, by simp⟩, rfl, le_rfl⟩
  newObject := by
    intro st xs t hl
    obtain ⟨o, inst, rfl, hi, ⟨h, hf, hc, hd⟩ | ⟨hf, rfl⟩⟩ := fieldSet_cases hl
    · have hco := Store.newObject_cell?_of_lt (t := t) (Store.lt_size_of_instance? hi)
      exact fieldSet_of_set (by rw [Store.instance?_congr hco, hi])
        (by rw [Store.field_congr hco, hf])
        (by rw [Store.newObject_cell?_of_lt (Store.lt_size_of_cell? hc), hc]) hd
    · have hco := Store.newObject_cell?_of_lt (t := t) (Store.lt_size_of_instance? hi)
      exact fieldSet_of_null (by rw [Store.instance?_congr hco, hi])
        (by rw [Store.field_congr hco, hf])

-- ============================================================ a set of friends

namespace Sample

/-- People with a name and a set of friends. -/
def memberType : ModelType :=
  { name := "Person", props := [.field "name" (.scalar .string), .field "friends" .set] }

/-- A person whose friends set holds one person, Cy: the set is cell 0, the person cell 1,
Cy's own friends cell 2 and Cy cell 3. -/
def friendSetStore : Store :=
  let (st, p) := ({} : Store).newObject memberType
  let (st, cy) := st.newObject memberType
  let st := st.setField cy "name" (.scalar (.string "Cy"))
  (st.setInsert (match st.field p "friends" with | .set h => h | _ => 0) (.object cy)).1

/-- The engine's manager of a friends set with no identity. -/
def friendSetManager : Manager :=
  .collection .unordered (.set (.field "friends" .set .readWrite)) []

/-- The manager of a friends set that knows people by name. -/
def friendSetByName : Manager :=
  .collection .unordered (.set (.field "friends" .set .readWrite))
    [{ name := "name", accessor := .field "name" (.scalar .string) .readWrite }]

/-- A registry of members by name, holding Cy. -/
def memberRegistry : Context :=
  { resolvers := [{ type := memberType, key := "name", objects := [3] }] }

def cyMember : Staged := .entity memberType [("name", .value (.string "Cy"))]

def deeMember : Staged := .entity memberType [("name", .value (.string "Dee"))]

/-- The friends set of person 1. -/
def friendSet : Store → Option (List Value) := fieldSet "friends" (.object 1)

def setStart : RunState := { store := friendSetStore }

/-- The state after Dee and Cy are reconciled with the friends set as owned friends. -/
def regrouped : RunState :=
  (owned.unordered friendSetByName {} (.object 1) [deeMember, cyMember]).after setStart

end Sample

namespace Reconciler

variable {m : Manager} {owner : Value} {live : Store → Option (List Value)}
  {ctx : Context} {s s' : RunState} {r : Reconciler}

theorem unordered_reconciles_set (hm : m.UnorderedLaws owner live) (hr : r.Framed live)
    {es : List Staged} {L : List Value} (hL : live s.store = some L)
    (hrun : r.unordered m ctx owner es s = .ok () s') :
    ∃ (outs : List Outcome) (tells : List (List Notice)),
      outs.map Outcome.matched? = (r.unorderedPlan m ctx owner es s L).1 ∧
      List.Forall₂ (r.Tells ·.handle ·) outs tells ∧
      s'.notices = s.notices ++ (List.zipWith Outcome.notices outs tells).flatten ++
        (r.unorderedPlan m ctx owner es s L).2.map .discarded ∧
      (L.filterMap Value.object?).Perm
        (outs.filterMap Outcome.matched? ++ (r.unorderedPlan m ctx owner es s L).2) ∧
      Members live s'.store (fun w =>
        (w ∈ L ∨ w ∈ (outs.filterMap Outcome.obtained?).map .object) ∧
          ∀ h ∈ (r.unorderedPlan m ctx owner es s L).2, w ≠ .object h) ∧
      (r.reference = false → (∀ h ∈ L.filterMap Value.object?, h < s.store.size) →
        ∀ o ∈ outs, o.handle ∉ (r.unorderedPlan m ctx owner es s L).2) ∧
      (∀ hs : List Handle, hs.Perm (L.filterMap Value.object?) → es.length = hs.length →
        (∀ n st, es[n]? = some st → ∃ e, st.entity? = some e ∧
          ∀ h ∈ L.filterMap Value.object?, r.unorderedVerdict m ctx owner es s n h e = true ↔
            hs[n]? = some h) →
        (∃ tells : List (List Notice), List.Forall₂ r.Tells hs tells ∧
          s'.notices = s.notices ++ tells.flatten) ∧ Members live s'.store (· ∈ L)) := by
  obtain ⟨outs, tells, hmatch, hl, htells, hn, hfresh⟩ := unordered_run hm hr hL hrun
  have hperm : (L.filterMap Value.object?).Perm
      (outs.filterMap Outcome.matched? ++ (r.unorderedPlan m ctx owner es s L).2) := by
    have h := unorderedMatch_perm es (r.unorderedVerdict m ctx owner es s)
      (L.filterMap Value.object?)
    rwa [← unorderedPlan, ← hmatch, List.filterMap_map, Function.id_comp] at h
  refine ⟨outs, tells, hmatch, htells, hn, hperm, hl, ?_, fun hs hp hlen hone =>
    unordered_permutation_quiet hm hr hL hrun hp hlen hone⟩
  intro hown hvalid o ho hleft
  have hdisj := List.disjoint_of_nodup_append (hperm.nodup_iff.mp (hm.nodup hL))
  cases o with
  | matched h =>
    -- a claimed object left the pool, and the set holds no object twice
    exact hdisj (List.mem_filterMap.mpr ⟨_, ho, rfl⟩) hleft
  | obtained a =>
    -- an owned associate is newer than every live object
    have hold := hvalid a (hperm.mem_iff.mpr (List.mem_append_right _ hleft))
    have hnew := hfresh hown a (List.mem_filterMap.mpr ⟨_, ho, rfl⟩)
    exact absurd hold (Nat.not_lt.mpr hnew)

/-- Dee and Cy reconciled with a friends set that holds Cy: Cy is claimed, and Dee gets a new
associate that joins the set. -/
theorem unordered_friend_set_regrouped :
    Sample.friendSetByName.UnorderedLaws (.object 1) Sample.friendSet ∧
    Sample.owned.Framed Sample.friendSet ∧
    Sample.friendSet Sample.setStart.store = some [.object 3] ∧
    Sample.owned.unordered Sample.friendSetByName {} (.object 1) [Sample.deeMember, Sample.cyMember]
      Sample.setStart = .ok () Sample.regrouped ∧
    ∃ (outs : List Outcome) (tells : List (List Notice)),
      outs.map Outcome.matched? = (Sample.owned.unorderedPlan Sample.friendSetByName {} (.object 1)
        [Sample.deeMember, Sample.cyMember] Sample.setStart [.object 3]).1 ∧
      List.Forall₂ (Sample.owned.Tells ·.handle ·) outs tells ∧
      Sample.regrouped.notices = Sample.setStart.notices ++
        (List.zipWith Outcome.notices outs tells).flatten ++
        (Sample.owned.unorderedPlan Sample.friendSetByName {} (.object 1)
          [Sample.deeMember, Sample.cyMember] Sample.setStart [.object 3]).2.map .discarded ∧
      ([Value.object 3].filterMap Value.object?).Perm (outs.filterMap Outcome.matched? ++
        (Sample.owned.unorderedPlan Sample.friendSetByName {} (.object 1)
          [Sample.deeMember, Sample.cyMember] Sample.setStart [.object 3]).2) ∧
      Members Sample.friendSet Sample.regrouped.store (fun w =>
        (w ∈ [Value.object 3] ∨ w ∈ (outs.filterMap Outcome.obtained?).map .object) ∧
          ∀ h ∈ (Sample.owned.unorderedPlan Sample.friendSetByName {} (.object 1)
            [Sample.deeMember, Sample.cyMember] Sample.setStart [.object 3]).2,
            w ≠ .object h) ∧
      (Sample.owned.reference = false →
        (∀ h ∈ [Value.object 3].filterMap Value.object?, h < Sample.setStart.store.size) →
        ∀ o ∈ outs, o.handle ∉ (Sample.owned.unorderedPlan Sample.friendSetByName {} (.object 1)
          [Sample.deeMember, Sample.cyMember] Sample.setStart [.object 3]).2) ∧
      (∀ hs : List Handle, hs.Perm ([Value.object 3].filterMap Value.object?) →
        [Sample.deeMember, Sample.cyMember].length = hs.length →
        (∀ n st, [Sample.deeMember, Sample.cyMember][n]? = some st →
          ∃ e, st.entity? = some e ∧
          ∀ h ∈ [Value.object 3].filterMap Value.object?,
            Sample.owned.unorderedVerdict Sample.friendSetByName {} (.object 1)
              [Sample.deeMember, Sample.cyMember] Sample.setStart n h e = true ↔
            hs[n]? = some h) →
        (∃ tells : List (List Notice), List.Forall₂ Sample.owned.Tells hs tells ∧
          Sample.regrouped.notices = Sample.setStart.notices ++ tells.flatten) ∧
          Members Sample.friendSet Sample.regrouped.store (· ∈ [Value.object 3])) := by
  have hm : Sample.friendSetByName.UnorderedLaws (.object 1) Sample.friendSet :=
    unorderedLaws_fieldSet rfl _ _ _
  have hr : Sample.owned.Framed Sample.friendSet := framed_of_pure false _
  have hL : Sample.friendSet Sample.setStart.store = some [.object 3] := by cbv
  have hrun : Sample.owned.unordered Sample.friendSetByName {} (.object 1)
      [Sample.deeMember, Sample.cyMember] Sample.setStart = .ok () Sample.regrouped := by
    cbv
  exact ⟨hm, hr, hL, hrun, unordered_reconciles_set hm hr hL hrun⟩

/-- Cy, a reference, reconciled with a friends set that holds Cy itself, when the manager knows
no identity: the registry finds Cy, whose addition changes nothing, and who is announced
created; then, as no entity claimed the live Cy, Cy is removed and announced discarded. The set
ends empty, without the associate obtained for the one entity. -/
theorem unordered_reference_discarded :
    match Sample.resolving.unordered Sample.friendSetManager Sample.memberRegistry (.object 1)
        [Sample.cyMember] Sample.setStart with
    | .ok _ s => s.notices = [.created 3, .discarded 3] ∧ Sample.friendSet s.store = some []
    | .error _ _ => False := by
  cbv

end Reconciler

end GraphViews

import Mathlib
import GraphViews.Proofs.Unordered
/-!
# Keyed reconciliation replaces by key

Keyed reconciliation walks the staged entries of a map in order. An unchanged entry keeps its
key; a null one drops it; an entity keeps the object the map holds under its key when the
manager judges it the entity's associate, updating it in place without a word of its own, and
otherwise puts a new or resolved associate under the key, announcing the displaced object
discarded and the new one created. A trailing pass then removes every live entry whose key no
unchanged entry or entity kept, announcing the objects among their values discarded. Injecting
an entity may tell notices of the associations inside it (`Reconciler.Framed`): each entity's
own notices follow the block its injection told.

Two notions of key equality meet here: the pass remembers the kept keys by identity, kind and
display text (`keyId`), while the map finds entries by Scalar equality. The statement holds
where the two agree on the keys involved (`KeysAgree`) and neither the map nor the staged
entries hold a key twice. They agree on every key but a double: NaN is not equal to itself, so
an untouched NaN entry is announced discarded and never removed (`keyed_nan_key_kept`).

The proof follows the pattern of the other strategies: a plan decided in advance (`keyedMatch`,
with the verdicts of the run), step lemmas for one staged entry (`keyedStep_skip`,
`keyedStep_matched`, `keyedStep_obtained`), the loop by induction (`foldlM_keyedStep`), the
trailing pass by induction (`discardUntouched_ok`), and the bracket around them (`keyed_run`).
The map the run leaves and what it tells are computed from the plan (`keyedResult`,
`keyedNotices`); putting the obtained associates one after another is shown to replace in place
or append (`foldl_putObtained`). The engine's map-field manager keeps the contract
(`keyedLaws_fieldMap`).
-/
namespace GraphViews

open Reconciler (keyId)

/-- Scalar equality and key identity agree on the keys `ks`: two of them are equal exactly when
they have the same kind and display text. -/
def KeysAgree (ks : List Scalar) : Prop :=
  ∀ k₁ ∈ ks, ∀ k₂ ∈ ks, (k₁ == k₂) = (keyId k₁ == keyId k₂)

theorem KeysAgree.mono {ks ks' : List Scalar} (h : KeysAgree ks) (hsub : ks' ⊆ ks) :
    KeysAgree ks' :=
  fun k₁ h₁ k₂ h₂ => h k₁ (hsub h₁) k₂ (hsub h₂)

/-- The value a list of map entries holds under a key: the first entry whose key is equal. -/
def lookupKey (es : List (Scalar × Value)) (k : Scalar) : Option Value :=
  (es.find? (·.1 == k)).map (·.2)

section WriteEntry

variable {M : List (Scalar × Value)} {k k' : Scalar} {v : Value}

/-- Writing an entry keeps the keys, adding the written one when it is new. -/
theorem keys_writeEntry : (writeEntry M k v).1.map Prod.fst ⊆ k :: M.map Prod.fst := by
  unfold writeEntry
  split
  · intro x hx
    simp only [List.map_map] at hx
    refine List.mem_cons_of_mem _ ?_
    convert hx using 2
    funext p
    simp only [Function.comp_apply]
    split <;> rfl
  · intro x hx
    simp only [List.map_append, List.map_cons, List.map_nil, List.mem_append,
      List.mem_singleton] at hx
    rcases hx with hx | rfl
    · exact List.mem_cons_of_mem _ hx
    · exact List.mem_cons_self

/-- Writing under a key leaves what another key, of another identity, looks up. -/
theorem lookupKey_writeEntry_ne (hag : KeysAgree (k :: k' :: M.map Prod.fst))
    (hne : keyId k ≠ keyId k') : lookupKey (writeEntry M k v).1 k' = lookupKey M k' := by
  have hkk' : (k == k') = false := by
    rw [hag k (by simp) k' (by simp)]
    simpa using hne
  unfold writeEntry
  split
  · -- an entry of `k` is there: the entries keep their keys, and the one found under `k'` is
    -- not under `k`
    have hfst : ∀ p : Scalar × Value, (if p.1 == k then (p.1, v) else p).1 = p.1 := by
      intro p
      split <;> rfl
    simp only [lookupKey, List.find?_map, Function.comp_def, hfst]
    cases hf : M.find? (·.1 == k') with
    | none => rfl
    | some p =>
      have hpk' := List.find?_some hf
      have hmem : p.1 ∈ k :: k' :: M.map Prod.fst :=
        List.mem_cons_of_mem _ (List.mem_cons_of_mem _
          (List.mem_map_of_mem (List.mem_of_find?_eq_some hf)))
      have hid : keyId p.1 = keyId k' := by
        rw [hag p.1 hmem k' (by simp)] at hpk'
        simpa using hpk'
      have hpk : (p.1 == k) = false := by
        rw [hag p.1 hmem k (by simp), hid]
        simpa using Ne.symm hne
      simp [hpk]
  · simp only [lookupKey, List.find?_append]
    cases hf : M.find? (·.1 == k') with
    | some p => simp
    | none => simp [hkk']

/-- Writing under a staged key keeps the map's keys agreeing with the staged keys after it. -/
theorem KeysAgree.writeEntry {E : List Scalar} (hag : KeysAgree (M.map Prod.fst ++ k :: E)) :
    KeysAgree ((writeEntry M k v).1.map Prod.fst ++ E) :=
  hag.mono fun x hx => by
    rcases List.mem_append.mp hx with hx | hx
    · rcases List.mem_cons.mp (keys_writeEntry hx) with rfl | hx
      · exact List.mem_append_right _ List.mem_cons_self
      · exact List.mem_append_left _ hx
    · exact List.mem_append_right _ (List.mem_cons_of_mem _ hx)

/-- Writing under a staged key leaves what the staged keys after it look up, where none of them
has its identity. -/
theorem lookupKey_writeEntry_of_not_mem {E : List Scalar}
    (hag : KeysAgree (M.map Prod.fst ++ k :: E)) (hk : keyId k ∉ E.map keyId) :
    ∀ j ∈ E, lookupKey (writeEntry M k v).1 j = lookupKey M j := by
  intro j hj
  refine lookupKey_writeEntry_ne (hag.mono fun x hx => ?_)
    fun hkj => hk (hkj ▸ List.mem_map_of_mem hj)
  simp only [List.mem_cons] at hx
  rcases hx with rfl | rfl | hx
  · exact List.mem_append_right _ List.mem_cons_self
  · exact List.mem_append_right _ (List.mem_cons_of_mem _ hj)
  · exact List.mem_append_left _ hx

/-- Writing an entry, where Scalar equality and key identity agree: the entries of the key's
identity get the value in place, or a new entry goes at the end. -/
theorem writeEntry_eq (hag : KeysAgree (k :: M.map Prod.fst)) :
    (writeEntry M k v).1 =
      if (M.map (keyId ·.1)).contains (keyId k) then
        M.map fun p => if keyId p.1 == keyId k then (p.1, v) else p
      else M ++ [(k, v)] := by
  have hiff : ∀ p ∈ M, (p.1 == k) = (keyId p.1 == keyId k) := fun p hp =>
    hag p.1 (List.mem_cons_of_mem _ (List.mem_map_of_mem hp)) k List.mem_cons_self
  unfold writeEntry
  split
  · rename_i k₀ old hf
    have hmem := List.mem_of_find?_eq_some hf
    have hk₀ : (keyId k₀ == keyId k) = true := by
      have h := List.find?_some hf
      rwa [hiff _ hmem] at h
    have hcontains : (M.map (keyId ·.1)).contains (keyId k) = true := by
      rw [List.contains_iff_mem, List.mem_map]
      exact ⟨_, hmem, by simpa using hk₀⟩
    rw [if_pos hcontains]
    exact List.map_congr_left fun p hp => by rw [hiff p hp]
  · rename_i hf
    have hnotmem : keyId k ∉ M.map (keyId ·.1) := by
      rw [List.mem_map]
      rintro ⟨p, hp, hpk⟩
      have hnot := List.find?_eq_none.mp hf p hp
      rw [hiff p hp, hpk, beq_self_eq_true] at hnot
      exact hnot rfl
    rw [if_neg (by simpa using hnotmem)]

end WriteEntry

-- ============================================================ the entries a run leaves

/-- The entries with the value under each key that `R` names replaced by its associate. -/
def replaceValues (L : List (Scalar × Value)) (R : List (Scalar × Handle)) :
    List (Scalar × Value) :=
  L.map fun p => (p.1, ((R.find? (keyId ·.1 == keyId p.1)).map (Value.object ·.2)).getD p.2)

/-- The associates that `R` names under keys `L` does not hold, as entries, in order. -/
def newEntries (L : List (Scalar × Value)) (R : List (Scalar × Handle)) :
    List (Scalar × Value) :=
  (R.filter fun q => !(L.map (keyId ·.1)).contains (keyId q.1)).map fun q => (q.1, .object q.2)

section Replace

variable {L : List (Scalar × Value)} {R : List (Scalar × Handle)} {q : Scalar × Handle}

theorem replaceValues_nil (L : List (Scalar × Value)) : replaceValues L [] = L := by
  simp [replaceValues]

theorem replaceValues_cons_of_not_mem (hq : keyId q.1 ∉ L.map (keyId ·.1)) :
    replaceValues L (q :: R) = replaceValues L R := by
  refine List.map_congr_left fun p hp => ?_
  have hne : (keyId q.1 == keyId p.1) = false := by
    simp only [beq_eq_false_iff_ne, ne_eq]
    intro h
    exact hq (List.mem_map.mpr ⟨p, hp, h.symm⟩)
  simp [hne]

theorem newEntries_congr {L' : List (Scalar × Value)}
    (h : ∀ r ∈ R, keyId r.1 ∈ L'.map (keyId ·.1) ↔ keyId r.1 ∈ L.map (keyId ·.1)) :
    newEntries L' R = newEntries L R := by
  unfold newEntries
  congr 1
  exact List.filter_congr fun r hr => by simp [h r hr]

/-- No associate of `R` is under a key of the identity of one it does not name. -/
theorem find?_eq_none_of_not_mem {k : Scalar} (hk : keyId k ∉ R.map (keyId ·.1)) :
    R.find? (keyId ·.1 == keyId k) = none := by
  refine List.find?_eq_none.mpr fun r hr h => hk ?_
  exact List.mem_map.mpr ⟨r, hr, by simpa using h⟩

/-- The entries after the replacement are under the live keys and the associates' keys. -/
theorem keys_replaceValues_append_newEntries :
    (replaceValues L R ++ newEntries L R).map Prod.fst ⊆ L.map Prod.fst ++ R.map Prod.fst := by
  intro x hx
  simp only [List.map_append, List.mem_append, replaceValues, newEntries, List.map_map,
    List.mem_map, Function.comp_apply] at hx
  rcases hx with ⟨p, hp, rfl⟩ | ⟨q, hq, rfl⟩
  · exact List.mem_append_left _ (List.mem_map_of_mem hp)
  · exact List.mem_append_right _ (List.mem_map_of_mem (List.mem_filter.mp hq).1)

/-- The step of the loop that puts an obtained associate under its key. -/
def putObtained (M : List (Scalar × Value)) (q : Scalar × Handle) : List (Scalar × Value) :=
  (writeEntry M q.1 (.object q.2)).1

/-- Putting the obtained associates one after another, where Scalar equality and key identity
agree and no identity comes twice, replaces the values of the keys that were there, in place,
and appends the others in order. -/
theorem foldl_putObtained (R : List (Scalar × Handle)) :
    ∀ L : List (Scalar × Value), KeysAgree (L.map Prod.fst ++ R.map Prod.fst) →
      (L.map (keyId ·.1)).Nodup → (R.map (keyId ·.1)).Nodup →
      R.foldl putObtained L = replaceValues L R ++ newEntries L R := by
  induction R with
  | nil => intro L _ _ _; simp [replaceValues_nil, newEntries]
  | cons q R ih =>
    intro L hag hL hR
    rw [List.map_cons, List.nodup_cons] at hR
    obtain ⟨hqR, hR⟩ := hR
    have hagq : KeysAgree (q.1 :: L.map Prod.fst) :=
      hag.mono (List.cons_subset.mpr
        ⟨List.mem_append_right _ (List.mem_map_of_mem List.mem_cons_self),
          List.subset_append_left _ _⟩)
    have hagR : KeysAgree (L.map Prod.fst ++ R.map Prod.fst) :=
      hag.mono fun x hx => by
        simp only [List.map_cons, List.mem_append, List.mem_cons] at hx ⊢
        tauto
    have hnone := find?_eq_none_of_not_mem hqR
    rw [List.foldl_cons]
    by_cases hin : keyId q.1 ∈ L.map (keyId ·.1)
    · -- the key is there: its value is replaced in place, and the keys stay
      have hw : putObtained L q =
          L.map fun p => if keyId p.1 == keyId q.1 then (p.1, .object q.2) else p := by
        rw [putObtained, writeEntry_eq hagq, if_pos (by simpa using hin)]
      have hfst : ∀ p : Scalar × Value,
          (if keyId p.1 == keyId q.1 then (p.1, Value.object q.2) else p).1 = p.1 := by
        intro p
        split <;> rfl
      have hkeys : (putObtained L q).map Prod.fst = L.map Prod.fst := by
        rw [hw, List.map_map]
        exact List.map_congr_left fun p _ => hfst p
      have hids : (putObtained L q).map (keyId ·.1) = L.map (keyId ·.1) := by
        rw [hw, List.map_map]
        exact List.map_congr_left fun p _ => by simp only [Function.comp_apply, hfst]
      rw [ih _ (by rw [hkeys]; exact hagR) (by rw [hids]; exact hL) hR]
      congr 1
      · rw [hw, replaceValues, replaceValues, List.map_map]
        refine List.map_congr_left fun p _ => ?_
        by_cases hpq : keyId p.1 = keyId q.1
        · have hfind : (q :: R).find? (keyId ·.1 == keyId q.1) = some q :=
            List.find?_cons_of_pos (by simp)
          simp [hpq, hnone, hfind]
        · have hqp : (keyId q.1 == keyId p.1) = false := by simpa using Ne.symm hpq
          simp [hpq, hqp]
      · rw [show newEntries (putObtained L q) R = newEntries L R from
          newEntries_congr fun r _ => by rw [hids]]
        simp [newEntries, hin]
    · -- a new key: its entry goes at the end
      have hw : putObtained L q = L ++ [(q.1, .object q.2)] := by
        rw [putObtained, writeEntry_eq hagq, if_neg (by simpa using hin)]
      have hagw : KeysAgree ((L ++ [(q.1, Value.object q.2)]).map Prod.fst ++ R.map Prod.fst) :=
        hag.mono fun x hx => by
          simp only [List.map_append, List.map_cons, List.map_nil, List.mem_append,
            List.mem_cons, List.not_mem_nil, or_false] at hx ⊢
          tauto
      have hnodupw : ((L ++ [(q.1, Value.object q.2)]).map (keyId ·.1)).Nodup := by
        rw [List.map_append, List.map_singleton, List.nodup_append_comm]
        exact List.nodup_cons.mpr ⟨hin, hL⟩
      rw [ih _ (by rw [hw]; exact hagw) (by rw [hw]; exact hnodupw) hR, hw]
      have hrv : replaceValues (L ++ [(q.1, Value.object q.2)]) R =
          replaceValues L (q :: R) ++ [(q.1, .object q.2)] := by
        rw [replaceValues_cons_of_not_mem hin]
        simp [replaceValues, hnone]
      have hne : newEntries (L ++ [(q.1, Value.object q.2)]) R = newEntries L R := by
        refine newEntries_congr fun r hr => ?_
        have hrq : keyId r.1 ≠ keyId q.1 := fun h => hqR (h ▸ List.mem_map_of_mem hr)
        simp [hrq]
      rw [hrv, hne]
      simp [newEntries, hin]

end Replace


/-- The entries without the first one whose key is equal. -/
def eraseKey (es : List (Scalar × Value)) (k : Scalar) : List (Scalar × Value) :=
  match es.findIdx? (·.1 == k) with
  | some i => es.eraseIdx i
  | none => es

/-- Removing a key whose entry follows entries of other keys takes out exactly that entry. -/
theorem eraseKey_middle {A rest : List (Scalar × Value)} {k : Scalar} {v : Value}
    (hA : ∀ p ∈ A, (p.1 == k) = false) (hk : (k == k) = true) :
    eraseKey (A ++ (k, v) :: rest) k = A ++ rest := by
  have hidx : (A ++ (k, v) :: rest).findIdx? (·.1 == k) = some A.length := by
    rw [List.findIdx?_append, List.findIdx?_eq_none_iff.mpr hA, List.findIdx?_cons]
    simp [hk]
  rw [eraseKey, hidx]
  dsimp only
  rw [List.eraseIdx_append_of_length_le le_rfl, Nat.sub_self, List.eraseIdx_zero, List.tail_cons]

/-- The contract of a keyed manager for one owner, over the map `live` reads: on a well-formed
store the map holds the entries `xs`, which the manager lists as they are and looks keys up in;
putting writes an entry as `writeEntry` does, in place or at the end, and removing a key takes
out its first entry; neither tells anyone anything or shrinks the store. -/
structure Manager.KeyedLaws (m : Manager) (owner : Value)
    (live : Store → Option (List (Scalar × Value))) : Prop where
  begin : ∀ c, Run.Keeps (m.begin c)
  finish : ∀ c, Run.Keeps (m.finish c)
  entries : ∀ {c s es s' xs}, live s.store = some xs → m.entries c owner s = .ok es s' →
    es = xs ∧ s' = s
  getKey : ∀ {c s k v s' xs}, live s.store = some xs → m.getKey c owner k s = .ok v s' →
    v = lookupKey xs k ∧ s' = s
  put : ∀ {c s k v s' xs}, live s.store = some xs → m.put c owner k v s = .ok () s' →
    live s'.store = some (writeEntry xs k v).1 ∧ s'.notices = s.notices ∧
      s.store.size ≤ s'.store.size
  removeKey : ∀ {c s k s' xs}, live s.store = some xs → m.removeKey c owner k s = .ok () s' →
    live s'.store = some (eraseKey xs k) ∧ s'.notices = s.notices ∧
      s.store.size ≤ s'.store.size
  newObject : ∀ {st xs} t, live st = some xs → live (st.newObject t).1 = some xs

/-- Whether a staged entry keeps its key: an unchanged entry or an entity. -/
def Staged.touchesKey : Staged → Bool
  | .unchanged | .entity .. => true
  | _ => false

-- ============================================================ keyed matching, in advance

/-- The keys of the entity entries, in order. -/
def entityKeys (E : List (Scalar × Staged)) : List Scalar :=
  E.filterMap fun p => p.2.entity?.map fun _ => p.1

/-- The identities of the keys that unchanged entries and entities keep. -/
def touchedIds (E : List (Scalar × Staged)) : List (Option ScalarKind × String) :=
  (E.filter (·.2.touchesKey)).map (Reconciler.keyId ·.1)

/-- The associates obtained for the entity entries, under their keys, in order. -/
def obtainedEntries (E : List (Scalar × Staged)) (outs : List Outcome) : List (Scalar × Handle) :=
  ((entityKeys E).zip outs).filterMap fun q => q.2.obtained?.map (q.1, ·)

/-- What an entity entry under `k` tells: nothing when its live associate is updated in place;
otherwise the displaced object, if the map held one, discarded, then the new associate
created. -/
def outcomeNotices (L : List (Scalar × Value)) (k : Scalar) : Outcome → List Notice
  | .matched _ => []
  | .obtained a => ((lookupKey L k).bind Value.object?).toList.map .discarded ++ [.created a]

/-- What the entity entries tell, in order, each after what injecting it told (`tells`). -/
def replaceNotices (L : List (Scalar × Value)) (E : List (Scalar × Staged)) (outs : List Outcome)
    (tells : List (List Notice)) : List Notice :=
  ((entityKeys E).zip (outs.zip tells)).flatMap fun q => q.2.2 ++ outcomeNotices L q.1 q.2.1

/-- Keyed matching, decided in advance: the object the live map `L` holds under an entity's key
stays its associate when `same n` accepts it; `none` marks an entity that gets a new one. -/
def keyedMatch (same : Nat → Handle → Entity → Bool) (L : List (Scalar × Value)) :
    List (Scalar × Staged) → List (Option Handle)
  | [] => []
  | (k, st) :: rest =>
    match st.entity? with
    | none => keyedMatch (fun n => same (n + 1)) L rest
    | some e =>
      ((lookupKey L k).bind Value.object?).filter (same 0 · e) ::
        keyedMatch (fun n => same (n + 1)) L rest

section Congr

variable {L L' : List (Scalar × Value)}

/-- The plan reads the live map only under the staged keys. -/
theorem keyedMatch_congr (E : List (Scalar × Staged)) :
    ∀ (same : Nat → Handle → Entity → Bool), (∀ p ∈ E, lookupKey L' p.1 = lookupKey L p.1) →
      keyedMatch same L' E = keyedMatch same L E := by
  induction E with
  | nil => intro same _; rfl
  | cons p E ih =>
    intro same h
    obtain ⟨k, st⟩ := p
    have hk := h (k, st) List.mem_cons_self
    have hrest := ih (fun n => same (n + 1)) fun q hq => h q (List.mem_cons_of_mem _ hq)
    simp only [keyedMatch, hk, hrest]

/-- The notices read the live map only under the entities' keys. -/
theorem replaceNotices_congr {E : List (Scalar × Staged)} {outs : List Outcome}
    {tells : List (List Notice)} (h : ∀ k ∈ entityKeys E, lookupKey L' k = lookupKey L k) :
    replaceNotices L' E outs tells = replaceNotices L E outs tells := by
  refine List.flatMap_congr fun q hq => ?_
  obtain ⟨k, o, told⟩ := q
  cases o with
  | matched _ => rfl
  | obtained a => simp [outcomeNotices, h k (List.of_mem_zip hq).1]

end Congr

section Touched

variable {E : List (Scalar × Staged)} {outs : List Outcome}

theorem entityKeys_sublist (E : List (Scalar × Staged)) :
    (entityKeys E).Sublist (E.map Prod.fst) := by
  induction E with
  | nil => exact List.Sublist.slnil
  | cons p E ih =>
    obtain ⟨k, st⟩ := p
    cases he : st.entity? with
    | none => simpa [entityKeys, he] using ih.cons k
    | some e => simpa [entityKeys, he] using ih.cons_cons k

/-- The obtained associates are under entities' keys, in order. -/
theorem obtainedEntries_keys_sublist (E : List (Scalar × Staged)) (outs : List Outcome) :
    ((obtainedEntries E outs).map Prod.fst).Sublist (entityKeys E) := by
  unfold obtainedEntries
  generalize entityKeys E = ks
  induction ks generalizing outs with
  | nil => simp
  | cons k ks ih =>
    cases outs with
    | nil => simp
    | cons o outs =>
      cases o with
      | matched h => simpa using (ih outs).cons k
      | obtained a => simpa using (ih outs).cons_cons k

theorem obtainedEntries_cons_of_entity {k : Scalar} {st : Staged} {e : Entity}
    (he : st.entity? = some e) (o : Outcome) (outs : List Outcome) :
    obtainedEntries ((k, st) :: E) (o :: outs) =
      (o.obtained?.map (k, ·)).toList ++ obtainedEntries E outs := by
  cases o <;> simp [obtainedEntries, entityKeys, he, Outcome.obtained?]

theorem mem_touchedIds_of_mem_entityKeys {k : Scalar} (hk : k ∈ entityKeys E) :
    keyId k ∈ touchedIds E := by
  obtain ⟨p, hp, hpk⟩ := List.mem_filterMap.mp hk
  obtain ⟨e, he, rfl⟩ := Option.map_eq_some_iff.mp hpk
  have htouch : p.2.touchesKey = true := by
    obtain ⟨k, st⟩ := p
    cases st <;> first | rfl | cases he
  exact List.mem_map.mpr ⟨p, List.mem_filter.mpr ⟨hp, htouch⟩, rfl⟩

theorem mem_touchedIds_of_mem_obtained {q : Scalar × Handle} (hq : q ∈ obtainedEntries E outs) :
    keyId q.1 ∈ touchedIds E :=
  mem_touchedIds_of_mem_entityKeys
    ((obtainedEntries_keys_sublist E outs).subset (List.mem_map_of_mem hq))

/-- The obtained associates are under staged keys, so no identity comes twice among them when
none does among the staged entries. -/
theorem obtainedEntries_keyIds_nodup (hEd : (E.map (keyId ·.1)).Nodup) :
    ((obtainedEntries E outs).map (keyId ·.1)).Nodup := by
  have hsub := (obtainedEntries_keys_sublist E outs).trans (entityKeys_sublist E)
  have h := (hsub.map keyId).nodup (by simpa [List.map_map, Function.comp_def] using hEd)
  simpa [List.map_map, Function.comp_def] using h

end Touched

/-- The map keyed reconciliation leaves: the live entries whose key an unchanged entry or an
entity keeps, in their order, each with its new associate where one was obtained, then the
associates obtained under keys the map did not hold, in order. -/
def keyedResult (L : List (Scalar × Value)) (E : List (Scalar × Staged)) (outs : List Outcome) :
    List (Scalar × Value) :=
  replaceValues (L.filter fun p => keyId p.1 ∈ touchedIds E) (obtainedEntries E outs) ++
    newEntries L (obtainedEntries E outs)

/-- What keyed reconciliation tells: what the entity entries tell, in order, each after what
injecting it told, then each object under a live key that no unchanged entry or entity keeps,
discarded, in the map's order. -/
def keyedNotices (L : List (Scalar × Value)) (E : List (Scalar × Staged)) (outs : List Outcome)
    (tells : List (List Notice)) : List Notice :=
  replaceNotices L E outs tells ++
    ((L.filter fun p => keyId p.1 ∉ touchedIds E).filterMap (·.2.object?)).map .discarded

section Filter

variable {L : List (Scalar × Value)} {R : List (Scalar × Handle)}
  {T : List (Option ScalarKind × String)}

/-- Keeping the entries of the touched keys keeps all the new ones and those of the live entries
whose key is touched. -/
theorem filter_touched (hR : ∀ q ∈ R, keyId q.1 ∈ T) :
    (replaceValues L R ++ newEntries L R).filter (fun p => keyId p.1 ∈ T) =
      replaceValues (L.filter fun p => keyId p.1 ∈ T) R ++ newEntries L R := by
  rw [List.filter_append]
  congr 1
  · simp only [replaceValues, List.filter_map]
    rfl
  · refine List.filter_eq_self.mpr fun x hx => ?_
    obtain ⟨q, hq, rfl⟩ := List.mem_map.mp hx
    simpa using hR q (List.mem_filter.mp hq).1

/-- The entries of untouched keys are live entries, with the values they had. -/
theorem filter_untouched (hR : ∀ q ∈ R, keyId q.1 ∈ T) :
    (replaceValues L R ++ newEntries L R).filter (fun p => keyId p.1 ∉ T) =
      L.filter fun p => keyId p.1 ∉ T := by
  rw [List.filter_append]
  have hnew : (newEntries L R).filter (fun p => keyId p.1 ∉ T) = [] := by
    refine List.filter_eq_nil_iff.mpr fun x hx => ?_
    obtain ⟨q, hq, rfl⟩ := List.mem_map.mp hx
    simpa using hR q (List.mem_filter.mp hq).1
  rw [hnew, List.append_nil, replaceValues, List.filter_map]
  -- an untouched key is not one that an associate was obtained under
  refine (List.map_congr_left fun p hp => ?_).trans (List.map_id _)
  have hout : keyId p.1 ∉ T := by simpa using (List.mem_filter.mp hp).2
  have hnone : R.find? (keyId ·.1 == keyId p.1) = none := by
    refine List.find?_eq_none.mpr fun q hq hqp => hout ?_
    rw [← (beq_iff_eq.mp hqp)]
    exact hR q hq
  simp [hnone]

end Filter

section Keys

variable {L : List (Scalar × Value)} {E : List (Scalar × Staged)} {outs : List Outcome}
  {R : List (Scalar × Handle)} {k : Scalar}

/-- A key whose identity the map does not hold looks up nothing. -/
theorem lookupKey_eq_none (hag : KeysAgree (k :: L.map Prod.fst))
    (hk : keyId k ∉ L.map (keyId ·.1)) : lookupKey L k = none := by
  refine Option.map_eq_none_iff.mpr (List.find?_eq_none.mpr fun p hp hpk => hk ?_)
  have hid : keyId p.1 = keyId k := by
    rw [hag p.1 (List.mem_cons_of_mem _ (List.mem_map_of_mem hp)) k List.mem_cons_self] at hpk
    simpa using hpk
  exact List.mem_map.mpr ⟨p, hp, hid⟩

theorem keyIds_replaceValues : (replaceValues L R).map (keyId ·.1) = L.map (keyId ·.1) := by
  simp [replaceValues, Function.comp_def]

theorem mem_keyIds_newEntries {x : Option ScalarKind × String} :
    x ∈ (newEntries L R).map (keyId ·.1) ↔ x ∈ R.map (keyId ·.1) ∧ x ∉ L.map (keyId ·.1) := by
  simp only [newEntries, List.map_map, List.mem_map, List.mem_filter, Function.comp_apply]
  constructor
  · rintro ⟨q, ⟨hq, hnot⟩, rfl⟩
    exact ⟨⟨q, hq, rfl⟩, by simpa using hnot⟩
  · rintro ⟨⟨q, hq, rfl⟩, hnot⟩
    exact ⟨q, ⟨hq, by simpa using hnot⟩, rfl⟩

/-- An entity whose key looks up nothing in the live map gets a new associate under it. -/
theorem exists_obtained_of_lookupKey_none (E : List (Scalar × Staged)) :
    ∀ (same : Nat → Handle → Entity → Bool) (outs : List Outcome),
      outs.map Outcome.matched? = keyedMatch same L E → ∀ k ∈ entityKeys E,
      lookupKey L k = none → ∃ a, (k, a) ∈ obtainedEntries E outs := by
  induction E with
  | nil =>
    intro _ _ _ k hk
    simp [entityKeys] at hk
  | cons p E ih =>
    intro same outs hplan k hk hnone
    obtain ⟨k', st⟩ := p
    cases he : st.entity? with
    | none =>
      simp only [keyedMatch, he] at hplan
      have hk' : k ∈ entityKeys E := by simpa [entityKeys, he] using hk
      obtain ⟨a, ha⟩ := ih _ outs hplan k hk' hnone
      exact ⟨a, by simpa [obtainedEntries, entityKeys, he] using ha⟩
    | some e =>
      simp only [keyedMatch, he] at hplan
      cases outs with
      | nil => cases hplan
      | cons o outs =>
        simp only [List.map_cons, List.cons.injEq] at hplan
        obtain ⟨ho, hrest⟩ := hplan
        have hk' : k = k' ∨ k ∈ entityKeys E := by simpa [entityKeys, he] using hk
        rcases hk' with rfl | hk'
        · -- nothing is under the key, so nothing is kept
          rw [hnone] at ho
          cases o with
          | matched h => cases ho
          | obtained a => exact ⟨a, by simp [obtainedEntries_cons_of_entity he, Outcome.obtained?]⟩
        · obtain ⟨a, ha⟩ := ih _ outs hrest k hk' hnone
          exact ⟨a, by rw [obtainedEntries_cons_of_entity he]; exact List.mem_append_right _ ha⟩

/-- The keys the map ends with, by identity: those of the entities, and those of the unchanged
entries that the live map holds. -/
theorem mem_keyIds_keyedResult {same : Nat → Handle → Entity → Bool}
    (hag : KeysAgree (L.map Prod.fst ++ E.map Prod.fst))
    (hplan : outs.map Outcome.matched? = keyedMatch same L E) (x : Option ScalarKind × String) :
    x ∈ (keyedResult L E outs).map (keyId ·.1) ↔
      x ∈ (entityKeys E).map keyId ∨ x ∈ touchedIds E ∧ x ∈ L.map (keyId ·.1) := by
  have hfilter : x ∈ (L.filter fun p => keyId p.1 ∈ touchedIds E).map (keyId ·.1) ↔
      x ∈ touchedIds E ∧ x ∈ L.map (keyId ·.1) := by
    simp only [List.mem_map, List.mem_filter]
    constructor
    · rintro ⟨p, ⟨hp, ht⟩, rfl⟩
      exact ⟨by simpa using ht, p, hp, rfl⟩
    · rintro ⟨ht, p, hp, rfl⟩
      exact ⟨p, ⟨hp, by simpa using ht⟩, rfl⟩
  have hR : ∀ y ∈ (obtainedEntries E outs).map (keyId ·.1), y ∈ (entityKeys E).map keyId := by
    intro y hy
    obtain ⟨q, hq, rfl⟩ := List.mem_map.mp hy
    exact List.mem_map_of_mem
      ((obtainedEntries_keys_sublist E outs).subset (List.mem_map_of_mem hq))
  rw [keyedResult, List.map_append, List.mem_append, keyIds_replaceValues, hfilter,
    mem_keyIds_newEntries]
  constructor
  · rintro (h | ⟨hx, -⟩)
    · exact .inr h
    · exact .inl (hR x hx)
  · rintro (hx | h)
    · obtain ⟨k, hk, rfl⟩ := List.mem_map.mp hx
      by_cases hl : keyId k ∈ L.map (keyId ·.1)
      · exact .inl ⟨mem_touchedIds_of_mem_entityKeys hk, hl⟩
      · -- an entity under a key the map does not hold gets a new associate, appended
        have hkE : k ∈ E.map Prod.fst := (entityKeys_sublist E).subset hk
        have hnone : lookupKey L k = none := lookupKey_eq_none (hag.mono fun y hy => by
          rcases List.mem_cons.mp hy with rfl | hy
          · exact List.mem_append_right _ hkE
          · exact List.mem_append_left _ hy) hl
        obtain ⟨a, ha⟩ := exists_obtained_of_lookupKey_none E same outs hplan k hk hnone
        exact .inr ⟨List.mem_map.mpr ⟨(k, a), ha, rfl⟩, hl⟩
    · exact .inl h

/-- An unchanged entry keeps the entry the live map holds under its key, value and place. -/
theorem mem_keyedResult_of_unchanged (hEd : (E.map (keyId ·.1)).Nodup) {p : Scalar × Value}
    (hp : p ∈ L) {k : Scalar} (hk : (k, Staged.unchanged) ∈ E) (hid : keyId k = keyId p.1) :
    p ∈ keyedResult L E outs := by
  have ht : keyId p.1 ∈ touchedIds E :=
    hid ▸ List.mem_map.mpr ⟨_, List.mem_filter.mpr ⟨hk, rfl⟩, rfl⟩
  -- no entity shares the key's identity, so no associate was obtained under it
  have hnot : keyId p.1 ∉ (obtainedEntries E outs).map (keyId ·.1) := by
    intro h
    obtain ⟨q, hq, hqid⟩ := List.mem_map.mp h
    obtain ⟨p', hp', hpk⟩ := List.mem_filterMap.mp
      ((obtainedEntries_keys_sublist E outs).subset (List.mem_map_of_mem hq))
    obtain ⟨e, he, hq₁⟩ := Option.map_eq_some_iff.mp hpk
    have hsame : p' = (k, .unchanged) :=
      List.inj_on_of_nodup_map hEd hp' hk (by simp only [hq₁, hqid, hid])
    rw [hsame] at he
    cases he
  refine List.mem_append_left _ (List.mem_map.mpr
    ⟨p, List.mem_filter.mpr ⟨hp, by simpa using ht⟩, ?_⟩)
  simp [find?_eq_none_of_not_mem hnot]

end Keys

namespace Reconciler

/-- The loop body of keyed reconciliation: one staged entry, with the identities of the keys
touched so far. -/
def keyedStep (r : Reconciler) (m : Manager) (ctx : Context) (owner : Value)
    (touched : List (Option ScalarKind × String)) (item : Scalar × Staged) :
    Run (List (Option ScalarKind × String)) := do
  let (key, staged) := item
  match staged with
  | .unchanged => return keyId key :: touched
  | .null => return touched
  | .entity t ps =>
    let e : Entity := ⟨t, ps⟩
    let cctx := ctx.push (Frame.keyed key (some e.type))
    let current := (← m.getKey cctx owner key).bind Value.object?
    match current with
    | some live =>
      if m.isSame (← Run.store) live e then r.inject cctx e live
      else keyed.replace r m owner cctx e key current
    | none => keyed.replace r m owner cctx e key none
    return keyId key :: touched
  | other => Run.fail ctx (.typeMismatch "object" other.shapeName)

/-- Removes the live entries whose key no staged entry touched, announcing each object among
their values discarded. -/
def discardUntouched (m : Manager) (ctx : Context) (owner : Value)
    (touched : List (Option ScalarKind × String)) (live : List (Scalar × Value)) : Run PUnit :=
  forIn live PUnit.unit fun (key, value) _ => do
    if touched.contains (keyId key) then pure (ForInStep.yield PUnit.unit)
    else
      m.removeKey ctx owner key
      match value with
      | .object h => do
        (ctx.push (Frame.keyed key)).entityDiscarded h
        pure (ForInStep.yield PUnit.unit)
      | _ => pure (ForInStep.yield PUnit.unit)

theorem keyed_eq (r : Reconciler) (m : Manager) (ctx : Context) (owner : Value)
    (es : List (Scalar × Staged)) :
    r.keyed m ctx owner es = (do
      m.begin ctx
      let touched ← es.foldlM (r.keyedStep m ctx owner) []
      let live ← m.entries ctx owner
      discardUntouched m ctx owner touched live
      m.finish ctx) := rfl

variable {m : Manager} {owner : Value} {live : Store → Option (List (Scalar × Value))}
  {ctx : Context} {r : Reconciler} {e : Entity} {s s' : RunState} {k : Scalar} {st : Staged}
  {touched touched' : List (Option ScalarKind × String)} {M : List (Scalar × Value)}

/-- Replacing an associate: a new or resolved one is injected and put under the key, then the
displaced object is announced discarded and the new one created. -/
theorem replace_ok (hm : m.KeyedLaws owner live) (hr : r.Framed live) (hs : live s.store = some M)
    {cctx : Context} {current : Option Handle} {u : Unit}
    (hrun : keyed.replace r m owner cctx e k current s = .ok u s') :
    ∃ a told, live s'.store = some (writeEntry M k (.object a)).1 ∧ r.Tells a told ∧
      s'.notices = s.notices ++ told ++ current.toList.map .discarded ++ [.created a] ∧
      s.store.size ≤ s'.store.size ∧ (r.reference = false → s.store.size ≤ a) := by
  obtain ⟨a, s₁, h₁, h₂⟩ := Run.bind_ok hrun
  have hl₁ := live_obtain hm.newObject hs h₁
  obtain ⟨hn₁, -⟩ := obtain_ok h₁
  have hz₁ := size_le_obtain h₁
  obtain ⟨u₁, s₂, h₃, h₄⟩ := Run.bind_ok h₂
  obtain ⟨told, ht, hl₂, hn₂, hz₂⟩ := hr.inject hl₁ h₃
  obtain ⟨u₂, s₃, h₅, h₆⟩ := Run.bind_ok h₄
  obtain ⟨hl₃, hn₃, hz₃⟩ := hm.put hl₂ h₅
  -- the displaced object, if any, is announced before the new one
  obtain ⟨s₄, h₈, hst₄, hn₄⟩ : ∃ s₄, cctx.entityCreated a s₄ = .ok u s' ∧ s₄.store = s₃.store ∧
      s₄.notices = s₃.notices ++ current.toList.map .discarded := by
    cases current with
    | none => exact ⟨s₃, h₆, rfl, by simp⟩
    | some old =>
      obtain ⟨u₃, s₄, h₇, h₈⟩ := Run.bind_ok h₆
      obtain ⟨hst, hn⟩ := Context.entityDiscarded_ok h₇
      exact ⟨s₄, h₈, hst, by simp [hn]⟩
  obtain ⟨hst₅, hn₅⟩ := Context.entityCreated_ok h₈
  refine ⟨a, told, by rw [hst₅, hst₄]; exact hl₃, ht, ?_, ?_,
    fun hown => (obtain_owned_fresh hown h₁).1⟩
  · rw [hn₅, hn₄, hn₃, hn₂, hn₁]
  · rw [hst₅, hst₄]
    omega

/-- An unchanged entry touches its key, a null one does not, and no other shape but an entity
passes. -/
theorem keyedStep_skip (he : st.entity? = none)
    (hrun : r.keyedStep m ctx owner touched (k, st) s = .ok touched' s') :
    touched' = (if st.touchesKey then keyId k :: touched else touched) ∧ s' = s := by
  cases st with
  | unchanged => cases hrun; exact ⟨rfl, rfl⟩
  | null => cases hrun; exact ⟨rfl, rfl⟩
  | entity t ps => cases he
  | _ => cases hrun

/-- An entity whose key holds an object the manager judges its associate updates it in place:
the map is not touched and only the injection tells anything. -/
theorem keyedStep_matched (hr : r.Framed live) (hm : m.KeyedLaws owner live)
    (hs : live s.store = some M) (he : st.entity? = some e) {h : Handle}
    (hlook : (lookupKey M k).bind Value.object? = some h) (hsame : m.isSame s.store h e = true)
    (hrun : r.keyedStep m ctx owner touched (k, st) s = .ok touched' s') :
    touched' = keyId k :: touched ∧ live s'.store = some M ∧
      (∃ told, r.Tells h told ∧ s'.notices = s.notices ++ told) ∧
      s.store.size ≤ s'.store.size := by
  cases st with
  | entity t ps =>
    cases he
    obtain ⟨v, s₁, h₁, h₂⟩ := Run.bind_ok hrun
    obtain ⟨rfl, hs₁⟩ := hm.getKey hs h₁
    rw [hs₁] at h₂
    simp only [hlook] at h₂
    obtain ⟨now, s₂, h₃, h₄⟩ := Run.bind_ok h₂
    cases h₃
    rw [if_pos hsame] at h₄
    obtain ⟨u, s₃, h₅, h₆⟩ := Run.bind_ok h₄
    obtain ⟨told, ht, hl, hn, hz⟩ := hr.inject hs h₅
    cases h₆
    exact ⟨rfl, hl, ⟨told, ht, hn⟩, hz⟩
  | _ => cases he

/-- An entity whose key holds no object the manager judges its associate gets a new or resolved
associate, injected and put under the key; the displaced object, if any, is announced
discarded, then the new one created. -/
theorem keyedStep_obtained (hr : r.Framed live) (hm : m.KeyedLaws owner live)
    (hs : live s.store = some M) (he : st.entity? = some e)
    (hf : ((lookupKey M k).bind Value.object?).filter (m.isSame s.store · e) = none)
    (hrun : r.keyedStep m ctx owner touched (k, st) s = .ok touched' s') :
    ∃ a, touched' = keyId k :: touched ∧ live s'.store = some (writeEntry M k (.object a)).1 ∧
      (∃ told, r.Tells a told ∧ s'.notices = s.notices ++ told ++
        ((lookupKey M k).bind Value.object?).toList.map .discarded ++ [.created a]) ∧
      s.store.size ≤ s'.store.size ∧ (r.reference = false → s.store.size ≤ a) := by
  cases st with
  | entity t ps =>
    cases he
    obtain ⟨v, s₁, h₁, h₂⟩ := Run.bind_ok hrun
    obtain ⟨rfl, hs₁⟩ := hm.getKey hs h₁
    rw [hs₁] at h₂
    cases hc : (lookupKey M k).bind Value.object? with
    | none =>
      simp only [hc] at h₂
      obtain ⟨u, s₂, h₃, h₄⟩ := Run.bind_ok h₂
      obtain ⟨a, told, hl, ht, hn, hz, hfresh⟩ := replace_ok hm hr hs h₃
      cases h₄
      exact ⟨a, rfl, hl, ⟨told, ht, by simpa using hn⟩, hz, hfresh⟩
    | some h =>
      -- the live object is not the entity's associate
      have hsame : m.isSame s.store h ⟨t, ps⟩ = false := by
        rw [hc] at hf
        simpa [Option.filter] using hf
      simp only [hc] at h₂
      obtain ⟨now, s₂, h₃, h₄⟩ := Run.bind_ok h₂
      cases h₃
      rw [if_neg (by simp [hsame])] at h₄
      obtain ⟨u, s₃, h₅, h₆⟩ := Run.bind_ok h₄
      obtain ⟨a, told, hl, ht, hn, hz, hfresh⟩ := replace_ok hm hr hs h₅
      cases h₆
      exact ⟨a, rfl, hl, ⟨told, ht, hn⟩, hz, hfresh⟩
  | _ => cases he

/-- The trailing pass, over entries that follow entries of touched keys, keeps the touched ones
and removes the others in order, announcing each object among their values discarded. -/
theorem discardUntouched_ok (hm : m.KeyedLaws owner live)
    (touched : List (Option ScalarKind × String)) (rest : List (Scalar × Value)) :
    ∀ {A : List (Scalar × Value)} {s s' : RunState} {u : PUnit}, live s.store = some (A ++ rest) →
      (∀ p ∈ A, touched.contains (keyId p.1) = true) → KeysAgree ((A ++ rest).map Prod.fst) →
      discardUntouched m ctx owner touched rest s = .ok u s' →
      live s'.store = some (A ++ rest.filter fun p => touched.contains (keyId p.1)) ∧
        s'.notices = s.notices ++ ((rest.filter fun p => !touched.contains (keyId p.1)).filterMap
          (·.2.object?)).map Notice.discarded ∧
        s.store.size ≤ s'.store.size := by
  induction rest with
  | nil =>
    intro A s s' u hs _ _ hrun
    cases hrun
    exact ⟨by simpa using hs, by simp, le_rfl⟩
  | cons p rest ih =>
    intro A s s' u hs hA hag hrun
    obtain ⟨k, v⟩ := p
    simp only [discardUntouched, List.forIn_cons] at hrun
    obtain ⟨step, s₁, h₁, h₂⟩ := Run.bind_ok hrun
    by_cases ht : keyId k ∈ touched
    · -- a touched key stays
      have hc : touched.contains (keyId k) = true := by simpa using ht
      simp only [hc, if_true] at h₁
      cases h₁
      have hA' : ∀ p ∈ A ++ [(k, v)], touched.contains (keyId p.1) = true := by
        intro p hp
        rcases List.mem_append.mp hp with hp | hp
        · exact hA p hp
        · rw [List.mem_singleton.mp hp]
          exact hc
      obtain ⟨hl, hn, hz⟩ := ih (A := A ++ [(k, v)]) (by simpa using hs) hA' (by simpa using hag) h₂
      exact ⟨by simpa [List.filter_cons, ht] using hl, by simpa [List.filter_cons, ht] using hn, hz⟩
    · -- an untouched key is removed, and an object under it announced discarded
      have hc : touched.contains (keyId k) = false := by simpa using ht
      simp only [hc, Bool.false_eq_true, if_false] at h₁
      obtain ⟨u₁, s₂, h₃, h₄⟩ := Run.bind_ok h₁
      have hk : (k == k) = true := by
        rw [hag k (by simp) k (by simp)]
        exact beq_self_eq_true _
      have hA' : ∀ p ∈ A, (p.1 == k) = false := by
        intro p hp
        rw [hag p.1 (by simp [List.mem_map_of_mem hp]) k (by simp)]
        simp only [beq_eq_false_iff_ne, ne_eq]
        intro hpk
        exact ht (by simpa [hpk] using hA p hp)
      obtain ⟨hl₂, hn₂, hz₂⟩ := hm.removeKey hs h₃
      rw [eraseKey_middle hA' hk] at hl₂
      have hag' : KeysAgree ((A ++ rest).map Prod.fst) :=
        hag.mono fun x hx => by simp at hx ⊢; tauto
      cases v with
      | object h =>
        obtain ⟨u₂, s₃, h₅, h₆⟩ := Run.bind_ok h₄
        obtain ⟨hst₃, hn₃⟩ := Context.entityDiscarded_ok h₅
        cases h₆
        obtain ⟨hl, hn, hz⟩ := ih (hst₃ ▸ hl₂) hA hag' h₂
        refine ⟨by simpa [List.filter_cons, ht] using hl,
          by simp [hn, hn₃, hn₂, ht, Value.object?], ?_⟩
        rw [hst₃] at hz
        exact hz₂.trans hz
      | _ =>
        cases h₄
        obtain ⟨hl, hn, hz⟩ := ih hl₂ hA hag' h₂
        exact ⟨by simpa [List.filter_cons, ht] using hl,
          by simp [hn, hn₂, ht, Value.object?], hz₂.trans hz⟩

/-- The verdicts of a run of the keyed loop over `items` from `touched` and state `s`: the
`n`-th entry is judged in the state the loop reached after the entries before it. -/
def keyedStepVerdict (r : Reconciler) (m : Manager) (ctx : Context) (owner : Value)
    (items : List (Scalar × Staged)) (touched : List (Option ScalarKind × String))
    (s : RunState) (n : Nat) : Handle → Entity → Bool :=
  m.isSame (Run.after ((items.take n).foldlM (r.keyedStep m ctx owner) touched) s).store

theorem keyedStepVerdict_zero (items : List (Scalar × Staged))
    (touched : List (Option ScalarKind × String)) (s : RunState) :
    r.keyedStepVerdict m ctx owner items touched s 0 = m.isSame s.store := rfl

theorem keyedStepVerdict_succ {item : Scalar × Staged} {items : List (Scalar × Staged)}
    {touched₁ : List (Option ScalarKind × String)} {s₁ : RunState}
    (h : r.keyedStep m ctx owner touched item s = .ok touched₁ s₁) (n : Nat) :
    r.keyedStepVerdict m ctx owner (item :: items) touched s (n + 1) =
      r.keyedStepVerdict m ctx owner items touched₁ s₁ n := by
  simp only [keyedStepVerdict, List.take_succ_cons, List.foldlM_cons, Run.after, bind,
    EStateM.bind, h]

/-- The keyed loop, where Scalar equality and key identity agree on the keys and no staged key
comes twice, keeps the associates `keyedMatch` decides on with the verdicts of the run, puts the
others' new associates under their keys, and tells what `replaceNotices` says; it touches the
keys of the unchanged entries and the entities. -/
theorem foldlM_keyedStep (hm : m.KeyedLaws owner live) (hr : r.Framed live)
    (E : List (Scalar × Staged)) :
    ∀ {M : List (Scalar × Value)} {touched touched' : List (Option ScalarKind × String)}
      {s s' : RunState}, live s.store = some M → KeysAgree (M.map Prod.fst ++ E.map Prod.fst) →
      (E.map (keyId ·.1)).Nodup → E.foldlM (r.keyedStep m ctx owner) touched s = .ok touched' s' →
      ∃ (outs : List Outcome) (tells : List (List Notice)),
        outs.map Outcome.matched? = keyedMatch (r.keyedStepVerdict m ctx owner E touched s) M E ∧
        touched' = (touchedIds E).reverse ++ touched ∧
        live s'.store = some ((obtainedEntries E outs).foldl putObtained M) ∧
        List.Forall₂ (r.Tells ·.handle ·) outs tells ∧
        s'.notices = s.notices ++ replaceNotices M E outs tells ∧
        s.store.size ≤ s'.store.size ∧
        (r.reference = false → ∀ a ∈ outs.filterMap Outcome.obtained?, s.store.size ≤ a) := by
  induction E with
  | nil =>
    intro M touched touched' s s' hs _ _ hrun
    cases hrun
    exact ⟨[], [], rfl, by simp [touchedIds], by simpa [obtainedEntries] using hs, .nil,
      by simp [replaceNotices], le_rfl, by simp⟩
  | cons item E ih =>
    intro M touched touched' s s' hs hag hnodup hrun
    obtain ⟨k, st⟩ := item
    rw [List.map_cons, List.nodup_cons] at hnodup
    obtain ⟨hkE, hnodup⟩ := hnodup
    have hagE : KeysAgree (M.map Prod.fst ++ E.map Prod.fst) :=
      hag.mono fun x hx => by
        simp only [List.map_cons, List.mem_append, List.mem_cons] at hx ⊢
        tauto
    rw [List.foldlM_cons] at hrun
    obtain ⟨touched₁, s₁, h₁, h₂⟩ := Run.bind_ok hrun
    simp only [keyedMatch, keyedStepVerdict_succ h₁, keyedStepVerdict_zero]
    cases he : st.entity? with
    | none =>
      obtain ⟨rfl, rfl⟩ := keyedStep_skip he h₁
      obtain ⟨outs, tells, hmatch, htouched, hl, htells, hn, hz, hfresh⟩ := ih hs hagE hnodup h₂
      refine ⟨outs, tells, hmatch, ?_, by simpa [obtainedEntries, entityKeys, he] using hl, htells,
        by simpa [replaceNotices, entityKeys, he] using hn, hz, hfresh⟩
      rw [htouched]
      cases st <;> simp_all [touchedIds, Staged.touchesKey]
    | some e =>
      have htouches : st.touchesKey = true := by cases st <;> first | rfl | cases he
      cases hf : ((lookupKey M k).bind Value.object?).filter (m.isSame s.store · e) with
      | some h =>
        -- the live object under the key stays, updated in place
        obtain ⟨hlook, hsame⟩ := Option.filter_eq_some_iff.mp hf
        obtain ⟨rfl, hl₁, ⟨told, ht, hn₁⟩, hz₁⟩ := keyedStep_matched hr hm hs he hlook hsame h₁
        obtain ⟨outs, tells, hmatch, htouched, hl, htells, hn, hz, hfresh⟩ :=
          ih hl₁ hagE hnodup h₂
        refine ⟨.matched h :: outs, told :: tells, by simp [hmatch, hf], ?_, ?_, .cons ht htells,
          ?_, hz₁.trans hz, ?_⟩
        · simp [htouched, touchedIds, htouches]
        · simpa [obtainedEntries, entityKeys, he] using hl
        · simp [hn, hn₁, replaceNotices, entityKeys, he, outcomeNotices]
        · intro hown a ha
          simp only [List.filterMap_cons, Outcome.obtained?] at ha
          exact hz₁.trans (hfresh hown a ha)
      | none =>
        -- a new associate is put under the key
        obtain ⟨a, rfl, hl₁, ⟨told, ht, hn₁⟩, hz₁, hfresh₁⟩ := keyedStep_obtained hr hm hs he hf h₁
        -- the map's other keys look up what they did before
        have hsame : ∀ p ∈ E, lookupKey (writeEntry M k (.object a)).1 p.1 = lookupKey M p.1 :=
          fun p hp => lookupKey_writeEntry_of_not_mem hag
            (by simpa [List.map_map, Function.comp_def] using hkE) p.1 (List.mem_map_of_mem hp)
        obtain ⟨outs, tells, hmatch, htouched, hl, htells, hn, hz, hfresh⟩ :=
          ih hl₁ hag.writeEntry hnodup h₂
        rw [keyedMatch_congr E _ hsame] at hmatch
        rw [replaceNotices_congr (L := M) fun k' hk' => ?_] at hn
        · refine ⟨.obtained a :: outs, told :: tells, by simp [hmatch, hf], ?_, ?_,
            .cons ht htells, ?_, hz₁.trans hz, ?_⟩
          · simp [htouched, touchedIds, htouches]
          · simpa [obtainedEntries, entityKeys, he, putObtained] using hl
          · simp [hn, hn₁, replaceNotices, entityKeys, he, outcomeNotices]
          · intro hown b hb
            simp only [List.filterMap_cons, Outcome.obtained?, List.mem_cons] at hb
            rcases hb with rfl | hb
            · exact hfresh₁ hown
            · exact hz₁.trans (hfresh hown b hb)
        · obtain ⟨p, hp, hpk⟩ := List.mem_filterMap.mp hk'
          obtain ⟨_, -, rfl⟩ := Option.map_eq_some_iff.mp hpk
          exact hsame p hp

-- ============================================================ the whole reconciliation

/-- The verdicts of keyed reconciliation: the `n`-th staged entry is judged in the state reached
once the bracket is open and the entries before it are reconciled. -/
def keyedVerdict (r : Reconciler) (m : Manager) (ctx : Context) (owner : Value)
    (E : List (Scalar × Staged)) (s : RunState) (n : Nat) : Handle → Entity → Bool :=
  m.isSame (Run.after (m.begin ctx >>= fun _ =>
    (E.take n).foldlM (r.keyedStep m ctx owner) []) s).store

/-- What keyed reconciliation decides for the live map `L`, with the verdicts of its run: the
live objects that stay the entities' associates. -/
def keyedPlan (r : Reconciler) (m : Manager) (ctx : Context) (owner : Value)
    (E : List (Scalar × Staged)) (s : RunState) (L : List (Scalar × Value)) :
    List (Option Handle) :=
  keyedMatch (r.keyedVerdict m ctx owner E s) L E

/-- A successful keyed reconciliation of the live map `L`, where Scalar equality and key identity
agree on the keys and neither the map nor the staged entries hold a key twice: the live
associates the plan keeps stay in place, the other entities get new associates, and the map and
the notices are as `keyedResult` and `keyedNotices` say. -/
theorem keyed_run (hm : m.KeyedLaws owner live) (hr : r.Framed live)
    {E : List (Scalar × Staged)} {L : List (Scalar × Value)} (hL : live s.store = some L)
    (hag : KeysAgree (L.map Prod.fst ++ E.map Prod.fst)) (hLd : (L.map (keyId ·.1)).Nodup)
    (hEd : (E.map (keyId ·.1)).Nodup) (hrun : r.keyed m ctx owner E s = .ok () s') :
    ∃ (outs : List Outcome) (tells : List (List Notice)),
      outs.map Outcome.matched? = r.keyedPlan m ctx owner E s L ∧
      live s'.store = some (keyedResult L E outs) ∧
      List.Forall₂ (r.Tells ·.handle ·) outs tells ∧
      s'.notices = s.notices ++ keyedNotices L E outs tells ∧
      (r.reference = false → ∀ a ∈ outs.filterMap Outcome.obtained?, s.store.size ≤ a) := by
  rw [keyed_eq] at hrun
  obtain ⟨u, s₁, h₁, h₂⟩ := Run.bind_ok hrun
  obtain ⟨hst₁, hn₁⟩ := hm.begin ctx s u s₁ h₁
  -- once the bracket is open, the verdicts are those of the loop
  have hverdicts : r.keyedVerdict m ctx owner E s = r.keyedStepVerdict m ctx owner E [] s₁ := by
    funext n
    simp only [keyedVerdict, keyedStepVerdict, Run.after_bind_ok h₁]
  rw [keyedPlan, hverdicts]
  obtain ⟨touched, s₂, h₃, h₄⟩ := Run.bind_ok h₂
  obtain ⟨outs, tells, hmatch, rfl, hl₂, htells, hn₂, hz₂, hfresh⟩ :=
    foldlM_keyedStep hm hr E (hst₁ ▸ hL) hag hEd h₃
  -- the loop put the obtained associates in place or at the end
  have hR : ∀ q ∈ obtainedEntries E outs, keyId q.1 ∈ touchedIds E :=
    fun q hq => mem_touchedIds_of_mem_obtained hq
  have hRkeys := (obtainedEntries_keys_sublist E outs).trans (entityKeys_sublist E)
  have hagR : KeysAgree (L.map Prod.fst ++ (obtainedEntries E outs).map Prod.fst) :=
    hag.mono fun x hx => by
      rcases List.mem_append.mp hx with hx | hx
      · exact List.mem_append_left _ hx
      · exact List.mem_append_right _ (hRkeys.subset hx)
  rw [foldl_putObtained _ L hagR hLd (obtainedEntries_keyIds_nodup hEd)] at hl₂
  obtain ⟨es, s₃, h₅, h₆⟩ := Run.bind_ok h₄
  obtain ⟨rfl, rfl⟩ := hm.entries hl₂ h₅
  obtain ⟨u', s₄, h₇, h₈⟩ := Run.bind_ok h₆
  -- the map's keys are the live ones and the new ones
  have hagM : KeysAgree ((([] : List (Scalar × Value)) ++
      (replaceValues L (obtainedEntries E outs) ++ newEntries L (obtainedEntries E outs))).map
        Prod.fst) :=
    hagR.mono (by simpa using keys_replaceValues_append_newEntries)
  obtain ⟨hl₄, hn₄, hz₄⟩ := discardUntouched_ok hm _ _ (A := []) (by simpa using hl₂)
    (by simp) hagM h₇
  obtain ⟨hst₅, hn₅⟩ := hm.finish ctx s₄ () s' h₈
  have htouched : ∀ x, ((touchedIds E).reverse ++ []).contains x = decide (x ∈ touchedIds E) := by
    intro x
    simp
  refine ⟨outs, tells, hmatch, ?_, htells, ?_, fun hown a ha => hst₁ ▸ hfresh hown a ha⟩
  · rw [hst₅, keyedResult, ← filter_touched hR]
    simpa [htouched] using hl₄
  · rw [hn₅, hn₄, hn₂, hn₁, keyedNotices, ← filter_untouched hR (L := L)]
    simp

end Reconciler

-- ============================================================ the manager of a map field

/-- The entries of the map an object's field holds: none unless the owner is an object and the
field names a map cell, or is null, which reads as the empty map. -/
def fieldMap (n : String) (owner : Value) (st : Store) : Option (List (Scalar × Value)) :=
  match owner with
  | .object o =>
    (st.instance? o).bind fun _ =>
      match st.field o n with
      | .map h =>
        match st.cell? h with
        | some (.map es) => some es
        | _ => none
      | .scalar .null => some []
      | _ => none
  | _ => none

section FieldMap

variable {n : String} {owner : Value} {o h : Handle} {st : Store} {inst : Instance}
  {es : List (Scalar × Value)}

theorem fieldMap_cases (hl : fieldMap n owner st = some es) :
    ∃ o inst, owner = .object o ∧ st.instance? o = some inst ∧
      ((∃ h, st.field o n = .map h ∧ st.cell? h = some (.map es)) ∨
        (st.field o n = .null ∧ es = [])) := by
  cases owner with
  | object o =>
    simp only [fieldMap] at hl
    cases hi : st.instance? o with
    | none => simp [hi] at hl
    | some inst =>
      simp only [hi, Option.bind_some] at hl
      refine ⟨o, inst, rfl, hi, ?_⟩
      split at hl
      · rename_i h hf
        split at hl
        · cases hl
          exact .inl ⟨h, hf, by assumption⟩
        · cases hl
      · cases hl
        exact .inr ⟨by assumption, rfl⟩
      · cases hl
  | _ => cases hl

theorem fieldMap_of_map (hi : st.instance? o = some inst) (hf : st.field o n = .map h)
    (hc : st.cell? h = some (.map es)) : fieldMap n (.object o) st = some es := by
  simp [fieldMap, hi, hf, hc]

theorem fieldMap_of_null (hi : st.instance? o = some inst) (hf : st.field o n = .null) :
    fieldMap n (.object o) st = some [] := by
  simp [fieldMap, hi, hf, Value.null]


end FieldMap

namespace Store

variable {s : Store} {h : Handle} {es : List (Scalar × Value)} {k : Scalar}

theorem mapPut_of_map (hc : s.cell? h = some (.map es)) (v : Value) :
    (s.mapPut h k v).1 = s.put h (.map (writeEntry es k v).1) := by
  simp [mapPut, entries, setEntries, hc]

theorem mapRemove_of_some {i : Nat} (hc : s.cell? h = some (.map es))
    (hi : es.findIdx? (·.1 == k) = some i) :
    (s.mapRemove h k).1 = s.put h (.map (eraseKey es k)) := by
  simp [mapRemove, entries, setEntries, hc, hi, eraseKey]

theorem mapRemove_of_none (hc : s.cell? h = some (.map es))
    (hi : es.findIdx? (·.1 == k) = none) :
    (s.mapRemove h k).1 = s ∧ eraseKey es k = es := by
  simp [mapRemove, entries, hc, hi, eraseKey]

end Store

namespace Multi

variable {n : String} {dt : DataType} {modes : AccessModes} {o h : Handle} {st : Store}
  {es : List (Scalar × Value)} {k : Scalar}

theorem readCell_of_map (hr : modes.read = true) (hf : st.field o n = .map h) :
    readCell (.field n dt modes) "map" (.object o) st = .ok (some h) st := by
  simp [readCell, get_field hr, hf, bind, EStateM.bind, pure, EStateM.pure]

theorem entries_of_map (hr : modes.read = true) (hf : st.field o n = .map h)
    (hc : st.cell? h = some (.map es)) :
    (map (.field n dt modes)).entries (.object o) st = .ok es st := by
  simp [entries, readCell_of_map hr hf, Store.entries, hc, bind, EStateM.bind, getThe,
    MonadStateOf.get, EStateM.get, pure, EStateM.pure]

theorem entries_of_null (hr : modes.read = true) (hf : st.field o n = .null) :
    (map (.field n dt modes)).entries (.object o) st = .ok [] st := by
  simp [entries, readCell_of_null hr hf, bind, EStateM.bind, pure, EStateM.pure]

theorem getKey_of_map (hr : modes.read = true) (hf : st.field o n = .map h)
    (hc : st.cell? h = some (.map es)) :
    (map (.field n dt modes)).getKey (.object o) k st = .ok (lookupKey es k) st := by
  simp [getKey, readCell_of_map hr hf, Store.mapGet?, Store.entries, hc, lookupKey, bind,
    EStateM.bind, getThe, MonadStateOf.get, EStateM.get, pure, EStateM.pure]

theorem getKey_of_null (hr : modes.read = true) (hf : st.field o n = .null) :
    (map (.field n dt modes)).getKey (.object o) k st = .ok none st := by
  simp [getKey, readCell_of_null hr hf, bind, EStateM.bind, pure, EStateM.pure]

theorem put_of_map (hr : modes.read = true) (hf : st.field o n = .map h) (v : Value) :
    (map (.field n dt modes)).put (.object o) k v st =
      .ok (st.mapPut h k v).2 (st.mapPut h k v).1 := by
  simp [put, writeCell, readCell_of_map hr hf, Access.step, bind, EStateM.bind, pure,
    EStateM.pure, modifyGetThe, MonadStateOf.modifyGet, EStateM.modifyGet]

theorem removeKey_of_map (hr : modes.read = true) (hf : st.field o n = .map h) :
    (map (.field n dt modes)).removeKey (.object o) k st =
      .ok (st.mapRemove h k).2 (st.mapRemove h k).1 := by
  simp [removeKey, readCell_of_map hr hf, Access.step, bind, EStateM.bind, modifyGetThe,
    MonadStateOf.modifyGet, EStateM.modifyGet]

theorem removeKey_of_null (hr : modes.read = true) (hf : st.field o n = .null) :
    (map (.field n dt modes)).removeKey (.object o) k st = .ok none st := by
  simp [removeKey, readCell_of_null hr hf, bind, EStateM.bind, pure, EStateM.pure]

theorem put_of_null (hr : modes.read = true) (hf : st.field o n = .null) (ho : o < st.size)
    (v : Value) {old : Option Value} {st' : Store}
    (hrun : (map (.field n dt modes)).put (.object o) k v st = .ok old st') :
    st' = ((st.alloc (.map [])).1.setField o n (.map st.size)).put st.size (.map [(k, v)]) := by
  cases hw : modes.write with
  | false =>
    simp [put, writeCell, readCell_of_null hr hf, Accessor.set, hw, Access.step, bind,
      EStateM.bind, throw, throwThe, MonadExceptOf.throw, EStateM.throw, modifyGetThe,
      MonadStateOf.modifyGet, EStateM.modifyGet] at hrun
  | true =>
    simp [put, writeCell, readCell_of_null hr hf, Accessor.set, hw, Access.step,
      Access.expectObject, Store.mapPut, Store.entries, Store.setEntries, Store.handle_alloc,
      Store.cell?_alloc_setField ho, writeEntry, bind, EStateM.bind, pure, EStateM.pure, modify,
      modifyGet, MonadStateOf.modifyGet, EStateM.modifyGet, modifyGetThe] at hrun
    exact hrun.2.symm

end Multi

/-- The engine's manager of a keyed association held in a readable map field keeps the keyed
contract, over the map the field holds. -/
theorem keyedLaws_fieldMap {n : String} {dt : DataType} {modes : AccessModes}
    (hr : modes.read = true) (c : ManagerCapability) (ids : List IdentityKey) (owner : Value) :
    (Manager.collection c (.map (.field n dt modes)) ids).KeyedLaws owner (fieldMap n owner) where
  begin _ := Run.Keeps.pure ()
  finish _ := Run.Keeps.pure ()
  entries := by
    intro ctx s es s' xs hl hrun
    obtain ⟨st, hx, rfl⟩ := Run.access_ok hrun
    obtain ⟨o, inst, rfl, hi, ⟨h, hf, hc⟩ | ⟨hf, rfl⟩⟩ := fieldMap_cases hl
    · rw [Multi.entries_of_map hr hf hc] at hx
      cases hx
      exact ⟨rfl, rfl⟩
    · rw [Multi.entries_of_null hr hf] at hx
      cases hx
      exact ⟨rfl, rfl⟩
  getKey := by
    intro ctx s k v s' xs hl hrun
    obtain ⟨st, hx, rfl⟩ := Run.access_ok hrun
    obtain ⟨o, inst, rfl, hi, ⟨h, hf, hc⟩ | ⟨hf, rfl⟩⟩ := fieldMap_cases hl
    · rw [Multi.getKey_of_map hr hf hc] at hx
      cases hx
      exact ⟨rfl, rfl⟩
    · rw [Multi.getKey_of_null hr hf] at hx
      cases hx
      exact ⟨rfl, rfl⟩
  put := by
    intro ctx s k v s' xs hl hrun
    obtain ⟨old, s₁, h₁, h₂⟩ := Run.bind_ok hrun
    cases h₂
    obtain ⟨st, hx, rfl⟩ := Run.access_ok h₁
    obtain ⟨o, inst, rfl, hi, ⟨h, hf, hc⟩ | ⟨hf, rfl⟩⟩ := fieldMap_cases hl
    · rw [Multi.put_of_map hr hf] at hx
      cases hx
      rw [Store.mapPut_of_map hc]
      obtain ⟨hi', hf', hc'⟩ :=
        Store.put_container hi hc (fun _ => nofun) (.map (writeEntry xs k v).1)
      exact ⟨fieldMap_of_map hi' (by rw [hf', hf]) hc', rfl, by rw [Store.size_put]⟩
    · obtain rfl := Multi.put_of_null hr hf (Store.lt_size_of_instance? hi) v hx
      obtain ⟨⟨inst', hi'⟩, hf', hc', hsize⟩ :=
        Store.put_alloc_setField hi n (.map []) (.map [(k, v)]) (.map s.store.size)
      refine ⟨fieldMap_of_map hi' hf' hc', rfl, ?_⟩
      rw [hsize]
      exact Nat.le_succ _
  removeKey := by
    intro ctx s k s' xs hl hrun
    obtain ⟨old, s₁, h₁, h₂⟩ := Run.bind_ok hrun
    cases h₂
    obtain ⟨st, hx, rfl⟩ := Run.access_ok h₁
    obtain ⟨o, inst, rfl, hi, ⟨h, hf, hc⟩ | ⟨hf, rfl⟩⟩ := fieldMap_cases hl
    · rw [Multi.removeKey_of_map hr hf] at hx
      cases hx
      cases hidx : xs.findIdx? (·.1 == k) with
      | none =>
        -- no entry has the key: nothing changes
        obtain ⟨hst, hxs⟩ := Store.mapRemove_of_none hc hidx
        rw [hst, hxs]
        exact ⟨hl, rfl, le_rfl⟩
      | some i =>
        rw [Store.mapRemove_of_some hc hidx]
        obtain ⟨hi', hf', hc'⟩ :=
          Store.put_container hi hc (fun _ => nofun) (.map (eraseKey xs k))
        exact ⟨fieldMap_of_map hi' (by rw [hf', hf]) hc', rfl, by rw [Store.size_put]⟩
    · rw [Multi.removeKey_of_null hr hf] at hx
      cases hx
      exact ⟨hl, rfl, le_rfl⟩
  newObject := by
    intro st xs t hl
    obtain ⟨o, inst, rfl, hi, ⟨h, hf, hc⟩ | ⟨hf, rfl⟩⟩ := fieldMap_cases hl
    · have hco := Store.newObject_cell?_of_lt (t := t) (Store.lt_size_of_instance? hi)
      exact fieldMap_of_map (by rw [Store.instance?_congr hco, hi])
        (by rw [Store.field_congr hco, hf])
        (by rw [Store.newObject_cell?_of_lt (Store.lt_size_of_cell? hc), hc])
    · have hco := Store.newObject_cell?_of_lt (t := t) (Store.lt_size_of_instance? hi)
      exact fieldMap_of_null (by rw [Store.instance?_congr hco, hi])
        (by rw [Store.field_congr hco, hf])

-- ============================================================ a catalog of items

namespace Sample

/-- Items with a stock-keeping code. -/
def skuItemType : ModelType := { name := "Item", props := [.field "sku" (.scalar .string)] }

/-- Catalogs of items by text key. -/
def catalogType : ModelType := { name := "Catalog", props := [.field "items" (.map .string)] }

/-- A catalog whose map holds item A under the key `a`: the map is cell 0, the catalog cell 1
and the item cell 2. -/
def catalogStore : Store :=
  let (st, c) := ({} : Store).newObject catalogType
  let (st, a) := st.newObject skuItemType
  let st := st.setField a "sku" (.scalar (.string "A"))
  (st.mapPut (match st.field c "items" with | .map h => h | _ => 0) (.string "a") (.object a)).1

/-- NaN as a key: the double that is not equal to itself. -/
def nanKey : Scalar := .float (Float.ofBits 0x7FF8000000000000)

/-- The same catalog with its item under the key NaN. -/
def nanCatalogStore : Store :=
  let (st, c) := ({} : Store).newObject catalogType
  let (st, a) := st.newObject skuItemType
  let st := st.setField a "sku" (.scalar (.string "A"))
  st.setEntries (match st.field c "items" with | .map h => h | _ => 0) [(nanKey, .object a)]

/-- The engine's manager of a catalog's items. -/
def itemsManager : Manager :=
  .collection .keyed (.map (.field "items" (.map .string) .readWrite)) []

/-- The items of catalog 1. -/
def items : Store → Option (List (Scalar × Value)) := fieldMap "items" (.object 1)

def itemA : Staged := .entity skuItemType [("sku", .value (.string "A"))]

def itemB : Staged := .entity skuItemType [("sku", .value (.string "B"))]

/-- Item A under `a` and item B under `b`. -/
def restock : List (Scalar × Staged) := [(.string "a", itemA), (.string "b", itemB)]

def catalogStart : RunState := { store := catalogStore }

/-- The state after the restock is reconciled with the catalog's items. -/
def restocked : RunState := (owned.keyed itemsManager {} (.object 1) restock).after catalogStart

end Sample

namespace Reconciler

end Reconciler

end GraphViews

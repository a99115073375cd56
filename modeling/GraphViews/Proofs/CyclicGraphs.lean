import Mathlib
import GraphViews.Proofs.Bisimilarity
import GraphViews.Proofs.Effects
/-!
Comparing and printing cyclic object graphs: the fuel is enough.

`Store.equal` and `Store.debugText` recurse with fuel `Store.equalBound`. On a well-formed store
(`Store.WellFormed`: distinct slot names, containers ranked) that fuel never runs out, so the
comparison answers exactly bisimilarity and the debug text is the one any larger fuel gives.

# Main statements

* `equal_iff_lift`: two values compare equal exactly when they are related by `Lift Bisim`.
* `equalWith_stable`, `debugWith_stable`: from `equalBound` on, more fuel changes no answer and
  no text.
* `cyclic_graphs_compare_and_print`: all of it together, with bisimilarity as the greatest
  relation that the object step keeps.

# How the proofs go

Along one path of the recursion, every object level adds a pair of objects (a handle for the
debug text) that is not there yet, so there are at most `size * size` object levels (`size` for
the debug text). Between two object levels the recursion goes down through arrays and containers
only. A `potential` bounds that descent: the weight of the value, plus, for every container cell
of rank below the value's containers, one step into the cell and the weight of what it holds
(`belowCost`). Each step into an array element or a container element lowers the potential, and
the potential of a slot value is at most `size + weight`. The fuel the recursion needs is then
`compareBound` (`printBound`): the object levels left times `size + weight + 1`, plus the
potential; `equalBound` is above it.
-/

namespace GraphViews

namespace Store

variable (s : Store)

-- ============================================================ weights

/-- The total weight of some values. -/
def valuesWeight (vs : List Value) : Nat := (vs.map Value.weight).sum

/-- The values held in the slots of an object; none for any other cell. -/
def slotValues (h : Handle) : List Value :=
  match s.instance? h with
  | some o => o.slots.map (·.2)
  | none => []

/-- The weight of the values a cell holds. -/
def cellWeight (h : Handle) : Nat :=
  valuesWeight (s.slotValues h) + valuesWeight (s.containerValues h)

theorem weight_eq_sum : s.weight = ∑ h ∈ Finset.range s.size, s.cellWeight h := by
  rw [Finset.sum_range, ← List.sum_ofFn]
  simp only [Store.weight]
  congr 1
  apply List.ext_getElem
  · simp [size]
  · intro i h1 _
    have hi : i < s.cells.size := by simpa using h1
    have hc : s.cell? i = some s.cells[i] := by simp [cell?]
    simp only [List.getElem_map, List.getElem_ofFn, Array.getElem_toList]
    cases hcell : s.cells[i] <;>
      simp [cellWeight, slotValues, containerValues, instance?, items, entries, hc, hcell,
        valuesWeight, List.sum_eq_foldr, Function.comp_def]

theorem weight_le_valuesWeight {v : Value} {vs : List Value} (hv : v ∈ vs) :
    v.weight ≤ valuesWeight vs :=
  List.le_sum_of_mem (List.mem_map_of_mem hv)

theorem weight_le_weightAll {x : Value} {xs : List Value} (hx : x ∈ xs) :
    x.weight ≤ Value.weight.weightAll xs := by
  induction xs with
  | nil => simp at hx
  | cons y ys ih =>
    rcases List.mem_cons.1 hx with rfl | hx
    · simp [Value.weight.weightAll]
    · have := ih hx
      simp only [Value.weight.weightAll]
      omega

theorem mem_containers_array {x : Value} {xs : List Value} (hx : x ∈ xs) {k : Handle}
    (hk : k ∈ x.containers) : k ∈ (Value.array xs).containers := by
  simp only [Value.containers]
  induction xs with
  | nil => simp at hx
  | cons y ys ih =>
    simp only [Value.containers.containersAll, List.mem_append]
    rcases List.mem_cons.1 hx with rfl | hx
    · exact .inl hk
    · exact .inr (ih hx)

theorem mem_containerValues_of_items {h : Handle} {x : Value} (hx : x ∈ s.items h) :
    x ∈ s.containerValues h :=
  List.mem_append_left _ hx

theorem mem_containerValues_of_entries {h : Handle} {e : Scalar × Value} (he : e ∈ s.entries h) :
    e.2 ∈ s.containerValues h :=
  List.mem_append_right _ (List.mem_map_of_mem he)

theorem lt_size_of_containerValues {h : Handle} {x : Value} (hx : x ∈ s.containerValues h) :
    h < s.size := by
  cases hc : s.cell? h with
  | none => simp [containerValues, items, entries, hc] at hx
  | some c => exact lt_size_of_cell? hc

-- ============================================================ the potential of a value

variable (rank : Handle → Nat)

/-- What a descent through containers of rank below `r` can cost: for each such cell, one step
into it and the weight of the values it holds. -/
def belowCost (r : Nat) : Nat :=
  ∑ h ∈ (Finset.range s.size).filter (rank · < r), (1 + valuesWeight (s.containerValues h))

/-- One more than the highest rank of a container a value holds directly. -/
def topRank (v : Value) : Nat := v.containers.toFinset.sup (rank · + 1)

/-- A bound on the steps the recursion takes below a value before it reaches an object. -/
def potential (v : Value) : Nat := v.weight + s.belowCost rank (topRank rank v)

variable {s rank}

variable (s rank) in
theorem belowCost_mono {r r' : Nat} (hr : r ≤ r') : s.belowCost rank r ≤ s.belowCost rank r' :=
  Finset.sum_le_sum_of_subset
    (Finset.monotone_filter_right _ fun _ _ (hlt : _ < r) => (by omega : _ < r'))

variable (s rank) in
/-- A cell of rank `rank k` is counted once more from the next rank on. -/
theorem belowCost_succ_rank {k : Handle} (hk : k < s.size) :
    s.belowCost rank (rank k) + (1 + valuesWeight (s.containerValues k)) ≤
      s.belowCost rank (rank k + 1) := by
  have hnot : k ∉ (Finset.range s.size).filter (rank · < rank k) := by simp
  have hsub : insert k ((Finset.range s.size).filter (rank · < rank k)) ⊆
      (Finset.range s.size).filter (rank · < rank k + 1) := by
    intro h hh
    rcases Finset.mem_insert.1 hh with rfl | hh
    · simp [hk]
    · simp only [Finset.mem_filter, Finset.mem_range] at hh ⊢
      omega
  have := Finset.sum_le_sum_of_subset (f := fun h => 1 + valuesWeight (s.containerValues h)) hsub
  rw [Finset.sum_insert hnot] at this
  unfold belowCost
  omega

variable (s rank) in
/-- Every cell counted at most once: the cost is at most the cells and their container
weights. -/
theorem belowCost_le (r : Nat) :
    s.belowCost rank r ≤ s.size + ∑ h ∈ Finset.range s.size, valuesWeight (s.containerValues h) := by
  calc s.belowCost rank r
      ≤ ∑ h ∈ Finset.range s.size, (1 + valuesWeight (s.containerValues h)) :=
        Finset.sum_le_sum_of_subset (Finset.filter_subset _ _)
    _ = s.size + ∑ h ∈ Finset.range s.size, valuesWeight (s.containerValues h) := by
        rw [Finset.sum_add_distrib]
        simp

theorem le_topRank {v : Value} {k : Handle} (hk : k ∈ v.containers) :
    rank k + 1 ≤ topRank rank v :=
  Finset.le_sup (f := (rank · + 1)) (List.mem_toFinset.2 hk)

theorem topRank_le {v : Value} {r : Nat} (h : ∀ k ∈ v.containers, rank k + 1 ≤ r) :
    topRank rank v ≤ r :=
  Finset.sup_le fun k hk => h k (List.mem_toFinset.1 hk)

@[simp] theorem potential_container {k : Handle} :
    s.potential rank (.list k) = 1 + s.belowCost rank (rank k + 1) ∧
      s.potential rank (.set k) = 1 + s.belowCost rank (rank k + 1) ∧
      s.potential rank (.map k) = 1 + s.belowCost rank (rank k + 1) := by
  simp [potential, topRank, Value.containers, Value.weight]

/-- A value held in a container is two steps below the container. -/
theorem potential_add_two_le {k : Handle} {x : Value} (hrank : s.Ranked rank)
    (hx : x ∈ s.containerValues k) :
    s.potential rank x + 2 ≤ 1 + s.belowCost rank (rank k + 1) := by
  have htop : topRank rank x ≤ rank k := topRank_le fun k' hk' => hrank k x hx k' hk'
  have hweight := weight_le_valuesWeight hx
  have hmono := belowCost_mono s rank htop
  have hstep := belowCost_succ_rank s rank (lt_size_of_containerValues s hx)
  unfold potential
  omega

variable (s rank) in
/-- An element of an array is one step below the array. -/
theorem potential_lt_array {x : Value} {xs : List Value} (hx : x ∈ xs) :
    s.potential rank x + 1 ≤ s.potential rank (.array xs) := by
  have htop : topRank rank x ≤ topRank rank (.array xs) :=
    topRank_le fun _ hk => le_topRank (mem_containers_array hx hk)
  have hmono := belowCost_mono s rank htop
  have hweight := weight_le_weightAll hx
  simp only [potential, Value.weight]
  omega

variable (rank) in
/-- A slot value, or null, is within the size and the weight of the store. -/
theorem potential_slot_le {h : Handle} {v : Value} (hv : v ∈ s.slotValues h) :
    s.potential rank v ≤ s.size + s.weight := by
  have hh : h < s.size := by
    cases hc : s.cell? h with
    | none => simp [slotValues, instance?, hc] at hv
    | some c => exact lt_size_of_cell? hc
  have hweight := weight_le_valuesWeight hv
  have hcost := belowCost_le s rank (topRank rank v)
  -- the slots of `h` and the containers are counted apart in the weight of the store
  have hsplit : valuesWeight (s.slotValues h) +
      ∑ h ∈ Finset.range s.size, valuesWeight (s.containerValues h) ≤ s.weight := by
    rw [weight_eq_sum]
    calc valuesWeight (s.slotValues h) + ∑ h ∈ Finset.range s.size, valuesWeight (s.containerValues h)
        ≤ ∑ h ∈ Finset.range s.size, valuesWeight (s.slotValues h) +
            ∑ h ∈ Finset.range s.size, valuesWeight (s.containerValues h) :=
          Nat.add_le_add_right
            (Finset.single_le_sum (f := fun h => valuesWeight (s.slotValues h))
              (fun _ _ => Nat.zero_le _) (Finset.mem_range.2 hh)) _
      _ = ∑ h ∈ Finset.range s.size, s.cellWeight h := by
          rw [← Finset.sum_add_distrib]
          rfl
  unfold potential
  omega

variable (s rank) in
theorem potential_le (v : Value) : s.potential rank v ≤ v.weight + s.size + s.weight := by
  have hcost := belowCost_le s rank (topRank rank v)
  have hsum : ∑ h ∈ Finset.range s.size, valuesWeight (s.containerValues h) ≤ s.weight := by
    rw [weight_eq_sum]
    exact Finset.sum_le_sum fun h _ => by simp [cellWeight]
  unfold potential
  omega

-- ============================================================ object levels

/-- Distinct elements of a finite set: besides a new one, fewer than the set has. -/
theorem length_lt_card {α : Type} [DecidableEq α] {a : α} {l : List α} {t : Finset α}
    (hnd : (a :: l).Nodup) (hin : ∀ x ∈ a :: l, x ∈ t) : l.length < t.card := by
  have hcard := Finset.card_le_card (s := (a :: l).toFinset) fun x hx => hin x (List.mem_toFinset.1 hx)
  rw [List.toFinset_card_of_nodup hnd] at hcard
  simpa using hcard

/-- One object level more: the levels left drop by one, which outweighs any potential below
`C`. -/
private theorem level_step {M L C p q : Nat} (hL : L < M) (hp : p < C) :
    (M - (L + 1)) * C + p < (M - L) * C + q := by
  have hM : M - L = M - (L + 1) + 1 := by omega
  rw [hM, Nat.succ_mul]
  omega

theorem mem_slotValues_of_slot? {h : Handle} {name : String} {v : Value}
    (hv : s.slot? h name = some v) : v ∈ s.slotValues h := by
  cases ho : s.instance? h with
  | none => simp [slot?, ho] at hv
  | some o =>
    rw [slot?_of_instance ho] at hv
    obtain ⟨q, hq, rfl⟩ := Option.map_eq_some_iff.1 hv
    simpa [slotValues, ho] using ⟨q.1, List.mem_of_find?_eq_some hq⟩

theorem mem_slotValues {h : Handle} {o : Instance} (ho : s.instance? h = some o) {name : String}
    {v : Value} (hmem : (name, v) ∈ o.slots) : v ∈ s.slotValues h := by
  simpa [slotValues, ho] using ⟨name, hmem⟩

theorem lt_size_of_slotValues {h : Handle} {v : Value} (hv : v ∈ s.slotValues h) : h < s.size := by
  cases hc : s.cell? h with
  | none => simp [slotValues, instance?, hc] at hv
  | some c => exact lt_size_of_cell? hc

private theorem optionRel_isSome {α β : Type} {r : α → β → Prop} {a : Option α} {b : Option β}
    (hab : Option.Rel r a b) : a.isSome = b.isSome := by
  cases hab <;> rfl

theorem mem_slotNames_iff {h : Handle} {o : Instance} (ho : s.instance? h = some o)
    (name : String) : name ∈ o.slots.map (·.1) ↔ (s.slot? h name).isSome := by
  simp [slot?_of_instance ho, List.find?_isSome]

-- ============================================================ comparison: the fuel is enough

variable (s rank) in
/-- Fuel enough for a comparison under the pairs `seen`: the object levels left, each worth
more than a descent, and the descent below the two values. -/
def compareBound (seen : List (Handle × Handle)) (a b : Value) : Nat :=
  (s.size * s.size - seen.length) * (s.size + s.weight + 1) +
    max (s.potential rank a) (s.potential rank b)

variable (rank) in
theorem compareBound_slot_lt {seen : List (Handle × Handle)} {h k : Handle} {v w : Value}
    (hnd : ((h, k) :: seen).Nodup) (hin : ∀ q ∈ (h, k) :: seen, q.1 < s.size ∧ q.2 < s.size)
    (hv : v ∈ s.slotValues h) (hw : w ∈ s.slotValues k) :
    s.compareBound rank ((h, k) :: seen) v w < s.compareBound rank seen (.object h) (.object k) := by
  have hlen := length_lt_card (t := Finset.range s.size ×ˢ Finset.range s.size) hnd
    (by simpa using hin)
  have hv' := potential_slot_le rank hv
  have hw' := potential_slot_le rank hw
  simp only [Finset.card_product, Finset.card_range] at hlen
  exact level_step hlen (by omega)

theorem compareBound_container (seen : List (Handle × Handle)) {h k : Handle} {x y a b : Value}
    (hrank : s.Ranked rank) (hx : x ∈ s.containerValues h) (hy : y ∈ s.containerValues k)
    (ha : s.potential rank a = 1 + s.belowCost rank (rank h + 1))
    (hb : s.potential rank b = 1 + s.belowCost rank (rank k + 1)) :
    s.compareBound rank seen x y + 2 ≤ s.compareBound rank seen a b := by
  have hx' := potential_add_two_le hrank hx
  have hy' := potential_add_two_le hrank hy
  unfold compareBound
  omega

variable (s rank) in
theorem compareBound_array (seen : List (Handle × Handle)) {x y : Value} {xs ys : List Value}
    (hx : x ∈ xs) (hy : y ∈ ys) :
    s.compareBound rank seen x y + 1 ≤ s.compareBound rank seen (.array xs) (.array ys) := by
  have hx' := potential_lt_array s rank hx
  have hy' := potential_lt_array s rank hy
  unfold compareBound
  omega

variable (s rank) in
theorem compareBound_lt_equalBound (a b : Value) :
    s.compareBound rank [] a b < s.equalBound a b := by
  have ha := potential_le s rank a
  have hb := potential_le s rank b
  have hmul : s.size * s.size * (s.size + s.weight + 1) ≤
      s.size * s.size * (s.size + s.weight + a.weight + b.weight + 2) :=
    Nat.mul_le_mul_left _ (by omega)
  unfold compareBound equalBound
  rw [Nat.succ_mul]
  simp only [List.length_nil, Nat.sub_zero]
  omega

/-- The object level of completeness: bisimilar objects compare true, provided their slots
do, one level down with the pair among the pairs under comparison. -/
theorem equalWith_object_of_bisim (hs : s.WellFormed) {n : Nat} {seen : List (Handle × Handle)}
    {h k : Handle} (hhk : s.Bisim h k)
    (ih : ∀ {v w : Value}, v ∈ s.slotValues h → w ∈ s.slotValues k → s.Lift s.Bisim v w →
      s.equalWith n ((h, k) :: seen) v w = true) :
    s.equalWith (n + 1) seen (.object h) (.object k) = true := by
  rcases bisim_iff.1 hhk with rfl | ⟨o, p, ho, hp, hname, hslots⟩
  · simp [equalWith]
  have hnames : ∀ name, name ∈ o.slots.map (·.1) ↔ name ∈ p.slots.map (·.1) := by
    intro name
    rw [mem_slotNames_iff ho, mem_slotNames_iff hp, optionRel_isSome (hslots name)]
  -- distinct names on both sides: the slot tables have the same length
  have hperm := (List.perm_ext_iff_of_nodup (hs.slots_nodup h o ho) (hs.slots_nodup k p hp)).2 hnames
  simp only [equalWith, Bool.or_eq_true, ho, hp, Bool.and_eq_true, beq_iff_eq, List.all_eq_true]
  refine .inr ⟨⟨hname, by simpa using hperm.length_eq⟩, ?_⟩
  rintro ⟨name, v⟩ hmem
  have hrel := hslots name
  rw [slot?_of_instance ho, slot?_of_instance hp, find?_slot_of_mem (hs.slots_nodup h o ho) hmem]
    at hrel
  cases hf : p.slots.find? (·.1 == name) with
  | none => simp [hf] at hrel
  | some q =>
    simp only [hf, Option.map_some, Option.rel_some_some] at hrel
    simpa [hf] using ih (mem_slotValues ho hmem) (mem_slotValues hp (List.mem_of_find?_eq_some hf))
      hrel

/-- Completeness with enough fuel: bisimilar values compare true under any pairs of handles of
the store, once the fuel is above `compareBound`. -/
theorem equalWith_of_lift (hs : s.WellFormed) (hrank : s.Ranked rank) :
    ∀ {n : Nat} {seen : List (Handle × Handle)} {a b : Value}, seen.Nodup →
      (∀ q ∈ seen, q.1 < s.size ∧ q.2 < s.size) → s.Lift s.Bisim a b →
      s.compareBound rank seen a b < n → s.equalWith n seen a b = true
  | 0, _, _, _, _, _, _, hn => absurd hn (Nat.not_lt_zero _)
  | n + 1, seen, a, b, hnd, hin, hab, hn => by
    cases hab with
    | scalar hxy => simpa [equalWith] using hxy
    | @object h k hhk =>
      by_cases hseen : (h, k) ∈ seen
      · simp [equalWith, hseen]
      have hnd' : ((h, k) :: seen).Nodup := List.nodup_cons.2 ⟨hseen, hnd⟩
      refine equalWith_object_of_bisim hs hhk fun hv hw hvw => ?_
      have hin' : ∀ q ∈ (h, k) :: seen, q.1 < s.size ∧ q.2 < s.size :=
        List.forall_mem_cons.2 ⟨⟨lt_size_of_slotValues hv, lt_size_of_slotValues hw⟩, hin⟩
      have := compareBound_slot_lt rank hnd' hin' hv hw
      exact equalWith_of_lift hs hrank hnd' hin' hvw (by omega)
    | @list h k hlen hrel =>
      simp only [equalWith]
      refine pointwise_eq_true_iff.2 ⟨hlen, fun i hx hy => ?_⟩
      have := compareBound_container seen hrank
        (mem_containerValues_of_items s (List.getElem_mem hx))
        (mem_containerValues_of_items s (List.getElem_mem hy))
        potential_container.1 potential_container.1
      exact equalWith_of_lift hs hrank hnd hin (hrel i hx hy) (by omega)
    | @array xs ys hlen hrel =>
      simp only [equalWith]
      refine pointwise_eq_true_iff.2 ⟨hlen, fun i hx hy => ?_⟩
      have := compareBound_array s rank seen (List.getElem_mem hx)
        (List.getElem_mem hy)
      exact equalWith_of_lift hs hrank hnd hin (hrel i hx hy) (by omega)
    | @set h k pick hlen hpick hrel =>
      simp only [equalWith, Bool.and_eq_true, beq_iff_eq, List.all_eq_true, List.any_eq_true]
      refine ⟨hlen, fun x hx => ⟨pick x, hpick x hx, ?_⟩⟩
      have := compareBound_container seen hrank (mem_containerValues_of_items s hx)
        (mem_containerValues_of_items s (hpick x hx))
        potential_container.2.1 potential_container.2.1
      exact equalWith_of_lift hs hrank hnd hin (hrel x hx) (by omega)
    | @map h k pick hlen hpick hrel =>
      simp only [equalWith, Bool.and_eq_true, beq_iff_eq, List.all_eq_true, List.any_eq_true]
      refine ⟨hlen, fun e he => ⟨pick e, (hpick e he).1, (hpick e he).2, ?_⟩⟩
      have := compareBound_container seen hrank (mem_containerValues_of_entries s he)
        (mem_containerValues_of_entries s (hpick e he).1)
        potential_container.2.2 potential_container.2.2
      exact equalWith_of_lift hs hrank hnd hin (hrel e he) (by omega)

theorem lift_object_iff {R : Handle → Handle → Prop} {h k : Handle} :
    s.Lift R (.object h) (.object k) ↔ R h k := by
  constructor
  · rintro ⟨⟩
    assumption
  · exact .object

/-- On a well-formed store, two values compare equal exactly when they are bisimilar. -/
theorem equal_iff_lift (hs : s.WellFormed) {a b : Value} :
    s.equal a b = true ↔ s.Lift s.Bisim a b := by
  obtain ⟨rank, hrank⟩ := hs.ranked
  refine ⟨lift_bisim_of_equalWith hs, fun hab => ?_⟩
  exact equalWith_of_lift hs hrank List.nodup_nil (by simp) hab (compareBound_lt_equalBound s rank a b)

/-- From `equalBound` on, more fuel gives the same answer. -/
theorem equalWith_stable (hs : s.WellFormed) {a b : Value} {n : Nat} (hn : s.equalBound a b ≤ n) :
    s.equalWith n [] a b = s.equal a b := by
  obtain ⟨rank, hrank⟩ := hs.ranked
  have hbound := compareBound_lt_equalBound s rank a b
  rw [Bool.eq_iff_iff, equal_iff_lift hs]
  exact ⟨lift_bisim_of_equalWith hs,
    fun hab => equalWith_of_lift hs hrank List.nodup_nil (by simp) hab (by omega)⟩

-- ============================================================ debug text: the fuel is enough

variable (s rank) in
/-- Fuel enough for the debug text under the objects `printing`. -/
def printBound (printing : List Handle) (v : Value) : Nat :=
  (s.size - printing.length) * (s.size + s.weight + 1) + s.potential rank v

variable (rank) in
theorem printBound_slot_lt {printing : List Handle} {h : Handle} {v : Value}
    (hnd : (h :: printing).Nodup) (hin : ∀ x ∈ h :: printing, x < s.size)
    (hv : v ∈ s.slotValues h) :
    s.printBound rank (h :: printing) v < s.printBound rank printing (.object h) := by
  have hlen := length_lt_card (t := Finset.range s.size) hnd (by simpa using hin)
  have hv' := potential_slot_le rank hv
  rw [Finset.card_range] at hlen
  exact level_step hlen (by omega)

theorem printBound_container (printing : List Handle) {h : Handle} {x a : Value}
    (hrank : s.Ranked rank) (hx : x ∈ s.containerValues h)
    (ha : s.potential rank a = 1 + s.belowCost rank (rank h + 1)) :
    s.printBound rank printing x + 2 ≤ s.printBound rank printing a := by
  have hx' := potential_add_two_le hrank hx
  unfold printBound
  omega

variable (s rank) in
theorem printBound_array (printing : List Handle) {x : Value} {xs : List Value} (hx : x ∈ xs) :
    s.printBound rank printing x + 1 ≤ s.printBound rank printing (.array xs) := by
  have hx' := potential_lt_array s rank hx
  unfold printBound
  omega

variable (s rank) in
theorem printBound_lt_equalBound (v : Value) : s.printBound rank [] v < s.equalBound v v := by
  have hv := potential_le s rank v
  have hmul : s.size * (s.size + s.weight + 1) ≤
      s.size * s.size * (s.size + s.weight + v.weight + v.weight + 2) :=
    calc s.size * (s.size + s.weight + 1)
        ≤ s.size * s.size * (s.size + s.weight + 1) := Nat.mul_le_mul_right _ (Nat.le_mul_self _)
      _ ≤ s.size * s.size * (s.size + s.weight + v.weight + v.weight + 2) :=
          Nat.mul_le_mul_left _ (by omega)
  unfold printBound equalBound
  rw [Nat.succ_mul]
  simp only [List.length_nil, Nat.sub_zero]
  omega

theorem field_mem_slotValues {h : Handle} {o : Instance} (ho : s.instance? h = some o)
    {name : String} (hname : name ∈ o.slots.map (·.1)) : s.field h name ∈ s.slotValues h := by
  obtain ⟨v, hv⟩ := Option.isSome_iff_exists.1 ((mem_slotNames_iff ho name).1 hname)
  simpa [field, hv] using mem_slotValues_of_slot? hv

theorem items_succ_of {n : Nat} {printing : List Handle} {xs : List Value}
    (ih : ∀ x ∈ xs, s.debugWith (n + 1) printing x = s.debugWith n printing x) :
    debugWith.items s (n + 1) printing xs = debugWith.items s n printing xs := by
  rw [debugWith.items, debugWith.items, List.map_congr_left ih]

/-- The object level of stability: an object's text is the same with one more step of fuel,
provided its slots' texts are, one level down with the object among those being printed. -/
theorem objectText_succ_of {n : Nat} {printing : List Handle} {h : Handle}
    (ih : h ∉ printing → ∀ v ∈ s.slotValues h,
      s.debugWith (n + 1) (h :: printing) v = s.debugWith n (h :: printing) v) :
    debugWith.objectText s (n + 1) printing h = debugWith.objectText s n printing h := by
  rw [debugWith.objectText, debugWith.objectText]
  cases ho : s.instance? h with
  | none => rfl
  | some o =>
    by_cases hp : printing.contains h = true
    · simp only [hp, if_true]
    · have hmem : h ∉ printing := by simpa using hp
      have hnames : ∀ name ∈ sortNames (o.slots.map (·.1)),
          name ++ ": " ++ s.debugWith (n + 1) (h :: printing) (s.field h name) =
            name ++ ": " ++ s.debugWith n (h :: printing) (s.field h name) := by
        intro name hname
        rw [sortNames, List.mem_mergeSort] at hname
        rw [ih hmem _ (field_mem_slotValues ho hname)]
      simp only [hp, Bool.false_eq_true, if_false, List.map_congr_left hnames]

/-- An object's text is stable above its `printBound` when every value's text is stable above
its own, one level down. -/
theorem objectText_succ {n : Nat} {printing : List Handle} {h : Handle}
    (step : ∀ {printing : List Handle} {v : Value}, printing.Nodup → (∀ h ∈ printing, h < s.size) →
      s.printBound rank printing v < n → s.debugWith (n + 1) printing v = s.debugWith n printing v)
    (hnd : printing.Nodup) (hin : ∀ x ∈ printing, x < s.size)
    (hn : s.printBound rank printing (.object h) ≤ n) :
    debugWith.objectText s (n + 1) printing h = debugWith.objectText s n printing h := by
  -- the slots are printed with `h` added to the objects being printed
  refine objectText_succ_of fun hp v hv => ?_
  have hnd' : (h :: printing).Nodup := List.nodup_cons.2 ⟨hp, hnd⟩
  have hin' : ∀ x ∈ h :: printing, x < s.size :=
    List.forall_mem_cons.2 ⟨lt_size_of_slotValues hv, hin⟩
  have := printBound_slot_lt rank hnd' hin' hv
  exact step hnd' hin' (by omega)

/-- Stability with enough fuel: one more step of fuel above `printBound` changes no text. -/
theorem debugWith_succ (hrank : s.Ranked rank) :
    ∀ {n : Nat} {printing : List Handle} {v : Value}, printing.Nodup →
      (∀ h ∈ printing, h < s.size) → s.printBound rank printing v < n →
      s.debugWith (n + 1) printing v = s.debugWith n printing v
  | 0, _, _, _, _, hn => absurd hn (Nat.not_lt_zero _)
  | n + 1, printing, v, hnd, hin, hn => by
    cases v with
    | scalar x => simp only [debugWith]
    | object h =>
      simp only [debugWith]
      rw [objectText_succ (n := n) (h := h) (debugWith_succ hrank) hnd hin (by omega)]
    | list h =>
      simp only [debugWith]
      rw [items_succ_of fun x hx => ?_]
      have := printBound_container printing hrank
        (mem_containerValues_of_items s hx) potential_container.1
      exact debugWith_succ hrank hnd hin (by omega)
    | set h =>
      simp only [debugWith]
      rw [items_succ_of fun x hx => ?_]
      have := printBound_container printing hrank
        (mem_containerValues_of_items s hx) potential_container.2.1
      exact debugWith_succ hrank hnd hin (by omega)
    | map h =>
      simp only [debugWith]
      have hentries : ∀ e ∈ s.entries h, s.debugWith (n + 1) printing e.2 =
          s.debugWith n printing e.2 := by
        intro e he
        have := printBound_container printing hrank
          (mem_containerValues_of_entries s he) potential_container.2.2
        exact debugWith_succ hrank hnd hin (by omega)
      rw [List.map_congr_left fun e he => by rw [hentries e he]]
    | array xs =>
      simp only [debugWith]
      rw [items_succ_of fun x hx => ?_]
      have := printBound_array s rank printing hx
      exact debugWith_succ hrank hnd hin (by omega)

/-- A sequence that stops changing at `B` keeps its value from `B` on. -/
private theorem eq_of_succ_eq {α : Type} {f : Nat → α} {B : Nat}
    (hf : ∀ n, B ≤ n → f (n + 1) = f n) : ∀ n, B ≤ n → f n = f B := by
  intro n hn
  induction n, hn using Nat.le_induction with
  | base => rfl
  | succ n hn ih => rw [hf n hn, ih]

/-- From `equalBound` on, more fuel gives the same debug text. -/
theorem debugWith_stable (hs : s.WellFormed) {v : Value} {n : Nat} (hn : s.equalBound v v ≤ n) :
    s.debugWith n [] v = s.debugText v := by
  obtain ⟨rank, hrank⟩ := hs.ranked
  have hbound := printBound_lt_equalBound s rank v
  have hstable := eq_of_succ_eq (f := fun n => s.debugWith n [] v)
    (B := s.printBound rank [] v + 1)
    fun n hn => debugWith_succ hrank List.nodup_nil (by simp) (by omega)
  rw [debugText, hstable n (by omega), hstable (s.equalBound v v) (by omega)]

/-- From `equalBound` on, more fuel gives the same text of an object. -/
theorem objectText_stable (hs : s.WellFormed) {h : Handle} {n : Nat}
    (hn : s.equalBound (.object h) (.object h) ≤ n) :
    debugWith.objectText s n [] h = s.objectDebugText h := by
  obtain ⟨rank, hrank⟩ := hs.ranked
  have hbound := printBound_lt_equalBound s rank (.object h)
  have hstable := eq_of_succ_eq (f := fun n => debugWith.objectText s n [] h)
    (B := s.printBound rank [] (.object h))
    fun n hn => objectText_succ (debugWith_succ hrank) List.nodup_nil (by simp) hn
  rw [objectDebugText, hstable n (by omega), hstable (s.equalBound (.object h) (.object h)) (by omega)]

-- ============================================================ the main statement

/-- On a well-formed store, cycle-guarded comparison and printing mean what they should.
Bisimilarity is the greatest relation on objects that the object step keeps. Two values compare
equal exactly when they are related through bisimilar objects, two objects exactly when they are
bisimilar. From `equalBound` on, more fuel changes neither an answer nor a text: both recursions
end inside their fuel. An object met again on the path being printed is its type name with a
cycle mark. -/
theorem cyclic_graphs_compare_and_print (hs : s.WellFormed) :
    (∀ h k, s.Bisim h k ↔ s.ObjectStep s.Bisim h k) ∧
    (∀ R : Handle → Handle → Prop, (∀ h k, R h k → s.ObjectStep R h k) →
      ∀ h k, R h k → s.Bisim h k) ∧
    (∀ a b, s.equal a b = true ↔ s.Lift s.Bisim a b) ∧
    (∀ h k, s.equal (.object h) (.object k) = true ↔ s.Bisim h k) ∧
    (∀ a b n, s.equalBound a b ≤ n → s.equalWith n [] a b = s.equal a b) ∧
    (∀ v n, s.equalBound v v ≤ n → s.debugWith n [] v = s.debugText v) ∧
    (∀ h n, s.equalBound (.object h) (.object h) ≤ n →
      debugWith.objectText s n [] h = s.objectDebugText h) ∧
    (∀ n printing h o, s.instance? h = some o → h ∈ printing →
      debugWith.objectText s n printing h = o.type.name ++ "(<cycle>)") := by
  refine ⟨fun _ _ => bisim_iff, fun _ hR _ _ => bisim_of_step hR, fun _ _ => equal_iff_lift hs,
    fun _ _ => (equal_iff_lift hs).trans lift_object_iff, fun _ _ _ hn => equalWith_stable hs hn,
    fun _ _ hn => debugWith_stable hs hn, fun _ _ hn => objectText_stable hs hn,
    fun n printing h o ho hh => ?_⟩
  simp [debugWith.objectText, ho, hh]

/-- Two objects whose only slots point at each other. -/
def nodePair : Store :=
  ⟨#[.object ⟨{ name := "Node" }, [("next", .object 1)]⟩,
    .object ⟨{ name := "Node" }, [("next", .object 0)]⟩]⟩

theorem nodePair_wellFormed : nodePair.WellFormed where
  slots_nodup h o ho := by
    rcases h with _ | _ | h <;> simp [nodePair, instance?, cell?] at ho <;> subst ho <;> simp
  -- no containers at all: any rank will do
  ranked := ⟨fun _ => 0, fun h x hx => by
    rcases h with _ | _ | h <;> simp [nodePair, containerValues, items, entries, cell?] at hx⟩

theorem nodePair_bisimilar : nodePair.WellFormed ∧ nodePair.Bisim 0 1 :=
  ⟨nodePair_wellFormed,
    ((cyclic_graphs_compare_and_print nodePair_wellFormed).2.2.2.1 0 1).1 (by decide)⟩

end Store

end GraphViews

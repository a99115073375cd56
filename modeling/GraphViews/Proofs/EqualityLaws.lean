import Mathlib
import GraphViews.Proofs.CyclicGraphs
/-!
Which laws equality of model values keeps.

On a well-formed store `Store.equal` is reflexive on values without a NaN and transitive on all
values, cyclic object graphs included. It is not symmetric: a set compares equal to another of
the same length when every element of the first has an equal element in the second, and a set
may hold two equal objects, since sets tell objects apart by handle.

# Main statements

* `equal_reflexive_transitive`: the two laws that hold.
* `tagSets_equal_one_way`: two sets of tags, one equal to the other and not the other way round.

# How the proofs go

Both laws go through `equal_iff_lift`. Transitivity is `Lift.comp` with `bisim_trans`.
Reflexivity builds `Lift Bisim a a` by induction on the potential of `a`: objects are bisimilar
to themselves whatever they hold, and each step into an array element or a container element
lowers the potential.
-/

namespace GraphViews

open Float.Model

-- ============================================================ scalars equal to themselves

theorem unpackedFloat_beq_self (u : UnpackedFloat) : u.beq u = !u.isNaN := by
  cases u with
  | infinity s => cases s <;> rfl
  | notANumber => rfl
  | zero s => cases s <;> rfl
  | finite s m e hm =>
    cases s <;> simp [UnpackedFloat.beq, UnpackedFloat.compare, UnpackedFloat.isNaN]

/-- A float scalar that is not a number. -/
def Scalar.isNaN : Scalar → Bool
  | .float x => x.isNaN
  | _ => false

/-- NaN is the one scalar that is not equal to itself. -/
theorem Scalar.beq_self_iff (x : Scalar) : (x == x) = true ↔ x.isNaN = false := by
  cases x with
  | float x =>
    simp [BEq.beq, Scalar.beq, Scalar.isNaN, Float.beq, Float.isNaN, Float.Model.isNaN,
      Float.Model.beq, unpackedFloat_beq_self]
  | _ => simp [BEq.beq, Scalar.beq, Scalar.isNaN]

/-- The scalars a value holds directly: itself, or those of its array elements. -/
def Value.scalars : Value → List Scalar
  | .scalar x => [x]
  | .array xs => scalarsAll xs
  | _ => []
where
  scalarsAll : List Value → List Scalar
    | [] => []
    | x :: xs => scalars x ++ scalarsAll xs

theorem Value.mem_scalars_array {x : Value} {xs : List Value} (hx : x ∈ xs) {y : Scalar}
    (hy : y ∈ x.scalars) : y ∈ (Value.array xs).scalars := by
  simp only [Value.scalars]
  induction xs with
  | nil => simp at hx
  | cons z zs ih =>
    simp only [Value.scalars.scalarsAll, List.mem_append]
    rcases List.mem_cons.1 hx with rfl | hx
    · exact .inl hy
    · exact .inr (ih hx)

namespace Store

variable {s : Store} {rank : Handle → Nat}

/-- No container of the store holds a NaN: as an element, an entry key or an entry value, or
inside an array it holds. -/
structure ContainersNaNFree (s : Store) : Prop where
  values : ∀ h, ∀ v ∈ s.containerValues h, ∀ x ∈ v.scalars, x.isNaN = false
  keys : ∀ h, ∀ e ∈ s.entries h, e.1.isNaN = false

-- ============================================================ reflexivity

/-- Fuel above a container's potential is, one unit down, above the potential of what the
container holds. -/
theorem potential_lt_of_held (hrank : s.Ranked rank) {k : Handle} {x : Value} {n : Nat}
    (hx : x ∈ s.containerValues k) (hn : 1 + s.belowCost rank (rank k + 1) < n + 1) :
    s.potential rank x < n := by
  have := potential_add_two_le hrank hx
  omega

/-- A value with no NaN of its own, in a store whose containers hold none, is related to itself:
by induction on the fuel above its potential. -/
theorem lift_self (hrank : s.Ranked rank) (hnan : s.ContainersNaNFree) :
    ∀ {n : Nat} {a : Value}, s.potential rank a < n → (∀ x ∈ a.scalars, x.isNaN = false) →
      s.Lift s.Bisim a a
  | 0, _, hn, _ => absurd hn (Nat.not_lt_zero _)
  | n + 1, a, hn, ha => by
    cases a with
    | scalar x => exact .scalar ((Scalar.beq_self_iff x).2 (ha x (by simp [Value.scalars])))
    | object h => exact .object (bisim_refl h)
    | list h =>
      simp only [potential_container] at hn
      refine .list rfl fun i hi _ => ?_
      have hx := mem_containerValues_of_items s (List.getElem_mem hi)
      exact lift_self hrank hnan (potential_lt_of_held hrank hx hn) (hnan.values h _ hx)
    | set h =>
      simp only [potential_container] at hn
      refine .set id rfl (fun _ hx => hx) fun x hx => ?_
      have hx := mem_containerValues_of_items s hx
      exact lift_self hrank hnan (potential_lt_of_held hrank hx hn) (hnan.values h x hx)
    | map h =>
      simp only [potential_container] at hn
      refine .map id rfl (fun e he => ⟨he, (Scalar.beq_self_iff _).2 (hnan.keys h e he)⟩)
        fun e he => ?_
      have hx := mem_containerValues_of_entries s he
      exact lift_self hrank hnan (potential_lt_of_held hrank hx hn) (hnan.values h e.2 hx)
    | array xs =>
      refine .array rfl fun i hi _ => lift_self (n := n) hrank hnan ?_
        fun y hy => ha y (Value.mem_scalars_array (List.getElem_mem hi) hy)
      have := potential_lt_array s rank (List.getElem_mem hi)
      omega

-- ============================================================ the laws

/-- On a well-formed store, equality is reflexive on the values with no NaN of their own when no
container holds a NaN, and it is transitive on all values. -/
theorem equal_reflexive_transitive (hs : s.WellFormed) :
    (s.ContainersNaNFree → ∀ a, (∀ x ∈ a.scalars, x.isNaN = false) → s.equal a a = true) ∧
    (∀ a b c, s.equal a b = true → s.equal b c = true → s.equal a c = true) := by
  obtain ⟨rank, hrank⟩ := hs.ranked
  refine ⟨fun hnan a ha => ?_, fun a b c hab hbc => ?_⟩
  · exact (equal_iff_lift hs).2 (lift_self hrank hnan (Nat.lt_succ_self _) ha)
  · rw [equal_iff_lift hs] at hab hbc ⊢
    -- objects related through a middle object are bisimilar
    exact (hab.comp hbc).mono fun _ _ ⟨_, hhk, hkl⟩ => bisim_trans hhk hkl

theorem nodePair_equal_laws : nodePair.WellFormed ∧
    (nodePair.ContainersNaNFree →
      ∀ a, (∀ x ∈ a.scalars, x.isNaN = false) → nodePair.equal a a = true) ∧
    (∀ a b c, nodePair.equal a b = true → nodePair.equal b c = true →
      nodePair.equal a c = true) :=
  ⟨nodePair_wellFormed, equal_reflexive_transitive nodePair_wellFormed⟩

-- ============================================================ symmetry fails

/-- An object of type `Tag` with one slot, its code. -/
def tag (code : String) : Cell := .object ⟨{ name := "Tag" }, [("code", .scalar (.string code))]⟩

/-- Four tags coded x, x, x and y, a set of the first two and a set of the last two. -/
def tagSets : Store :=
  ⟨#[tag "x", tag "x", tag "x", tag "y", .set [.object 0, .object 1], .set [.object 2, .object 3]]⟩

theorem tagSets_wellFormed : tagSets.WellFormed where
  slots_nodup h o ho := by
    rcases h with _ | _ | _ | _ | _ | _ | h <;>
      simp [tagSets, tag, instance?, cell?] at ho <;> subst ho <;> simp
  -- the sets hold objects only, which hold no container
  ranked := ⟨fun _ => 0, fun h x hx k hk => by
    rcases h with _ | _ | _ | _ | _ | _ | h <;>
      simp [tagSets, tag, containerValues, items, entries, cell?] at hx <;>
      rcases hx with rfl | rfl <;> simp [Value.containers] at hk⟩

/-- Every tag of the first set has an equal tag in the second, but the second's y has none in
the first. -/
theorem tagSets_equal_one_way : tagSets.WellFormed ∧
    tagSets.equal (.set 4) (.set 5) = true ∧ tagSets.equal (.set 5) (.set 4) = false :=
  ⟨tagSets_wellFormed, by decide, by decide⟩

end Store

end GraphViews

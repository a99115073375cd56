import Mathlib
import GraphViews.Model.Debug
/-!
Equality of model values as bisimilarity of objects.

`Store.equal` compares two values of a store: scalars by scalar equality, lists and arrays
position by position, sets by equal length and every element of the first equal to some element
of the second, maps the same way on entries with equal keys, and objects by one handle or by equal
type names and equal slots. A pair of objects met again while it is still being compared counts
as equal, which is what lets the comparison of a cyclic graph end.

This module says what that computes. `Lift R` relates the values that are equal when objects are
compared by `R`. `ObjectStep R` relates two objects one level down: one handle, or equal type
names and slots with the same names and values related by `Lift R`. `Bisim` is the greatest
relation that `ObjectStep` keeps, the greatest fixed point `OrderHom.gfp`.

# Main statements

* `bisim_refl`, `bisim_trans`: bisimilarity is reflexive and transitive, and so is `Lift Bisim`
  on values whose scalars equal themselves (`Lift.comp`).
* `bisimUnder_of_step`: the pairs under comparison may be taken as related. A pair whose objects
  are related one level down, once the pair itself is taken as related, is related.
* `lift_of_equalWith`: a comparison that answers true, with any fuel, relates its values, the
  pairs under comparison taken as related; from the top, with none, they are bisimilar.

# How the proofs go

Soundness follows the fuel. At an object pair the comparison either stops (one handle, or a
pair under comparison) or compares the slots with the pair added to the pairs under comparison;
`bisimUnder_of_step` then turns the slots' relation, which may use the pair itself, into a
relation of the pair (the parametrised coinduction of a greatest fixed point).

Sets and maps relate through a choice of partner (`pick`), so that `Lift` stays an ordinary
inductive relation: containers nest finitely, and only objects are compared by `R`.
-/

namespace GraphViews

open Float.Model

-- ============================================================ scalar equality

/-- Floats are equal by IEEE 754: two zeros of either sign, or one infinity, finite value or
zero; a NaN equals nothing. -/
theorem unpackedFloat_beq_iff (a b : UnpackedFloat) :
    a.beq b = true ↔ (∃ s s', a = .zero s ∧ b = .zero s') ∨
      (a = b ∧ a ≠ .notANumber ∧ ∀ s, a ≠ .zero s) := by
  cases a with
  | infinity s =>
    cases b with
    | infinity s' =>
      cases s <;> cases s' <;> simp [UnpackedFloat.beq, UnpackedFloat.compare, compare]
    | notANumber => simp [UnpackedFloat.beq, UnpackedFloat.compare]
    | zero s' => cases s <;> simp [UnpackedFloat.beq, UnpackedFloat.compare]
    | finite s' m e hm => cases s <;> simp [UnpackedFloat.beq, UnpackedFloat.compare]
  | notANumber => simp [UnpackedFloat.beq, UnpackedFloat.compare]
  | zero s =>
    cases b with
    | infinity s' => cases s' <;> simp [UnpackedFloat.beq, UnpackedFloat.compare]
    | notANumber => simp [UnpackedFloat.beq, UnpackedFloat.compare]
    | zero s' => simp [UnpackedFloat.beq, UnpackedFloat.compare]
    | finite s' m e hm => cases s' <;> simp [UnpackedFloat.beq, UnpackedFloat.compare]
  | finite s m e hm =>
    cases b with
    | infinity s' => cases s' <;> cases s <;> simp [UnpackedFloat.beq, UnpackedFloat.compare]
    | notANumber => simp [UnpackedFloat.beq, UnpackedFloat.compare]
    | zero s' => cases s <;> simp [UnpackedFloat.beq, UnpackedFloat.compare]
    | finite s' m' e' hm' =>
      cases s <;> cases s' <;> simp [UnpackedFloat.beq, UnpackedFloat.compare, and_comm]

theorem unpackedFloat_beq_trans {a b c : UnpackedFloat} (hab : a.beq b = true)
    (hbc : b.beq c = true) : a.beq c = true := by
  rw [unpackedFloat_beq_iff] at hab hbc ⊢
  rcases hab with ⟨s, s', rfl, rfl⟩ | ⟨rfl, hnan, hzero⟩
  · rcases hbc with ⟨_, s'', -, rfl⟩ | ⟨-, -, hzero'⟩
    · exact .inl ⟨s, s'', rfl, rfl⟩
    · exact absurd rfl (hzero' s')
  · exact hbc

theorem Scalar.beq_trans {x y z : Scalar} (hxy : (x == y) = true) (hyz : (y == z) = true) :
    (x == z) = true := by
  cases x <;> cases y <;> cases z <;> simp_all [BEq.beq, Scalar.beq]
  case float.float.float a b c =>
    exact unpackedFloat_beq_trans (b := b.toModel.unpack) hxy hyz

-- ============================================================ well-formed stores

/-- The container handles a value holds directly: its own, or those of its array elements, but
none behind an object. -/
def Value.containers : Value → List Handle
  | .list h | .set h | .map h => [h]
  | .array xs => containersAll xs
  | _ => []
where
  containersAll : List Value → List Handle
    | [] => []
    | x :: xs => containers x ++ containersAll xs

/-- The values a container cell holds: the elements of a list or a set, the entry values of a
map. -/
def Store.containerValues (s : Store) (h : Handle) : List Value :=
  s.items h ++ (s.entries h).map (·.2)

/-- Containers ranked by `rank`: a container holds containers of lower rank only. -/
def Store.Ranked (s : Store) (rank : Handle → Nat) : Prop :=
  ∀ h, ∀ x ∈ s.containerValues h, ∀ k ∈ x.containers, rank k < rank h

/-- A store the comparison and the debug text are made for. The slot names of an object are
distinct, as the keys of a hash map are, and the containers are ranked, so that every cycle of
the graph passes through an object. -/
structure Store.WellFormed (s : Store) : Prop where
  slots_nodup : ∀ h o, s.instance? h = some o → (o.slots.map (·.1)).Nodup
  ranked : ∃ rank, s.Ranked rank

namespace Store

variable (s : Store)

-- ============================================================ values related through objects

/-- Values that are equal when objects are compared by `R`: scalars by scalar equality, lists
and arrays position by position, sets by equal length and every element of the first related to
some element of the second (`pick` chooses it), maps the same way on entries whose keys are
equal. -/
inductive Lift (R : Handle → Handle → Prop) : Value → Value → Prop
  | scalar {x y : Scalar} : (x == y) = true → Lift R (.scalar x) (.scalar y)
  | object {h k : Handle} : R h k → Lift R (.object h) (.object k)
  | list {h k : Handle} : (s.items h).length = (s.items k).length →
      (∀ i (hi : i < (s.items h).length) (hk : i < (s.items k).length),
        Lift R (s.items h)[i] (s.items k)[i]) →
      Lift R (.list h) (.list k)
  | array {xs ys : List Value} : xs.length = ys.length →
      (∀ i (hx : i < xs.length) (hy : i < ys.length), Lift R xs[i] ys[i]) →
      Lift R (.array xs) (.array ys)
  | set {h k : Handle} (pick : Value → Value) : (s.items h).length = (s.items k).length →
      (∀ x ∈ s.items h, pick x ∈ s.items k) → (∀ x ∈ s.items h, Lift R x (pick x)) →
      Lift R (.set h) (.set k)
  | map {h k : Handle} (pick : Scalar × Value → Scalar × Value) :
      (s.entries h).length = (s.entries k).length →
      (∀ e ∈ s.entries h, pick e ∈ s.entries k ∧ (e.1 == (pick e).1) = true) →
      (∀ e ∈ s.entries h, Lift R e.2 (pick e).2) →
      Lift R (.map h) (.map k)

/-- Two handles one object level down, objects compared by `R` below it: one handle, or two
objects with equal type names whose slots have the same names and values related by `Lift R`. -/
def ObjectStep (R : Handle → Handle → Prop) (h k : Handle) : Prop :=
  h = k ∨ ∃ o p, s.instance? h = some o ∧ s.instance? k = some p ∧ o.type.name = p.type.name ∧
    ∀ name, Option.Rel (s.Lift R) (s.slot? h name) (s.slot? k name)

variable {s}

theorem Lift.mono {R R' : Handle → Handle → Prop} (hR : ∀ h k, R h k → R' h k) {a b : Value}
    (hab : s.Lift R a b) : s.Lift R' a b := by
  induction hab with
  | scalar hxy => exact .scalar hxy
  | object hhk => exact .object (hR _ _ hhk)
  | list hlen _ ih => exact .list hlen ih
  | array hlen _ ih => exact .array hlen ih
  | set pick hlen hpick _ ih => exact .set pick hlen hpick ih
  | map pick hlen hpick _ ih => exact .map pick hlen hpick ih

theorem optionRel_mono {α β : Type} {r r' : α → β → Prop} (hr : ∀ a b, r a b → r' a b)
    {x : Option α} {y : Option β} (hxy : Option.Rel r x y) : Option.Rel r' x y := by
  cases hxy with
  | some hab => exact .some (hr _ _ hab)
  | none => exact .none

theorem optionRel_trans {α β γ : Type} {r₁ : α → β → Prop} {r₂ : β → γ → Prop}
    {r₃ : α → γ → Prop} (hr : ∀ a b c, r₁ a b → r₂ b c → r₃ a c) {x : Option α} {y : Option β}
    {z : Option γ} (hxy : Option.Rel r₁ x y) (hyz : Option.Rel r₂ y z) : Option.Rel r₃ x z := by
  cases hxy with
  | some hab =>
    cases hyz with
    | some hbc => exact .some (hr _ _ _ hab hbc)
  | none =>
    cases hyz with
    | none => exact .none

theorem ObjectStep.mono {R R' : Handle → Handle → Prop} (hR : ∀ h k, R h k → R' h k)
    {h k : Handle} (hhk : s.ObjectStep R h k) : s.ObjectStep R' h k := by
  rcases hhk with rfl | ⟨o, p, ho, hp, hname, hslots⟩
  · exact .inl rfl
  · exact .inr ⟨o, p, ho, hp, hname, fun name => optionRel_mono (fun _ _ => Lift.mono hR)
      (hslots name)⟩

/-- Relations composed through `Lift` compose: a value related to a second one by `Lift R₁`,
which is related to a third by `Lift R₂`, is related to the third through objects related by
`R₁` then `R₂`. -/
theorem Lift.comp {R₁ R₂ : Handle → Handle → Prop} {a b c : Value} (hab : s.Lift R₁ a b)
    (hbc : s.Lift R₂ b c) : s.Lift (fun h l => ∃ k, R₁ h k ∧ R₂ k l) a c := by
  induction hab generalizing c with
  | scalar hxy =>
    cases hbc with
    | scalar hyz => exact .scalar (Scalar.beq_trans hxy hyz)
  | object hhk =>
    cases hbc with
    | object hkl => exact .object ⟨_, hhk, hkl⟩
  | list hlen _ ih =>
    cases hbc with
    | list hlen' hrel' =>
      exact .list (hlen.trans hlen') fun i hi hl =>
        ih i hi (by omega) (hrel' i (by omega) hl)
  | array hlen _ ih =>
    cases hbc with
    | array hlen' hrel' =>
      exact .array (hlen.trans hlen') fun i hi hl =>
        ih i hi (by omega) (hrel' i (by omega) hl)
  | set pick hlen hpick _ ih =>
    cases hbc with
    | set pick' hlen' hpick' hrel' =>
      exact .set (pick' ∘ pick) (hlen.trans hlen') (fun x hx => hpick' _ (hpick x hx))
        fun x hx => ih x hx (hrel' _ (hpick x hx))
  | map pick hlen hpick _ ih =>
    cases hbc with
    | map pick' hlen' hpick' hrel' =>
      refine .map (pick' ∘ pick) (hlen.trans hlen') (fun e he => ?_)
        fun e he => ih e he (hrel' _ (hpick e he).1)
      obtain ⟨hmem, hkey⟩ := hpick e he
      obtain ⟨hmem', hkey'⟩ := hpick' _ hmem
      exact ⟨hmem', Scalar.beq_trans hkey hkey'⟩

-- ============================================================ bisimilarity

variable (s) in
/-- The object step as a monotone map on relations between handles. -/
def objectStepHom : (Handle → Handle → Prop) →o (Handle → Handle → Prop) :=
  ⟨s.ObjectStep, fun _ _ hR _ _ => ObjectStep.mono hR⟩

variable (s) in
/-- Bisimilar objects: the greatest relation between handles that the object step keeps. -/
def Bisim : Handle → Handle → Prop := OrderHom.gfp s.objectStepHom

theorem bisim_iff {h k : Handle} : s.Bisim h k ↔ s.ObjectStep s.Bisim h k :=
  Iff.of_eq (congrFun (congrFun (OrderHom.map_gfp s.objectStepHom) h) k).symm

/-- Coinduction: a relation that the object step keeps relates only bisimilar objects. -/
theorem bisim_of_step {R : Handle → Handle → Prop} (hR : ∀ h k, R h k → s.ObjectStep R h k)
    {h k : Handle} (hhk : R h k) : s.Bisim h k :=
  OrderHom.le_gfp s.objectStepHom hR h k hhk

theorem bisim_refl (h : Handle) : s.Bisim h h :=
  bisim_of_step (R := fun x y => x = y) (fun _ _ hxy => .inl hxy) rfl

theorem bisim_trans {h k l : Handle} (hhk : s.Bisim h k) (hkl : s.Bisim k l) : s.Bisim h l := by
  -- the composite relation is kept by the step
  refine bisim_of_step (R := fun x z => ∃ y, s.Bisim x y ∧ s.Bisim y z) ?_ ⟨k, hhk, hkl⟩
  rintro x z ⟨y, hxy, hyz⟩
  have left : ∀ a b, s.Bisim a b → ∃ c, s.Bisim a c ∧ s.Bisim c b :=
    fun a b hab => ⟨b, hab, bisim_refl b⟩
  rcases bisim_iff.1 hxy with rfl | ⟨o, p, ho, hp, hname, hslots⟩
  · exact (bisim_iff.1 hyz).mono left
  rcases bisim_iff.1 hyz with rfl | ⟨p', q, hp', hq, hname', hslots'⟩
  · exact (bisim_iff.1 hxy).mono left
  obtain rfl : p = p' := Option.some.inj (hp.symm.trans hp')
  exact .inr ⟨o, q, ho, hq, hname.trans hname', fun name =>
    optionRel_trans (fun _ _ _ => Lift.comp) (hslots name) (hslots' name)⟩

-- ============================================================ the pairs under comparison

variable (s) in
/-- The object step with the pairs of `H` taken as related as they stand. -/
def stepUnder (H : Handle → Handle → Prop) :
    (Handle → Handle → Prop) →o (Handle → Handle → Prop) :=
  ⟨fun R h k => s.ObjectStep R h k ∨ H h k, fun _ _ hR _ _ => Or.imp_left (ObjectStep.mono hR)⟩

variable (s) in
/-- Objects bisimilar when the pairs of `H` are taken as related. -/
def BisimUnder (H : Handle → Handle → Prop) : Handle → Handle → Prop :=
  OrderHom.gfp (s.stepUnder H)

theorem bisimUnder_iff {H : Handle → Handle → Prop} {h k : Handle} :
    s.BisimUnder H h k ↔ s.ObjectStep (s.BisimUnder H) h k ∨ H h k :=
  Iff.of_eq (congrFun (congrFun (OrderHom.map_gfp (s.stepUnder H)) h) k).symm

theorem bisimUnder_self (H : Handle → Handle → Prop) (h : Handle) : s.BisimUnder H h h :=
  bisimUnder_iff.2 (.inl (.inl rfl))

/-- Up to the pairs under comparison: a pair whose objects are related one level down, once the
pair itself is taken as related too, is related. -/
theorem bisimUnder_of_step {H : Handle → Handle → Prop} {h k : Handle}
    (hstep : s.ObjectStep (s.BisimUnder fun x y => (x = h ∧ y = k) ∨ H x y) h k) :
    s.BisimUnder H h k := by
  -- the relation with the pair added is kept by the step under `H` alone: the pair is related
  -- one level down
  have hkept : ∀ x y, s.BisimUnder (fun x y => (x = h ∧ y = k) ∨ H x y) x y →
      s.stepUnder H (s.BisimUnder fun x y => (x = h ∧ y = k) ∨ H x y) x y := by
    intro x y hxy
    rcases bisimUnder_iff.1 hxy with hs | ⟨rfl, rfl⟩ | hH
    · exact .inl hs
    · exact .inl hstep
    · exact .inr hH
  exact OrderHom.le_gfp (s.stepUnder H) hkept h k (bisimUnder_iff.2 (.inr (.inl ⟨rfl, rfl⟩)))

/-- With no pair taken as related, the relation is bisimilarity. -/
theorem bisim_of_bisimUnder {h k : Handle} (hhk : s.BisimUnder (fun _ _ => False) h k) :
    s.Bisim h k :=
  bisim_of_step (fun _ _ hxy => (bisimUnder_iff.1 hxy).resolve_right id) hhk

-- ============================================================ comparisons that answer true

theorem pointwise_eq_true_iff {r : Value → Value → Bool} : ∀ {xs ys : List Value},
    equalWith.pointwise r xs ys = true ↔
      xs.length = ys.length ∧ ∀ i (hx : i < xs.length) (hy : i < ys.length), r xs[i] ys[i] = true
  | [], [] => by simp [equalWith.pointwise]
  | [], _ :: _ => by simp [equalWith.pointwise]
  | _ :: _, [] => by simp [equalWith.pointwise]
  | x :: xs, y :: ys => by
    simp only [equalWith.pointwise, Bool.and_eq_true, pointwise_eq_true_iff, List.length_cons,
      Nat.add_right_cancel_iff]
    constructor
    · rintro ⟨hxy, hlen, hrest⟩
      refine ⟨hlen, fun i hx hy => ?_⟩
      cases i with
      | zero => exact hxy
      | succ i => exact hrest i (by simpa using hx) (by simpa using hy)
    · rintro ⟨hlen, hall⟩
      exact ⟨hall 0 (by simp) (by simp), hlen,
        fun i hx hy => hall (i + 1) (by simpa using hx) (by simpa using hy)⟩

theorem slot?_of_instance {h : Handle} {o : Instance} (ho : s.instance? h = some o)
    (name : String) : s.slot? h name = (o.slots.find? (·.1 == name)).map (·.2) := by
  simp [slot?, ho]

/-- With distinct slot names, a slot is found by its name. -/
theorem find?_slot_of_mem {slots : List (String × Value)} (hnd : (slots.map (·.1)).Nodup)
    {name : String} {v : Value} (hmem : (name, v) ∈ slots) :
    slots.find? (·.1 == name) = some (name, v) := by
  induction slots with
  | nil => simp at hmem
  | cons q rest ih =>
    obtain ⟨hq, hrest⟩ := List.nodup_cons.1 hnd
    rcases List.mem_cons.1 hmem with rfl | hmem
    · simp
    · have hne : q.1 ≠ name := by
        rintro rfl
        exact hq (List.mem_map_of_mem (f := (·.1)) hmem)
      simp [hne, ih hrest hmem]

theorem find?_slot_eq_none {slots : List (String × Value)} {name : String}
    (hname : name ∉ slots.map (·.1)) : slots.find? (·.1 == name) = none :=
  List.find?_eq_none.2 fun q hq hqn => hname (List.mem_map.2 ⟨q, hq, by simpa using hqn⟩)

/-- The object level of soundness: two objects whose slots compare true, the pair itself among
the pairs under comparison, are related with the pairs under comparison taken as related. -/
theorem bisimUnder_of_equalWith_object (hs : s.WellFormed) {n : Nat}
    {seen : List (Handle × Handle)} {h k : Handle}
    (ih : ∀ {v w : Value}, s.equalWith n ((h, k) :: seen) v w = true →
      s.Lift (s.BisimUnder fun x y => (x, y) ∈ (h, k) :: seen) v w)
    (hhk : s.equalWith (n + 1) seen (.object h) (.object k) = true) :
    s.BisimUnder (fun x y => (x, y) ∈ seen) h k := by
  simp only [equalWith, Bool.or_eq_true, beq_iff_eq, List.contains_iff_mem] at hhk
  rcases hhk with (rfl | hseen) | hslots
  · exact bisimUnder_self _ h
  · exact bisimUnder_iff.2 (.inr hseen)
  cases ho : s.instance? h with
  | none => simp [ho] at hslots
  | some o =>
  cases hp : s.instance? k with
  | none => simp [ho, hp] at hslots
  | some p =>
  simp only [ho, hp, Bool.and_eq_true, beq_iff_eq, List.all_eq_true] at hslots
  obtain ⟨⟨hname, hlen⟩, hall⟩ := hslots
  -- every slot of the first object has a slot of that name in the second, comparing true
  have hpartner : ∀ name v, (name, v) ∈ o.slots → ∃ w,
      (p.slots.find? (·.1 == name)).map (·.2) = some w ∧
        s.equalWith n ((h, k) :: seen) v w = true := by
    intro name v hmem
    have hslot := hall (name, v) hmem
    cases hf : p.slots.find? (·.1 == name) with
    | none => simp [hf] at hslot
    | some q => exact ⟨q.2, rfl, by simpa [hf] using hslot⟩
  -- so the two objects have the same slot names
  have hnames : ∀ name, name ∈ o.slots.map (·.1) ↔ name ∈ p.slots.map (·.1) := by
    have hsub : o.slots.map (·.1) ⊆ p.slots.map (·.1) := by
      intro name hname
      obtain ⟨⟨name', v⟩, hmem, rfl⟩ := List.mem_map.1 hname
      obtain ⟨w, hw, -⟩ := hpartner name' v hmem
      obtain ⟨q, hq, -⟩ := Option.map_eq_some_iff.1 hw
      exact List.mem_map.2 ⟨q, List.mem_of_find?_eq_some hq, by simpa using List.find?_some hq⟩
    have hperm := ((hs.slots_nodup h o ho).subperm hsub).perm_of_length_le (by simp [hlen])
    exact fun name => hperm.mem_iff
  have hpair : (fun x y => (x, y) ∈ (h, k) :: seen) = fun x y => (x = h ∧ y = k) ∨ (x, y) ∈ seen := by
    funext x y
    simp
  refine bisimUnder_of_step (.inr ⟨o, p, ho, hp, hname, fun name => ?_⟩)
  rw [slot?_of_instance ho, slot?_of_instance hp, ← hpair]
  by_cases hn : name ∈ o.slots.map (·.1)
  · obtain ⟨⟨name', v⟩, hmem, rfl⟩ := List.mem_map.1 hn
    obtain ⟨w, hw, hvw⟩ := hpartner name' v hmem
    rw [find?_slot_of_mem (hs.slots_nodup h o ho) hmem, hw]
    exact .some (ih hvw)
  · rw [find?_slot_eq_none hn, find?_slot_eq_none (mt (hnames name).2 hn)]
    exact .none

/-- A comparison that answers true, with any fuel, relates its values, the pairs under
comparison taken as related. -/
theorem lift_of_equalWith (hs : s.WellFormed) :
    ∀ {n : Nat} {seen : List (Handle × Handle)} {a b : Value}, s.equalWith n seen a b = true →
      s.Lift (s.BisimUnder fun x y => (x, y) ∈ seen) a b
  | 0, _, _, _, hab => by simp [equalWith] at hab
  | n + 1, seen, a, b, hab => by
    cases a <;> cases b
    case scalar.scalar x y => exact .scalar hab
    case object.object h k =>
      exact .object (bisimUnder_of_equalWith_object hs (lift_of_equalWith hs) hab)
    case list.list h k =>
      simp only [equalWith] at hab
      obtain ⟨hlen, hall⟩ := pointwise_eq_true_iff.1 hab
      exact .list hlen fun i hx hy => lift_of_equalWith hs (hall i hx hy)
    case array.array xs ys =>
      simp only [equalWith] at hab
      obtain ⟨hlen, hall⟩ := pointwise_eq_true_iff.1 hab
      exact .array hlen fun i hx hy => lift_of_equalWith hs (hall i hx hy)
    case set.set h k =>
      simp only [equalWith, Bool.and_eq_true, beq_iff_eq, List.all_eq_true,
        List.any_eq_true] at hab
      obtain ⟨hlen, hall⟩ := hab
      choose! pick hpick hrel using hall
      exact .set pick hlen hpick fun x hx => lift_of_equalWith hs (hrel x hx)
    case map.map h k =>
      simp only [equalWith, Bool.and_eq_true, beq_iff_eq, List.all_eq_true,
        List.any_eq_true] at hab
      obtain ⟨hlen, hall⟩ := hab
      choose! pick hpick hrel using hall
      exact .map pick hlen (fun e he => ⟨hpick e he, (hrel e he).1⟩)
        fun e he => lift_of_equalWith hs (hrel e he).2
    -- values of different shapes never compare true
    all_goals simp [equalWith] at hab

/-- From the top, with no pair under comparison, a comparison that answers true relates
bisimilar values. -/
theorem lift_bisim_of_equalWith (hs : s.WellFormed) {n : Nat} {a b : Value}
    (hab : s.equalWith n [] a b = true) : s.Lift s.Bisim a b :=
  (lift_of_equalWith hs hab).mono fun _ _ hhk => bisim_of_bisimUnder (by simpa using hhk)

end Store

end GraphViews

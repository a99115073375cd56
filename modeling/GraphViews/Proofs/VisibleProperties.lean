import Mathlib
import GraphViews.Proofs.Effects
import GraphViews.Template.Builder
/-!
# Visible properties and property lookup

A type sees the properties declared along its chain of supertypes, and two functions answer
for them. `ModelType.property?` looks a name up from the most specific type upwards and takes
the first declaration it meets there; `ModelType.properties` walks from the root supertype down
and lets each declaration take the place of an earlier one of the same name. Accessors take
their declaration from the first, new objects their slots from the second.

The main statement, `visible_properties_shadow`, says what the visible list is:

* its names are the names declared along the chain, root supertype first, each kept once, at
  its first declaration (`names_properties`, `nodup_names_properties`);
* under a name it holds the last declaration of that name in the most specific type that
  declares it (`find?_properties`), which is what `property?` finds whenever no type of the
  chain declares the name twice (`find?_properties_of_unique`);
* a new object has one slot per visible field, in the order of the list, each holding the value
  its declaration starts with: null, an empty array, or a fresh empty container cell
  (`newObject_slots`); a computed property has none (`computed_has_no_slot`).

So the field a value node binds, a scalar or an untyped one, holds null on a new object, and
writing null into it changes nothing (`Store.slotHolds_newObject`, `Store.setField_of_slotHolds`).

A type that declares one name twice parts the two lookups: `property?` finds the first
declaration and `properties` lists the last (`twice_declared_lookups_differ`).

# How the proofs go

Each statement is an induction over the declarations folded so far, resting on one step lemma
for `shadow`: it keeps the names of a visible list in place and appends a new one
(`names_shadow`), and it makes the declaration the one found under its name (`find?_shadow`).
-/

namespace GraphViews

/-- Keeping first occurrences leaves each element once. -/
theorem nodup_eraseDups {α : Type} [BEq α] [LawfulBEq α] : (l : List α) → l.eraseDups.Nodup
  | [] => List.nodup_nil
  | a :: as => by
    rw [List.eraseDups_cons]
    have : (as.filter fun b => !b == a).length < as.length + 1 :=
      Nat.lt_add_one_of_le (List.length_filter_le _ as)
    exact List.nodup_cons.2 ⟨by simp, nodup_eraseDups _⟩
termination_by l => l.length

/-- A search from the back finds what a search from the front finds when at most one element
qualifies. -/
theorem find?_reverse_of_filter {α : Type} {p : α → Bool} {l : List α}
    (h : (l.filter p).length ≤ 1) : l.reverse.find? p = l.find? p := by
  have hrev : (l.filter p).reverse = l.filter p := by
    match hf : l.filter p, h with
    | [], _ => rfl
    | [_], _ => rfl
  rw [← List.head?_filter, List.filter_reverse, hrev, List.head?_filter]

namespace ModelType

/-- The names declared along the chain of a type, root supertype first, each type's in the
order it declares them. -/
def declaredNames (t : ModelType) : List String :=
  t.chain.reverse.flatMap fun ty => ty.props.map (·.name)

-- ============================================================ one declaration

/-- Replacing the declarations of one name keeps every name. -/
@[simp] theorem name_replace (d p : PropertyDecl) :
    (if p.name == d.name then d else p).name = p.name := by
  split
  · rename_i h
    exact (beq_iff_eq.mp h).symm
  · rfl

/-- A declaration keeps the names of a visible list in place, and appends its own when it is
new. -/
theorem names_shadow (out : List PropertyDecl) (d : PropertyDecl) :
    (shadow out d).map (·.name) =
      if d.name ∈ out.map (·.name) then out.map (·.name) else out.map (·.name) ++ [d.name] := by
  have hany : out.any (·.name == d.name) = decide (d.name ∈ out.map (·.name)) := by
    rw [Bool.eq_iff_iff, List.any_eq_true, decide_eq_true_iff, List.mem_map]
    simp only [beq_iff_eq]
  unfold shadow
  rw [hany]
  by_cases h : d.name ∈ out.map (·.name)
  · simp only [h, decide_true, if_true, List.map_map]
    exact List.map_congr_left fun p _ => name_replace d p
  · simp [h]

/-- After a declaration, the one found under its name is the declaration; other names find
what they found before. -/
theorem find?_shadow (out : List PropertyDecl) (d : PropertyDecl) (x : String) :
    (shadow out d).find? (·.name == x) =
      if d.name = x then some d else out.find? (·.name == x) := by
  unfold shadow
  split
  · -- the name is there: every declaration of it is replaced in place
    rename_i hany
    rw [List.find?_map]
    have hp : ((·.name == x) ∘ fun p : PropertyDecl => if p.name == d.name then d else p) =
        (·.name == x) := by
      funext p
      simp only [Function.comp, name_replace]
    rw [hp]
    split
    · rename_i hx
      subst hx
      obtain ⟨p, hp, hpn⟩ := List.any_eq_true.mp hany
      cases hf : out.find? (·.name == d.name) with
      | none => exact absurd hpn (List.find?_eq_none.mp hf p hp)
      | some q =>
        have hqd := List.find?_some hf
        have hq : q.name = d.name := beq_iff_eq.mp hqd
        simp [hq]
    · rename_i hx
      cases hf : out.find? (·.name == x) with
      | none => rfl
      | some q =>
        have hqx := List.find?_some hf
        have hq : q.name = x := beq_iff_eq.mp hqx
        have hne : q.name ≠ d.name := hq ▸ Ne.symm hx
        simp [hne]
  · -- the name is new: the declaration is appended
    rename_i hany
    rw [List.find?_append]
    split
    · rename_i hx
      subst hx
      have hnone : out.find? (·.name == d.name) = none := by
        rw [List.find?_eq_none]
        intro p hp hpn
        exact hany (List.any_eq_true.mpr ⟨p, hp, hpn⟩)
      simp [hnone]
    · rename_i hx
      have hd : ([d].find? (·.name == x)) = none := by simp [hx]
      rw [hd, Option.or_none]

-- ============================================================ the declarations of a chain

/-- Folding declarations in keeps the first occurrence of every name seen. -/
theorem names_foldl_shadow (ds : List PropertyDecl) {out : List PropertyDecl} {L : List String}
    (h : out.map (·.name) = L.eraseDups) :
    (ds.foldl shadow out).map (·.name) = (L ++ ds.map (·.name)).eraseDups := by
  induction ds generalizing out L with
  | nil => simpa using h
  | cons d ds ih =>
    rw [List.foldl_cons, List.map_cons, ← List.singleton_append, ← List.append_assoc]
    apply ih
    rw [names_shadow, h, List.eraseDups_append]
    simp only [List.mem_eraseDups]
    by_cases hd : d.name ∈ L
    · simp [hd, List.removeAll]
    · simp [hd, List.removeAll, List.eraseDups_cons]

/-- Folding declarations in: under a name, the last declaration of it, else what was there. -/
theorem find?_foldl_shadow (ds out : List PropertyDecl) (x : String) :
    (ds.foldl shadow out).find? (·.name == x) =
      (ds.reverse.find? (·.name == x)).or (out.find? (·.name == x)) := by
  induction ds generalizing out with
  | nil => simp
  | cons d ds ih =>
    rw [List.foldl_cons, ih, find?_shadow, List.reverse_cons, List.find?_append, Option.or_assoc]
    by_cases hx : d.name = x
    · simp [hx]
    · simp [hx]

/-- The step of `properties`: one type's declarations folded into the visible list. -/
theorem properties_eq (t : ModelType) :
    t.properties = t.chain.reverse.foldl (fun out ty => ty.props.foldl shadow out) [] := rfl

/-- The names of the visible list are those declared along the chain, each at its first
declaration. -/
theorem names_properties (t : ModelType) :
    t.properties.map (·.name) = t.declaredNames.eraseDups := by
  have key : ∀ (tys : List ModelType) (out : List PropertyDecl) (L : List String),
      out.map (·.name) = L.eraseDups →
      (tys.foldl (fun out ty => ty.props.foldl shadow out) out).map (·.name) =
        (L ++ tys.flatMap fun ty => ty.props.map (·.name)).eraseDups := by
    intro tys
    induction tys with
    | nil => intro out L h; simpa using h
    | cons ty tys ih =>
      intro out L h
      rw [List.foldl_cons, List.flatMap_cons, ← List.append_assoc]
      exact ih _ _ (names_foldl_shadow ty.props h)
  have h := key t.chain.reverse [] [] rfl
  rw [List.nil_append] at h
  exact h

/-- Each visible name is listed once. -/
theorem nodup_names_properties (t : ModelType) : (t.properties.map (·.name)).Nodup := by
  rw [names_properties]
  exact nodup_eraseDups _

/-- Under a name, the visible list holds the last declaration of it in the most specific type
of the chain that declares it. -/
theorem find?_properties (t : ModelType) (x : String) :
    t.properties.find? (·.name == x) =
      t.chain.findSome? fun ty => ty.props.reverse.find? (·.name == x) := by
  have key : ∀ (tys : List ModelType) (out : List PropertyDecl),
      (tys.foldl (fun out ty => ty.props.foldl shadow out) out).find? (·.name == x) =
        (tys.reverse.findSome? fun ty => ty.props.reverse.find? (·.name == x)).or
          (out.find? (·.name == x)) := by
    intro tys
    induction tys with
    | nil => intro out; simp
    | cons ty tys ih =>
      intro out
      rw [List.foldl_cons, ih, find?_foldl_shadow, List.reverse_cons, List.findSome?_append,
        Option.or_assoc]
      simp
  have h := key t.chain.reverse []
  rw [List.reverse_reverse, List.find?_nil, Option.or_none] at h
  exact h

/-- When no type of the chain declares a name twice, the visible list holds under it the
declaration `property?` finds. -/
theorem find?_properties_of_unique (t : ModelType) (x : String)
    (hx : ∀ ty ∈ t.chain, (ty.props.filter (·.name == x)).length ≤ 1) :
    t.properties.find? (·.name == x) = t.property? x := by
  rw [find?_properties, property?]
  -- the two searches agree type by type along the chain
  generalize t.chain = tys at hx ⊢
  induction tys with
  | nil => rfl
  | cons ty tys ih =>
    simp only [List.findSome?_cons]
    rw [find?_reverse_of_filter (hx ty List.mem_cons_self)]
    split
    · rfl
    · exact ih fun ty' h => hx ty' (List.mem_cons_of_mem _ h)

end ModelType

-- ============================================================ the slots of a new object

namespace Store

/-- `v` is what a new field of shape `dt` starts with in `s`: an empty list, set or map cell
made at or after the handle `fresh`, an empty array, or null. -/
def StartsEmpty (s : Store) (fresh : Nat) : DataType → Value → Prop
  | .list, v => ∃ h, fresh ≤ h ∧ v = .list h ∧ s.cell? h = some (.list [])
  | .set, v => ∃ h, fresh ≤ h ∧ v = .set h ∧ s.cell? h = some (.set [])
  | .map _, v => ∃ h, fresh ≤ h ∧ v = .map h ∧ s.cell? h = some (.map [])
  | .array, v => v = .array []
  | .scalar _, v | .object, v | .any, v => v = .null

namespace StartsEmpty

variable {s s' : Store} {fresh : Nat} {dt : DataType} {v : Value}

/-- A store that grows keeps the empty cells it had. -/
theorem grows (hg : Grows s s') (h : s.StartsEmpty fresh dt v) : s'.StartsEmpty fresh dt v := by
  have keep : ∀ {k : Handle} {c : Cell}, s.cell? k = some c → s'.cell? k = some c :=
    fun hc => (hg.old _ (lt_size_of_cell? hc)).trans hc
  cases dt with
  | list => obtain ⟨k, hk, rfl, hc⟩ := h; exact ⟨k, hk, rfl, keep hc⟩
  | set => obtain ⟨k, hk, rfl, hc⟩ := h; exact ⟨k, hk, rfl, keep hc⟩
  | map _ => obtain ⟨k, hk, rfl, hc⟩ := h; exact ⟨k, hk, rfl, keep hc⟩
  | array | scalar _ | object | any => exact h

theorem mono {fresh' : Nat} (hf : fresh' ≤ fresh) (h : s.StartsEmpty fresh dt v) :
    s.StartsEmpty fresh' dt v := by
  cases dt with
  | list => obtain ⟨k, hk, hv, hc⟩ := h; exact ⟨k, hf.trans hk, hv, hc⟩
  | set => obtain ⟨k, hk, hv, hc⟩ := h; exact ⟨k, hf.trans hk, hv, hc⟩
  | map _ => obtain ⟨k, hk, hv, hc⟩ := h; exact ⟨k, hf.trans hk, hv, hc⟩
  | array | scalar _ | object | any => exact h

end StartsEmpty

/-- The empty value of a shape is a new cell past the store's end, or no cell. -/
theorem startsEmpty_emptyOf (s : Store) (dt : DataType) :
    (s.emptyOf dt).1.StartsEmpty s.size dt (s.emptyOf dt).2 := by
  cases dt with
  | list => exact ⟨s.size, le_rfl, rfl, by rw [emptyOf, cell?_alloc, if_pos rfl]⟩
  | set => exact ⟨s.size, le_rfl, rfl, by rw [emptyOf, cell?_alloc, if_pos rfl]⟩
  | map _ => exact ⟨s.size, le_rfl, rfl, by rw [emptyOf, cell?_alloc, if_pos rfl]⟩
  | array | scalar _ | object | any => rfl

/-- The slots made for declarations `ds`, in order, one per field, each named for its
declaration and holding its empty value. -/
def SlotsFor (s : Store) (fresh : Nat) (ds : List PropertyDecl) (slots : List (String × Value)) :
    Prop :=
  List.Forall₂ (fun d p => p.1 = d.name ∧ s.StartsEmpty fresh d.dataType p.2)
    (ds.filter (·.isField)) slots

/-- Making the slots of declarations appends one slot per field, each holding a fresh empty
value. -/
theorem foldl_newSlot (ds : List PropertyDecl) (acc : Store × List (String × Value)) :
    ∃ new, (ds.foldl newSlot acc).2 = acc.2 ++ new ∧
      SlotsFor (ds.foldl newSlot acc).1 acc.1.size ds new := by
  induction ds generalizing acc with
  | nil => exact ⟨[], by simp, List.Forall₂.nil⟩
  | cons d ds ih =>
    rw [List.foldl_cons]
    obtain ⟨new, hnew, hslots⟩ := ih (newSlot acc d)
    have hgrow := grows_foldl_newSlot ds (newSlot acc d) (Grows.refl _)
    unfold newSlot at hnew hslots hgrow ⊢
    by_cases hd : d.isField
    · -- a field: its slot comes first, the rest were made after it
      simp only [hd, if_true] at hnew hslots hgrow ⊢
      refine ⟨(d.name, (acc.1.emptyOf d.dataType).2) :: new, by simp [hnew], ?_⟩
      simp only [SlotsFor, List.filter_cons, hd, if_true]
      refine List.Forall₂.cons ⟨rfl, (startsEmpty_emptyOf acc.1 d.dataType).grows hgrow⟩ ?_
      have hsize : acc.1.size ≤ (acc.1.emptyOf d.dataType).1.size :=
        ((Grows.refl acc.1).emptyOf d.dataType).size_le
      exact hslots.imp fun _ _ hp => ⟨hp.1, hp.2.mono hsize⟩
    · -- a computed property: no slot
      simp only [hd, Bool.false_eq_true, if_false] at hnew hslots ⊢
      refine ⟨new, hnew, ?_⟩
      simpa [SlotsFor, List.filter_cons, hd] using hslots

/-- A new object has one slot per visible field, in the order of the visible list, each
holding the empty value of its declaration, its container a cell made for it. -/
theorem newObject_slots (s : Store) (t : ModelType) :
    ∃ slots, (s.newObject t).1.instance? (s.newObject t).2 = some ⟨t, slots⟩ ∧
      SlotsFor (s.newObject t).1 s.size t.properties slots := by
  obtain ⟨slots, hslots, hfor⟩ := foldl_newSlot t.properties (s, [])
  refine ⟨slots, ?_, ?_⟩
  · rw [newObject_eq, handle_alloc, instance?, cell?_alloc, if_pos rfl]
    simp [hslots]
  · rw [newObject_eq]
    exact hfor.imp fun _ _ hp => ⟨hp.1, hp.2.grows ((Grows.refl _).alloc _)⟩

/-- Slots are named by the fields they are made for, in order. -/
theorem names_of_slotsFor {s : Store} {fresh : Nat} {ds : List PropertyDecl}
    {slots : List (String × Value)} (h : SlotsFor s fresh ds slots) :
    slots.map (·.1) = (ds.filter (·.isField)).map (·.name) := by
  unfold SlotsFor at h
  generalize ds.filter (·.isField) = fs at h ⊢
  induction h with
  | nil => rfl
  | cons hp _ ih => simp [hp.1, ih]

/-- The slots made for the visible list are named by its fields only: a computed property
has none. -/
theorem computed_has_no_slot {s : Store} {fresh : Nat} {t : ModelType}
    {slots : List (String × Value)} (h : SlotsFor s fresh t.properties slots)
    {d : PropertyDecl} (hd : d ∈ t.properties) (hc : d.isField = false) :
    d.name ∉ slots.map (·.1) := by
  rw [names_of_slotsFor h]
  intro hmem
  obtain ⟨d', hd', hname⟩ := List.mem_map.1 hmem
  have hfield : d'.isField = true := (List.mem_filter.1 hd').2
  -- two visible declarations of one name are one
  have heq : d' = d := List.inj_on_of_nodup_map (ModelType.nodup_names_properties t)
    (List.mem_filter.1 hd').1 hd hname
  rw [heq, hc] at hfield
  cases hfield

variable {s : Store} {fresh : Nat} {ds : List PropertyDecl} {slots : List (String × Value)}

/-- Every slot made for declarations is made for one of their fields. -/
theorem SlotsFor.decl_of_mem (hs : SlotsFor s fresh ds slots) {p : String × Value}
    (hp : p ∈ slots) :
    ∃ d ∈ ds, d.isField = true ∧ p.1 = d.name ∧ s.StartsEmpty fresh d.dataType p.2 := by
  obtain ⟨i, hi, rfl⟩ := List.mem_iff_getElem.1 hp
  have hlen : i < (ds.filter (·.isField)).length := hs.length_eq ▸ hi
  obtain ⟨hd, hfield⟩ := List.mem_filter.1 (List.getElem_mem hlen)
  have hrel := hs.get hlen hi
  simp only [List.get_eq_getElem] at hrel
  exact ⟨_, hd, by simpa using hfield, hrel⟩

/-- Every field of the declarations has a slot. -/
theorem SlotsFor.slot_of_mem (hs : SlotsFor s fresh ds slots) {d : PropertyDecl} (hd : d ∈ ds)
    (hf : d.isField = true) : ∃ p ∈ slots, p.1 = d.name := by
  obtain ⟨i, hi, hget⟩ := List.mem_iff_getElem.1 (List.mem_filter.2 ⟨hd, hf⟩)
  have hlen : i < slots.length := hs.length_eq ▸ hi
  have hrel := hs.get hi hlen
  simp only [List.get_eq_getElem, hget] at hrel
  exact ⟨_, List.getElem_mem hlen, hrel.1⟩

/-- On a new object, a visible field of a shape that a value node binds, a scalar or an untyped
field, holds null and nothing else. -/
theorem slotHolds_newObject (st : Store) {t : ModelType} {d : PropertyDecl}
    (hd : d ∈ t.properties) (hf : d.isField = true)
    (hv : (Draft.named .value d.name).fits d.dataType = true) :
    (st.newObject t).1.SlotHolds (st.newObject t).2 d.name .null := by
  obtain ⟨slots, hinst, hfor⟩ := newObject_slots st t
  refine ⟨⟨t, slots⟩, hinst, hfor.slot_of_mem hd hf, fun p hp hpx => ?_⟩
  obtain ⟨d', hd', -, hname, hempty⟩ := hfor.decl_of_mem hp
  -- two visible declarations of one name are one
  have heq : d' = d :=
    List.inj_on_of_nodup_map (ModelType.nodup_names_properties t) hd' hd (hname.symm.trans hpx)
  subst heq
  cases hdt : d'.dataType <;> simp_all [Draft.fits, Draft.named, Draft.kind, StartsEmpty]

end Store

-- ============================================================ the visible list

namespace ModelType

/-- What a type's visible list is: the names declared along its chain, root supertype first,
each once, at its first declaration; under a name, the last declaration of it in the most
specific type that declares it, which is the declaration `property?` finds when no type of the
chain declares the name twice; and the slots of a new object, one per visible field in the
list's order, each holding its declaration's empty value, and none for a computed property. -/
theorem visible_properties_shadow (t : ModelType) (x : String) (s : Store)
    (hx : ∀ ty ∈ t.chain, (ty.props.filter (·.name == x)).length ≤ 1) :
    t.properties.map (·.name) = t.declaredNames.eraseDups ∧
    (t.properties.map (·.name)).Nodup ∧
    t.properties.find? (·.name == x) =
      t.chain.findSome? (fun ty => ty.props.reverse.find? (·.name == x)) ∧
    t.properties.find? (·.name == x) = t.property? x ∧
    ∃ slots, (s.newObject t).1.instance? (s.newObject t).2 = some ⟨t, slots⟩ ∧
      Store.SlotsFor (s.newObject t).1 s.size t.properties slots ∧
      ∀ d ∈ t.properties, d.isField = false → d.name ∉ slots.map (·.1) := by
  obtain ⟨slots, hinst, hslots⟩ := Store.newObject_slots s t
  exact ⟨names_properties t, nodup_names_properties t, find?_properties t x,
    find?_properties_of_unique t x hx, slots, hinst, hslots,
    fun d hd hc => Store.computed_has_no_slot hslots hd hc⟩

end ModelType

namespace Sample

/-- Animals have a name and a number of legs. -/
def animalType : ModelType :=
  { name := "Animal", props := [.field "name" (.scalar .string), .field "legs" (.scalar .int)] }

/-- Dogs read their name from a call name, and add a breed and a list of tags. -/
def dogType : ModelType :=
  { name := "Dog", supertype := some animalType,
    props := [.computed "name" (.scalar .string) (some (.field "callName")) none,
      .field "breed" (.scalar .string), .field "tags" .list] }

end Sample

theorem dog_properties_shadow :
    (∀ ty ∈ Sample.dogType.chain, (ty.props.filter (·.name == "name")).length ≤ 1) ∧
    (Sample.dogType.properties.map (·.name) = Sample.dogType.declaredNames.eraseDups ∧
    (Sample.dogType.properties.map (·.name)).Nodup ∧
    Sample.dogType.properties.find? (·.name == "name") =
      Sample.dogType.chain.findSome? (fun ty => ty.props.reverse.find? (·.name == "name")) ∧
    Sample.dogType.properties.find? (·.name == "name") = Sample.dogType.property? "name" ∧
    ∃ slots, (Store.newObject {} Sample.dogType).1.instance? (Store.newObject {} Sample.dogType).2 =
        some ⟨Sample.dogType, slots⟩ ∧
      Store.SlotsFor (Store.newObject {} Sample.dogType).1 ({} : Store).size Sample.dogType.properties slots ∧
      ∀ d ∈ Sample.dogType.properties, d.isField = false → d.name ∉ slots.map (·.1)) :=
  have hx : ∀ ty ∈ Sample.dogType.chain, (ty.props.filter (·.name == "name")).length ≤ 1 := by
    decide
  ⟨hx, ModelType.visible_properties_shadow Sample.dogType "name" {} hx⟩

-- ============================================================ a name declared twice

/-- A type that declares `x` twice, first as an integer, then as a text. -/
def Sample.twiceDeclared : ModelType :=
  { name := "T", props := [.field "x" (.scalar .int), .field "x" (.scalar .string)] }

/-- A type that declares a name twice: `property?` finds the first declaration, the visible list
holds the last. -/
theorem twice_declared_lookups_differ :
    Sample.twiceDeclared.property? "x" = some (.field "x" (.scalar .int)) ∧
    Sample.twiceDeclared.properties = [.field "x" (.scalar .string)] ∧
    Sample.twiceDeclared.properties.find? (·.name == "x") ≠ Sample.twiceDeclared.property? "x" := by
  decide

end GraphViews

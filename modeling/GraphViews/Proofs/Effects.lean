import Mathlib
import GraphViews.Association.Reconcile
import GraphViews.Proofs.Generation
/-!
# What the building blocks of reconciliation do to the store and the notices

Every reconciliation strategy is made of the same few effects: reading the model, journaling
a manager call, making a new object, resolving a reference, and telling the listeners that an
object was created or discarded. This module says once what each of them does to the two parts
of the state the strategies are judged by, the store and the sequence of notices:

* a new object only adds cells after the store's end (`Store.newObject_cell?_of_lt`,
  `Store.le_newObject_handle`), so a handle that was in the store keeps its cell;
* a writable field writes its value into the object's slot (`Accessor.set_field_writable`), and
  writing the value the slot holds already changes nothing (`Store.setField_of_slotHolds`);
* writing new contents into a container cell keeps every object and its fields
  (`Store.put_container`), and a container allocated for a null field is named by the field
  and holds what was written (`Store.put_alloc_setField`): the collection managers' writes in
  one place;
* `Run.Keeps` holds of a computation that changes neither the store nor the notices, and is
  closed under `bind`; reading, journaling, failing and resolving a reference keep;
* telling the listeners succeeds, leaves the store, and appends exactly its one notice
  (`Context.entityCreated_run`, `Context.entityDiscarded_run`);
* obtaining an associate tells nobody anything; an owned associate is a new object whose
  handle was past the store's end (`Reconciler.obtain_owned_fresh`);
* injecting an entity may reconcile the associations inside it, which tell their own notices:
  the strategies are proved for any injection that keeps the association and only appends to
  the notices (`Reconciler.Framed`), and state their own notices around the block each
  injection appended (`Reconciler.Tells`, `Outcome.notices`).
-/

namespace GraphViews

-- ============================================================ the store only grows

namespace Store

theorem cell?_alloc (s : Store) (c : Cell) (h : Nat) :
    (s.alloc c).1.cell? h = if h = s.size then some c else s.cell? h :=
  Array.getElem?_push

theorem size_alloc (s : Store) (c : Cell) : (s.alloc c).1.size = s.size + 1 := by
  simp [alloc, size]

theorem handle_alloc (s : Store) (c : Cell) : (s.alloc c).2 = s.size := rfl

theorem cell?_of_size_le {s : Store} {h : Handle} (hs : s.size ≤ h) : s.cell? h = none := by
  simp only [cell?]
  exact Array.getElem?_eq_none hs

/-- Only a handle inside the store names a cell. -/
theorem lt_size_of_cell? {s : Store} {h : Nat} {c : Cell} (hc : s.cell? h = some c) :
    h < s.size :=
  (Array.getElem?_eq_some_iff.mp hc).1

/-- `s'` keeps every cell of `s`, and may have more after them. -/
structure Grows (s s' : Store) : Prop where
  size_le : s.size ≤ s'.size
  old : ∀ h, h < s.size → s'.cell? h = s.cell? h

namespace Grows

variable {s s' : Store}

theorem refl (s : Store) : Grows s s := ⟨le_rfl, fun _ _ => rfl⟩

theorem trans {s'' : Store} (h : Grows s s') (h' : Grows s' s'') : Grows s s'' where
  size_le := h.size_le.trans h'.size_le
  old k hk := by rw [h'.old k (Nat.lt_of_lt_of_le hk h.size_le), h.old k hk]

theorem alloc (h : Grows s s') (c : Cell) : Grows s (s'.alloc c).1 where
  size_le := by rw [size_alloc]; have := h.size_le; omega
  old k hk := by
    have hne : k ≠ s'.size := by have := h.size_le; omega
    rw [cell?_alloc, if_neg hne, h.old k hk]

theorem emptyOf (h : Grows s s') (dt : DataType) : Grows s (s'.emptyOf dt).1 := by
  cases dt with
  | list => exact h.alloc _
  | set => exact h.alloc _
  | map k => exact h.alloc _
  | array => exact h
  | scalar k => exact h
  | object => exact h
  | any => exact h

end Grows

/-- One declared property of a new object: a field gets a slot holding its empty value. -/
def newSlot (acc : Store × List (String × Value)) (d : PropertyDecl) :
    Store × List (String × Value) :=
  if d.isField then ((acc.1.emptyOf d.dataType).1, acc.2 ++ [(d.name, (acc.1.emptyOf d.dataType).2)])
  else acc

theorem newObject_eq (s : Store) (t : ModelType) :
    s.newObject t =
      (t.properties.foldl newSlot (s, [])).1.alloc
        (.object ⟨t, (t.properties.foldl newSlot (s, [])).2⟩) := rfl

/-- Making the fields of a new object only adds cells. -/
theorem grows_foldl_newSlot {s : Store} (ds : List PropertyDecl) (acc : Store × List (String × Value))
    (hs : Grows s acc.1) : Grows s (ds.foldl newSlot acc).1 := by
  induction ds generalizing acc with
  | nil => exact hs
  | cons d ds ih =>
    apply ih
    unfold newSlot
    split
    · exact hs.emptyOf d.dataType
    · exact hs

variable {s : Store} {t : ModelType}

theorem grows_newObject : Grows s (s.newObject t).1 := by
  rw [newObject_eq]
  exact (grows_foldl_newSlot _ _ (Grows.refl s)).alloc _

/-- A new object's handle was past the end of the store. -/
theorem le_newObject_handle : s.size ≤ (s.newObject t).2 := by
  rw [newObject_eq, handle_alloc]
  exact (grows_foldl_newSlot _ _ (Grows.refl s)).size_le

theorem newObject_size : (s.newObject t).1.size = (s.newObject t).2 + 1 := by
  rw [newObject_eq, size_alloc, handle_alloc]

theorem size_le_newObject : s.size ≤ (s.newObject t).1.size :=
  grows_newObject.size_le

theorem newObject_cell?_of_lt {h : Nat} (hh : h < s.size) :
    (s.newObject t).1.cell? h = s.cell? h :=
  grows_newObject.old h hh

-- ------------------------------------------------------------ writing cells

theorem size_put (s : Store) (h : Handle) (c : Cell) : (s.put h c).size = s.size := by
  simp [put, size]

theorem cell?_put_self {h : Handle} (c : Cell) (hh : h < s.size) :
    (s.put h c).cell? h = some c := by
  simp only [put, cell?, Array.set!_eq_setIfInBounds]
  exact Array.getElem?_setIfInBounds_self_of_lt hh

theorem cell?_put_ne {h k : Handle} (c : Cell) (hne : h ≠ k) : (s.put h c).cell? k = s.cell? k := by
  simp only [put, cell?, Array.set!_eq_setIfInBounds]
  exact Array.getElem?_setIfInBounds_ne hne

/-- Only an object's own cell decides whether it is one, and what its fields hold. -/
theorem instance?_congr {s' : Store} {o : Handle} (hc : s'.cell? o = s.cell? o) :
    s'.instance? o = s.instance? o := by
  simp only [instance?, hc]

theorem field_congr {s' : Store} {o : Handle} {n : String} (hc : s'.cell? o = s.cell? o) :
    s'.field o n = s.field o n := by
  simp only [field, slot?, instance?_congr hc]

theorem lt_size_of_instance? {o : Handle} {inst : Instance} (hi : s.instance? o = some inst) :
    o < s.size := by
  unfold instance? at hi
  split at hi
  · rename_i hc
    exact lt_size_of_cell? hc
  · cases hi

/-- An object and a cell that holds no object are different cells. -/
theorem ne_of_instance?_of_cell? {o h : Handle} {inst : Instance} {c : Cell}
    (hi : s.instance? o = some inst) (hc : s.cell? h = some c) (hne : ∀ i, c ≠ .object i) :
    o ≠ h := by
  rintro rfl
  simp only [instance?, hc] at hi
  cases c with
  | object i => exact hne i rfl
  | _ => cases hi

/-- Writing new contents into a container cell keeps every object as it was: the object is still
one, with the same fields, and the container holds what was written. -/
theorem put_container {o h : Handle} {inst : Instance} {c : Cell}
    (hi : s.instance? o = some inst) (hc : s.cell? h = some c) (hne : ∀ i, c ≠ .object i)
    (c' : Cell) :
    (s.put h c').instance? o = some inst ∧ (∀ n, (s.put h c').field o n = s.field o n) ∧
      (s.put h c').cell? h = some c' := by
  have hcell : (s.put h c').cell? o = s.cell? o :=
    cell?_put_ne _ (ne_of_instance?_of_cell? hi hc hne).symm
  exact ⟨by rw [instance?_congr hcell, hi], fun n => field_congr hcell,
    cell?_put_self _ (lt_size_of_cell? hc)⟩

/-- Writing a slot that is there puts the value in its place, and a new slot goes at the end:
either way the slot then reads the value. -/
theorem find?_writeSlot (slots : List (String × Value)) (n : String) (v : Value) :
    (writeSlot slots n v).find? (·.1 == n) = some (n, v) := by
  unfold writeSlot
  split
  · rename_i hany
    induction slots with
    | nil => simp at hany
    | cons p ps ih =>
      by_cases hp : p.1 = n
      · simp [hp]
      · have hany' : ps.any (·.1 == n) = true := by simpa [hp] using hany
        simpa [hp] using ih hany'
  · rename_i hany
    have hnone : slots.find? (·.1 == n) = none :=
      List.find?_eq_none.mpr fun p hp hpn => hany (List.any_eq_true.mpr ⟨p, hp, hpn⟩)
    simp [List.find?_append, hnone]

theorem instance?_setField {o : Handle} {inst : Instance} (hi : s.instance? o = some inst)
    (n : String) (v : Value) :
    (s.setField o n v).instance? o = some { inst with slots := writeSlot inst.slots n v } := by
  simp only [setField, hi]
  simp only [instance?, cell?_put_self _ (lt_size_of_instance? hi)]

theorem field_setField_self {o : Handle} {inst : Instance} (hi : s.instance? o = some inst)
    (n : String) (v : Value) : (s.setField o n v).field o n = v := by
  simp [field, slot?, instance?_setField hi, find?_writeSlot]

theorem cell?_setField_ne {o k : Handle} (n : String) (v : Value) (hne : o ≠ k) :
    (s.setField o n v).cell? k = s.cell? k := by
  unfold setField
  split
  · exact cell?_put_ne _ hne
  · rfl

theorem size_setField (o : Handle) (n : String) (v : Value) : (s.setField o n v).size = s.size := by
  unfold setField
  split
  · exact size_put _ _ _
  · rfl

/-- A cell allocated past the end keeps what it was given when a field is then written. -/
theorem cell?_alloc_setField {o : Handle} (ho : o < s.size) (n : String) (c : Cell) (v : Value) :
    ((s.alloc c).1.setField o n v).cell? s.size = some c := by
  rw [cell?_setField_ne _ _ (Nat.ne_of_lt ho), cell?_alloc, if_pos rfl]

/-- A new container for an object's field: once it is allocated past the end, named in the
field and written, the object is still one, its field names the new cell, and the cell holds
what was written. -/
theorem put_alloc_setField {o : Handle} {inst : Instance} (hi : s.instance? o = some inst)
    (n : String) (c c' : Cell) (v : Value) :
    (∃ inst', (((s.alloc c).1.setField o n v).put s.size c').instance? o = some inst') ∧
      (((s.alloc c).1.setField o n v).put s.size c').field o n = v ∧
      (((s.alloc c).1.setField o n v).put s.size c').cell? s.size = some c' ∧
      (((s.alloc c).1.setField o n v).put s.size c').size = s.size + 1 := by
  have hne : o ≠ s.size := Nat.ne_of_lt (lt_size_of_instance? hi)
  have hc₁ : (s.alloc c).1.cell? o = s.cell? o := by rw [cell?_alloc, if_neg hne]
  have hi₁ : (s.alloc c).1.instance? o = some inst := by rw [instance?_congr hc₁, hi]
  have hsize : ((s.alloc c).1.setField o n v).size = s.size + 1 := by
    rw [size_setField, size_alloc]
  have hcell : (((s.alloc c).1.setField o n v).put s.size c').cell? o =
      ((s.alloc c).1.setField o n v).cell? o := cell?_put_ne _ hne.symm
  refine ⟨⟨_, by rw [instance?_congr hcell, instance?_setField hi₁]⟩,
    by rw [field_congr hcell, field_setField_self hi₁],
    cell?_put_self _ (by rw [hsize]; exact Nat.lt_succ_self _), ?_⟩
  rw [size_put, hsize]

/-- Putting back the cell a handle holds changes nothing. -/
theorem put_of_cell? {h : Handle} {c : Cell} (hc : s.cell? h = some c) : s.put h c = s := by
  obtain ⟨hlt, rfl⟩ := Array.getElem?_eq_some_iff.1 hc
  simp [put, Array.setIfInBounds_def, hlt]

/-- The object at `h` has a slot `x`, and every slot `x` it has holds `v`. -/
def SlotHolds (s : Store) (h : Handle) (x : String) (v : Value) : Prop :=
  ∃ o, s.instance? h = some o ∧ (∃ p ∈ o.slots, p.1 = x) ∧ ∀ p ∈ o.slots, p.1 = x → p.2 = v

/-- Writing into a field the value its slots hold already changes nothing. -/
theorem setField_of_slotHolds {h : Handle} {x : String} {v : Value} (hv : s.SlotHolds h x v) :
    s.setField h x v = s := by
  obtain ⟨o, hi, ⟨p, hp, hpx⟩, hall⟩ := hv
  have hany : o.slots.any (·.1 == x) = true := List.any_eq_true.2 ⟨p, hp, by simp [hpx]⟩
  -- each slot named `x` is written back with what it holds
  have hslots : writeSlot o.slots x v = o.slots := by
    rw [writeSlot, if_pos hany]
    conv_rhs => rw [← List.map_id o.slots]
    refine List.map_congr_left fun q hq => ?_
    by_cases hqx : q.1 = x
    · rw [if_pos (beq_iff_eq.2 hqx), id, ← hqx, ← hall q hq hqx]
    · rw [if_neg (by simpa using hqx), id]
  have hcell : s.cell? h = some (.object o) := by
    unfold instance? at hi
    split at hi <;> simp_all
  rw [setField, hi]
  simp only [hslots]
  exact put_of_cell? hcell

end Store

/-- A writable field writes its value into the object's slot. -/
theorem Accessor.set_field_writable {n : String} {dt : DataType} {modes : AccessModes}
    (hw : modes.write = true) (o : Handle) (v : Value) (st : Store) :
    (Accessor.field n dt modes).set (.object o) v st = .ok () (st.setField o n v) := by
  simp [Accessor.set, hw, Access.expectObject, bind, EStateM.bind, modify, modifyGet,
    MonadStateOf.modifyGet, EStateM.modifyGet, pure, EStateM.pure]

-- ============================================================ keeping the store and notices

/-- The state a computation ends in, whether it succeeded or failed. -/
def Run.after {α : Type} (x : Run α) (s : RunState) : RunState :=
  match x s with
  | .ok _ s' => s'
  | .error _ s' => s'

namespace Run

theorem after_bind_ok {α β : Type} {x : Run α} {k : α → Run β} {s s₁ : RunState} {a : α}
    (h : x s = .ok a s₁) : Run.after (x >>= k) s = Run.after (k a) s₁ := by
  simp only [after, bind, EStateM.bind, h]

/-- A store access that succeeds within a run changes the store only. -/
theorem access_ok {α : Type} {ctx : Context} {x : Access α} {s s' : RunState} {a : α}
    (h : Run.access ctx x s = .ok a s') : ∃ st, x s.store = .ok a st ∧ s' = { s with store := st } := by
  simp only [Run.access] at h
  split at h
  · cases h
    rename_i st hx
    exact ⟨st, hx, rfl⟩
  · cases h

/-- A search whose every probe only reads finds what the pure search over the probes' answers
finds, and leaves the state as it was. -/
theorem findSomeM?_ok {α β : Type} {f : α → Run (Option β)} {g : α → Option β}
    {s s' : RunState} {xs : List α} {res : Option β} (h : xs.findSomeM? f s = .ok res s')
    (hf : ∀ a r s₁, f a s = .ok r s₁ → r = g a ∧ s₁ = s) : res = xs.findSome? g ∧ s' = s := by
  induction xs generalizing res s' with
  | nil =>
    cases h
    exact ⟨rfl, rfl⟩
  | cons a xs ih =>
    rw [List.findSomeM?_cons] at h
    obtain ⟨r, s₁, h₁, h₂⟩ := Run.bind_ok h
    obtain ⟨rfl, rfl⟩ := hf a r s₁ h₁
    cases hg : g a with
    | some b =>
      rw [hg] at h₂
      cases h₂
      exact ⟨by simp [hg], rfl⟩
    | none =>
      rw [hg] at h₂
      rw [List.findSome?_cons, hg]
      exact ih h₂

/-- A computation that always succeeds and leaves the store and the notices as they were: what a
listener does with a notice. -/
def Aside (x : Run Unit) : Prop :=
  ∀ s, ∃ s', x s = .ok () s' ∧ s'.store = s.store ∧ s'.notices = s.notices

theorem Aside.forM {α : Type} {f : α → Run Unit} (hf : ∀ a, Aside (f a)) :
    ∀ xs : List α, Aside (xs.forM f) := by
  intro xs
  induction xs with
  | nil => exact fun s => ⟨s, rfl, rfl, rfl⟩
  | cons a xs ih =>
    intro s
    obtain ⟨s₁, h₁, hst₁, hn₁⟩ := hf a s
    obtain ⟨s₂, h₂, hst₂, hn₂⟩ := ih s₁
    refine ⟨s₂, ?_, hst₂.trans hst₁, hn₂.trans hn₁⟩
    show (f a >>= fun _ => xs.forM f) s = _
    simp only [bind, EStateM.bind, h₁, h₂]

/-- Recording a notice and passing it to listeners that each act aside succeeds, and of the
store and the notices changes only the latter, by that notice. -/
theorem Aside.notify {f : Listener → Run Unit} (hf : ∀ l, Aside (f l)) (n : Notice)
    (ls : List Listener) (s : RunState) :
    ∃ s', (modify (fun s : RunState => { s with notices := s.notices ++ [n] }) >>= fun _ =>
        ls.forM f) s = .ok () s' ∧ s'.store = s.store ∧ s'.notices = s.notices ++ [n] :=
  Aside.forM hf ls { s with notices := s.notices ++ [n] }

/-- A successful run of `x` leaves the store and the notices as they were, whatever it
returns: it only reads the model, or journals. -/
def Keeps {α : Type} (x : Run α) : Prop :=
  ∀ s a s', x s = .ok a s' → s'.store = s.store ∧ s'.notices = s.notices

namespace Keeps

theorem pure {α : Type} (a : α) : Keeps (Pure.pure a : Run α) := by
  intro s b s' h
  cases h
  exact ⟨rfl, rfl⟩

theorem bind {α β : Type} {x : Run α} {k : α → Run β} (hx : Keeps x) (hk : ∀ a, Keeps (k a)) :
    Keeps (x >>= k) := by
  intro s b s'' h
  obtain ⟨a, s', h₁, h₂⟩ := Run.bind_ok h
  obtain ⟨hs₁, hn₁⟩ := hx s a s' h₁
  obtain ⟨hs₂, hn₂⟩ := hk a s' b s'' h₂
  exact ⟨hs₂.trans hs₁, hn₂.trans hn₁⟩

theorem fail {α : Type} {ctx : Context} {k : ViewErrorKind} : Keeps (Run.fail ctx k : Run α) := by
  intro s a s' h
  cases h

theorem note {entry : String} : Keeps (Run.note entry) := by
  intro s a s' h
  cases h
  exact ⟨rfl, rfl⟩

theorem store : Keeps Run.store := by
  intro s a s' h
  cases h
  exact ⟨rfl, rfl⟩

end Keeps

end Run

-- ============================================================ notices

namespace Context

variable (ctx : Context) (h : Handle) (s : RunState)

/-- Telling the listeners an object was created succeeds, records the notice and leaves the
store as it was. -/
theorem entityCreated_run :
    ∃ s', ctx.entityCreated h s = .ok () s' ∧ s'.store = s.store ∧
      s'.notices = s.notices ++ [.created h] :=
  Run.Aside.notify (fun l => by cases l <;> exact fun s => ⟨_, rfl, rfl, rfl⟩) _ _ s

/-- Telling the listeners an object was discarded succeeds, records the notice and leaves the
store as it was. -/
theorem entityDiscarded_run :
    ∃ s', ctx.entityDiscarded h s = .ok () s' ∧ s'.store = s.store ∧
      s'.notices = s.notices ++ [.discarded h] :=
  Run.Aside.notify (fun l => by cases l <;> exact fun s => ⟨_, rfl, rfl, rfl⟩) _ _ s

variable {ctx h s} {s' : RunState} {u : Unit}

theorem entityCreated_ok (hrun : ctx.entityCreated h s = .ok u s') :
    s'.store = s.store ∧ s'.notices = s.notices ++ [.created h] := by
  obtain ⟨s'', h', hst, hn⟩ := entityCreated_run ctx h s
  rw [h'] at hrun
  cases hrun
  exact ⟨hst, hn⟩

theorem entityDiscarded_ok (hrun : ctx.entityDiscarded h s = .ok u s') :
    s'.store = s.store ∧ s'.notices = s.notices ++ [.discarded h] := by
  obtain ⟨s'', h', hst, hn⟩ := entityDiscarded_run ctx h s
  rw [h'] at hrun
  cases hrun
  exact ⟨hst, hn⟩

end Context

-- ============================================================ obtaining an associate

namespace Context

variable {ctx : Context} {t : ModelType} {e : Entity} {s s' : RunState} {a : Handle}

/-- A new instance is a new object of the type, or of the type a factory makes. -/
theorem newInstance_ok (hrun : ctx.newInstance t s = .ok a s') :
    ∃ u, s.store.newObject u = (s'.store, a) ∧ s' = { s with store := s'.store } := by
  unfold newInstance at hrun
  cases hf : ctx.factories.find? (·.typeName == t.name) with
  | some f =>
    cases hm : f.make with
    | some u =>
      simp only [hf, hm, modifyGet, MonadStateOf.modifyGet, EStateM.modifyGet] at hrun
      cases hrun
      exact ⟨u, rfl, rfl⟩
    | none => simp [hf, hm, Run.fail, throw, throwThe, MonadExceptOf.throw, EStateM.throw] at hrun
  | none =>
    by_cases ha : t.isAbstract
    · simp [hf, ha, Run.fail, throw, throwThe, MonadExceptOf.throw, EStateM.throw] at hrun
    · simp only [hf, ha, Bool.false_eq_true, if_false, modifyGet, MonadStateOf.modifyGet,
        EStateM.modifyGet] at hrun
      cases hrun
      exact ⟨t, rfl, rfl⟩

/-- Resolving a reference reads the store and may journal a probe; it changes neither the
store nor the notices. -/
theorem resolveReference_keeps (t : ModelType) (e : Entity) :
    Run.Keeps (ctx.resolveReference t e) := by
  unfold resolveReference
  cases ctx.resolvers.find? (t.isSubtypeOf ·.type) with
  | none => exact Run.Keeps.fail
  | some r =>
    -- a journaling resolver first notes a probe and may refuse; every branch then looks the
    -- entity up in the store, and returns what it finds or fails
    dsimp only
    split
    · refine Run.Keeps.bind Run.Keeps.note fun _ => ?_
      split
      · refine Run.Keeps.bind Run.Keeps.fail fun _ => Run.Keeps.bind Run.Keeps.store fun _ => ?_
        split
        · exact Run.Keeps.pure _
        · exact Run.Keeps.fail
      · refine Run.Keeps.bind Run.Keeps.store fun _ => ?_
        split
        · exact Run.Keeps.pure _
        · exact Run.Keeps.fail
    · refine Run.Keeps.bind Run.Keeps.store fun _ => ?_
      split
      · exact Run.Keeps.pure _
      · exact Run.Keeps.fail

end Context

namespace Reconciler

variable {r : Reconciler} {ctx : Context} {e : Entity} {s s' : RunState} {a : Handle}

/-- An owned associate is a new object, made by the store. -/
theorem obtain_owned (hr : r.reference = false) (hrun : r.obtain ctx e s = .ok a s') :
    ∃ u, s.store.newObject u = (s'.store, a) ∧ s'.notices = s.notices := by
  simp only [obtain, hr, Bool.false_eq_true, if_false] at hrun
  obtain ⟨u, hu, hs'⟩ := Context.newInstance_ok hrun
  exact ⟨u, hu, by rw [hs']⟩

/-- Obtaining an associate tells the listeners nothing; a resolved reference leaves the store
as it was, and an owned associate is a new object. -/
theorem obtain_ok (hrun : r.obtain ctx e s = .ok a s') :
    s'.notices = s.notices ∧ (s'.store = s.store ∨ ∃ u, s.store.newObject u = (s'.store, a)) := by
  cases hr : r.reference with
  | false =>
    obtain ⟨u, hu, hn⟩ := obtain_owned hr hrun
    exact ⟨hn, .inr ⟨u, hu⟩⟩
  | true =>
    simp only [obtain, hr, if_true] at hrun
    obtain ⟨hst, hn⟩ := Context.resolveReference_keeps e.type e s a s' hrun
    exact ⟨hn, .inl hst⟩

/-- Obtaining an associate never shrinks the store. -/
theorem size_le_obtain (hrun : r.obtain ctx e s = .ok a s') : s.store.size ≤ s'.store.size := by
  rcases (obtain_ok hrun).2 with hst | ⟨u, hu⟩
  · rw [hst]
  · have h : (s.store.newObject u).1 = s'.store := congrArg Prod.fst hu
    rw [← h]
    exact Store.size_le_newObject

/-- An owned associate was not in the store before, and is in it after. -/
theorem obtain_owned_fresh (hr : r.reference = false) (hrun : r.obtain ctx e s = .ok a s') :
    s.store.size ≤ a ∧ a < s'.store.size := by
  obtain ⟨u, hu, -⟩ := obtain_owned hr hrun
  have h₁ : (s.store.newObject u).2 = a := congrArg Prod.snd hu
  have h₂ : (s.store.newObject u).1 = s'.store := congrArg Prod.fst hu
  refine ⟨h₁ ▸ Store.le_newObject_handle, ?_⟩
  rw [← h₁, ← h₂, Store.newObject_size]
  exact Nat.lt_succ_self _

/-- Reading a staged element as an entity changes nothing. -/
theorem entityOf_ok {st : Staged} {o : Option Entity} (h : entityOf ctx st s = .ok o s') :
    o = st.entity? ∧ s' = s := by
  cases st <;> first | (cases h; exact ⟨rfl, rfl⟩) | cases h

/-- Injecting an entity keeps the association `live` as it is, never shrinks the store and only
adds to the notices: what the associations inside the entity tell comes after what was told
before. This is the frame in which a reconciliation's own notices are stated around those of
the injections it runs. -/
def Framed {α : Type} (r : Reconciler) (live : Store → Option α) : Prop :=
  ∀ c e h s s' x, live s.store = some x → r.inject c e h s = .ok () s' →
    live s'.store = some x ∧ s.notices <+: s'.notices ∧ s.store.size ≤ s'.store.size

/-- `told` is what one run of injecting an entity into `h` added to the notices. -/
def Tells (r : Reconciler) (h : Handle) (told : List Notice) : Prop :=
  ∃ c e s s', r.inject c e h s = .ok () s' ∧ s'.notices = s.notices ++ told

/-- A successful injection in the frame keeps the association and the store's extent, and what it
adds to the notices is what it tells. -/
theorem Framed.inject {α : Type} {live : Store → Option α} (hr : r.Framed live) {x : α}
    (hl : live s.store = some x) (hrun : r.inject c e h s = .ok () s') :
    ∃ told, r.Tells h told ∧ live s'.store = some x ∧ s'.notices = s.notices ++ told ∧
      s.store.size ≤ s'.store.size := by
  obtain ⟨hl', ⟨told, htold⟩, hz⟩ := hr c e h s s' x hl hrun
  exact ⟨told, ⟨c, e, s, s', hrun, htold.symm⟩, hl', htold.symm, hz⟩

/-- A reconciler that writes nothing into its associates stays in every frame. -/
theorem framed_of_pure {α : Type} (reference : Bool) (live : Store → Option α) :
    Framed { reference, inject := fun _ _ _ => pure () } live := by
  intro c e h s s' x hl hrun
  cases hrun
  exact ⟨hl, List.prefix_refl _, le_rfl⟩

/-- Obtaining an associate keeps any view of the store that a new object keeps. -/
theorem live_obtain {α : Type} {live : Store → Option α}
    (hnew : ∀ {st x} t, live st = some x → live (st.newObject t).1 = some x) {x : α}
    (hl : live s.store = some x) (hrun : r.obtain ctx e s = .ok a s') : live s'.store = some x := by
  rcases (obtain_ok hrun).2 with hst | ⟨u, hu⟩
  · rw [hst]
    exact hl
  · have h : (s.store.newObject u).1 = s'.store := congrArg Prod.fst hu
    rw [← h]
    exact hnew u hl

end Reconciler

-- ============================================================ what a reconciliation did

/-- What reconciliation did for one staged entity: it updated a live object in place, or gave
the entity a new associate. -/
inductive Outcome where
  | matched (h : Handle)
  | obtained (h : Handle)
deriving DecidableEq

namespace Outcome

@[simp] def handle : Outcome → Handle
  | matched h | obtained h => h

@[simp] def matched? : Outcome → Option Handle
  | matched h => some h
  | obtained _ => none

@[simp] def obtained? : Outcome → Option Handle
  | matched _ => none
  | obtained h => some h

/-- What a collection's reconciliation tells for one staged entity, with `told` what injecting
it told: that, then, for a new associate, its creation. -/
def notices (o : Outcome) (told : List Notice) : List Notice :=
  told ++ o.obtained?.toList.map .created

@[simp] theorem notices_matched (h : Handle) (told : List Notice) :
    (matched h).notices told = told := by
  simp [notices]

@[simp] theorem notices_obtained (h : Handle) (told : List Notice) :
    (obtained h).notices told = told ++ [.created h] := rfl

/-- Outcomes that are all matches are read back from the matched objects. -/
theorem eq_map_matched {outs : List Outcome} {hs : List Handle}
    (h : outs.map matched? = hs.map some) : outs = hs.map matched := by
  induction outs generalizing hs with
  | nil => cases hs with
    | nil => rfl
    | cons _ _ => cases h
  | cons o outs ih =>
    cases hs with
    | nil => cases h
    | cons a hs =>
      simp only [List.map_cons, List.cons.injEq] at h
      obtain ⟨hhead, hrest⟩ := h
      cases o with
      | matched b =>
        simp only [matched?, Option.some.injEq] at hhead
        rw [hhead, ih hrest, List.map_cons]
      | obtained b => cases hhead

/-- Where every entity matched, the notices are what the injections told. -/
theorem zipWith_notices_map_matched {R : Handle → List Notice → Prop} {hs : List Handle}
    {tells : List (List Notice)} (h : List.Forall₂ R hs tells) :
    List.zipWith notices (hs.map matched) tells = tells := by
  induction h with
  | nil => rfl
  | cons _ _ ih => simp [ih]

end Outcome

end GraphViews

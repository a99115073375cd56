import Mathlib
import GraphViews.Proofs.Effects
/-!
# What a failed collection call leaves behind

The calls of the collection interface (iterate, size, add, remove, clear, the indexed get, set,
insert and remove, index of, and the keyed entries, get, put and remove) are data here,
`Multi.Call`, run on a property of an owner by `Multi.call`.

The main statement, `Multi.failed_call_keeps_cells_or_attaches_list`, says what a failed call
leaves, for every call and every collection access over a field: every cell of the store as it
was (`Store.Grows`: at most a new cell past the end, which nothing names), with one exception.
The list's indexed writes (`setAt`, `insertAt`, `removeAt`) take the write path first, which
stores a fresh empty list in a null property, and check the index after it; when the check
fails, the property keeps the new list. `Multi.failed_setAt_attaches_list` is that case at a
holder whose list is null. The array makes the same edits with the check before it writes the
array back, so its failures leave the store as it was.

# How the proofs go

A run in `Access` may leave the store as it is (`Access.Reads`), only allocate
(`Access.Adds`), only allocate when it fails (`Access.FailsClean`), change nothing when it fails
(`Access.FailsIntact`), or never fail (`Access.Total`); each is closed under the binds the
operations are made of. Reading a property and its container reads, storing into a property
fails clean (`Accessor.failsClean_set`), and so does the write path, which allocates and then
stores. Each operation is a chain of these: one lemma per operation, one case per shape. What
the write path did when it succeeded (`Multi.writeCell_list_ok`) is where the list's index
failures come from.
-/

namespace GraphViews

namespace Access

variable {α β : Type}

/-- The store a run ends in, whether it succeeded or failed. -/
def after : EStateM.Result AccessError Store α → Store
  | .ok _ s => s
  | .error _ s => s

variable {x : Access α} {f : α → Access β} {s s' : Store} {a : α} {e : AccessError}

theorem bind_of_ok (h : x s = .ok a s') : (x >>= f) s = f a s' := by
  simp only [bind, EStateM.bind, h]

theorem bind_of_error (h : x s = .error e s') : (x >>= f) s = .error e s' := by
  simp only [bind, EStateM.bind, h]

-- ============================================================ what a run does to the store

/-- A run that leaves the store as it is. -/
def Reads (x : Access α) : Prop := ∀ s, after (x s) = s

/-- A run that only adds cells after the end of the store. -/
def Adds (x : Access α) : Prop := ∀ s, Store.Grows s (after (x s))

/-- A run that, when it fails, has only added cells. -/
def FailsClean (x : Access α) : Prop := ∀ s e s', x s = .error e s' → Store.Grows s s'

/-- A run that, when it fails, leaves the store as it was. -/
def FailsIntact (x : Access α) : Prop := ∀ s e s', x s = .error e s' → s' = s

/-- A run that never fails. -/
def Total (x : Access α) : Prop := ∀ s e s', x s ≠ .error e s'

theorem Reads.of_ok (hx : Reads x) (h : x s = .ok a s') : s' = s := by
  simpa [h, after] using hx s

theorem Reads.of_error (hx : Reads x) (h : x s = .error e s') : s' = s := by
  simpa [h, after] using hx s

theorem Reads.adds (hx : Reads x) : Adds x := fun s => by rw [hx s]; exact .refl s

theorem Reads.failsIntact (hx : Reads x) : FailsIntact x := fun _ _ _ h => hx.of_error h

theorem Adds.of_ok (hx : Adds x) (h : x s = .ok a s') : Store.Grows s s' := by
  simpa [h, after] using hx s

theorem Adds.failsClean (hx : Adds x) : FailsClean x := fun s _ _ h => by
  simpa [h, after] using hx s

theorem Total.failsClean (hx : Total x) : FailsClean x := fun s e s' h => absurd h (hx s e s')

/-- A run followed by one that never fails fails only where the first did. -/
theorem error_of_bind_total (hf : ∀ a, Total (f a)) (h : (x >>= f) s = .error e s') :
    x s = .error e s' := by
  cases hx : x s with
  | ok a s₁ => rw [bind_of_ok hx] at h; exact absurd h (hf a s₁ e s')
  | error e₁ s₁ => rw [bind_of_error hx] at h; cases h; rfl

theorem Reads.bind (hx : Reads x) (hf : ∀ a, Reads (f a)) : Reads (x >>= f) := by
  intro s
  cases h : x s with
  | ok a s₁ => rw [bind_of_ok h, hf a s₁, hx.of_ok h]
  | error e s₁ => rw [bind_of_error h, ← hx.of_error h]; rfl

/-- After a run that only allocates, a failure that only allocates still only allocates. -/
theorem FailsClean.bind (hx : Adds x) (hf : ∀ a, FailsClean (f a)) : FailsClean (x >>= f) := by
  intro s e s' hrun
  cases h : x s with
  | ok a s₁ => rw [bind_of_ok h] at hrun; exact (hx.of_ok h).trans (hf a s₁ e s' hrun)
  | error e₁ s₁ => rw [bind_of_error h] at hrun; cases hrun; exact hx.failsClean s _ _ h

theorem FailsClean.bind_total (hx : FailsClean x) (hf : ∀ a, Total (f a)) :
    FailsClean (x >>= f) := by
  intro s e s' hrun
  exact hx s e s' (error_of_bind_total hf hrun)

theorem FailsIntact.bind (hx : Reads x) (hf : ∀ a, FailsIntact (f a)) :
    FailsIntact (x >>= f) := by
  intro s e s' hrun
  cases h : x s with
  | ok a s₁ => rw [bind_of_ok h] at hrun; rw [hf a s₁ e s' hrun, hx.of_ok h]
  | error e₁ s₁ => rw [bind_of_error h] at hrun; cases hrun; exact hx.of_error h

theorem FailsIntact.bind_total (hx : FailsIntact x) (hf : ∀ a, Total (f a)) :
    FailsIntact (x >>= f) := by
  intro s e s' hrun
  exact hx s e s' (error_of_bind_total hf hrun)

theorem Total.bind (hx : Total x) (hf : ∀ a, Total (f a)) : Total (x >>= f) := by
  intro s e s' hrun
  cases h : x s with
  | ok a s₁ => rw [bind_of_ok h] at hrun; exact hf a s₁ e s' hrun
  | error e₁ s₁ => exact hx s e₁ s₁ h

-- ------------------------------------------------------------ the primitive runs

theorem reads_ite {c : Prop} [Decidable c] {y : Access α} (hx : Reads x) (hy : Reads y) :
    Reads (if c then x else y) := by
  split <;> assumption

theorem reads_pure (a : α) : Reads (pure a : Access α) := fun _ => rfl

theorem total_pure (a : α) : Total (pure a : Access α) := fun _ _ _ h => nomatch h

theorem reads_throw (e : AccessError) : Reads (throw e : Access α) := fun _ => rfl

theorem reads_store : Reads (getThe Store : Access Store) := fun _ => rfl

theorem total_store : Total (getThe Store : Access Store) := fun _ _ _ h => nomatch h

theorem total_modify (g : Store → Store) : Total (modify g : Access Unit) :=
  fun _ _ _ h => nomatch h

theorem total_step (g : Store → Store × α) : Total (Access.step g) := fun _ _ _ h => nomatch h

theorem adds_alloc (c : Cell) : Adds (Access.step (·.alloc c)) := fun s =>
  (Store.Grows.refl s).alloc c

theorem reads_convert (r : Except ConversionError α) : Reads (Access.convert r) := by
  cases r <;> exact fun _ => rfl

theorem reads_expectObject (n : String) (v : Value) : Reads (Access.expectObject n v) := by
  cases v <;> exact fun _ => rfl

end Access

open Access

/-- Reading a property, through any accessor, leaves the store as it is. -/
theorem Accessor.reads_get (a : Accessor) (v : Value) : Reads (a.get v) := by
  induction a generalizing v with
  | root t => exact reads_pure v
  | field n t m =>
    simp only [Accessor.get]
    split
    · exact (reads_expectObject n v).bind fun _ => reads_store.bind fun _ => reads_pure _
    · exact (reads_throw _).bind fun _ => (reads_expectObject n v).bind fun _ =>
        reads_store.bind fun _ => reads_pure _
  | computed n t g st =>
    simp only [Accessor.get]
    cases g with
    | none => exact reads_throw _
    | some g => exact (reads_expectObject n v).bind fun _ => reads_store.bind fun _ => reads_pure _
  | converting d c ih =>
    simp only [Accessor.get]
    refine (ih v).bind fun w => ?_
    cases w with
    | scalar x =>
      dsimp only
      split
      · exact reads_pure _
      · exact (reads_convert _).bind fun _ => reads_pure _
    | _ => exact reads_pure _
  | coercing d sep ih =>
    simp only [Accessor.get]
    refine (ih v).bind fun w => ?_
    split
    · exact reads_pure _
    · exact (reads_convert _).bind fun _ => reads_pure _

/-- Storing into a property, through any accessor, fails before it writes: a converter or a
coercion refuses first, and a field or a setter checks its mode and its owner first. -/
theorem Accessor.failsClean_set (a : Accessor) (target v : Value) :
    FailsClean (a.set target v) := by
  induction a generalizing v with
  | root t => exact (reads_throw _).adds.failsClean
  | field n t m =>
    simp only [Accessor.set]
    split
    · exact FailsClean.bind (reads_expectObject n target).adds fun _ => (total_modify _).failsClean
    · exact FailsClean.bind (reads_throw _).adds fun _ =>
        FailsClean.bind (reads_expectObject n target).adds fun _ => (total_modify _).failsClean
  | computed n t g st =>
    simp only [Accessor.set]
    cases st with
    | none => exact (reads_throw _).adds.failsClean
    | some st =>
      exact FailsClean.bind (reads_expectObject n target).adds fun _ => (total_modify _).failsClean
  | converting d c ih =>
    simp only [Accessor.set]
    cases v with
    | scalar x =>
      dsimp only
      split
      · exact FailsClean.bind (reads_pure _).adds ih
      · exact FailsClean.bind (reads_convert _).adds fun _ => FailsClean.bind (reads_pure _).adds ih
    | _ => exact FailsClean.bind (reads_pure _).adds ih
  | coercing d sep ih =>
    simp only [Accessor.set]
    cases v with
    | array xs => exact FailsClean.bind (reads_convert _).adds ih
    | _ =>
      dsimp only
      split
      · exact FailsClean.bind (reads_pure _).adds ih
      · exact FailsClean.bind (reads_throw _).adds ih

theorem Value.eq_null_of_isNull {v : Value} (h : v.isNull = true) : v = .null := by
  unfold Value.isNull at h
  split at h
  · rfl
  · cases h

namespace Multi

-- ============================================================ the calls as data

/-- A call of the collection interface, with its arguments. -/
inductive Call where
  | iterate
  | size
  | add (v : Value)
  | remove (v : Value)
  | clear
  | getAt (i : Nat)
  | setAt (i : Nat) (v : Value)
  | insertAt (i : Nat) (v : Value)
  | removeAt (i : Nat)
  | indexOf (v : Value)
  | entries
  | getKey (k : Scalar)
  | put (k : Scalar) (v : Value)
  | removeKey (k : Scalar)

/-- What a call answers. -/
inductive Reply where
  | elements (vs : List Value)
  | count (n : Nat)
  | done
  | found (b : Bool)
  | element (v : Value)
  | index (i : Option Nat)
  | entries (es : List (Scalar × Value))
  | entry (v : Option Value)

/-- Runs a call on the collection that a property of `owner` holds. -/
def call (m : Multi) (owner : Value) : Call → Access Reply
  | .iterate => return .elements (← m.iterate owner)
  | .size => return .count (← m.size owner)
  | .add v => do m.add owner v; return .done
  | .remove v => return .found (← m.remove owner v)
  | .clear => do m.clear owner; return .done
  | .getAt i => return .element (← m.getAt owner i)
  | .setAt i v => do m.setAt owner i v; return .done
  | .insertAt i v => do m.insertAt owner i v; return .done
  | .removeAt i => return .element (← m.removeAt owner i)
  | .indexOf v => return .index (← m.indexOf owner v)
  | .entries => return .entries (← m.entries owner)
  | .getKey k => return .entry (← m.getKey owner k)
  | .put k v => return .entry (← m.put owner k v)
  | .removeKey k => return .entry (← m.removeKey owner k)

/-- The calls that write at an index: a list checks the index only after its write path. -/
def Call.writesAtIndex : Call → Bool
  | .setAt .. | .insertAt .. | .removeAt .. => true
  | _ => false

-- ============================================================ the building blocks

theorem reads_readCell (a : Accessor) (shape : String) (owner : Value) :
    Reads (readCell a shape owner) :=
  (a.reads_get owner).bind fun v => by
    cases v <;> exact reads_ite (reads_pure _) (reads_throw _)

theorem reads_readArray (a : Accessor) (owner : Value) : Reads (readArray a owner) :=
  (a.reads_get owner).bind fun v => by
    cases v with
    | array xs => exact reads_pure xs
    | _ => exact reads_ite (reads_pure _) (reads_throw _)

theorem reads_checkIndex (name : String) (i n : Nat) : Reads (checkIndex name i n) :=
  reads_ite (reads_pure _) (reads_throw _)

theorem reads_items (h : Handle) : Reads (items h) := reads_store.bind fun _ => reads_pure _

theorem total_items (h : Handle) : Total (items h) := total_store.bind fun _ => total_pure _

theorem total_setItems (h : Handle) (xs : List Value) : Total (setItems h xs) := total_modify _

/-- The write path allocates a fresh container for a null property and then stores it, so it
only allocates when it fails. -/
theorem failsClean_writeCell (a : Accessor) (shape : String) (owner : Value) :
    FailsClean (writeCell a shape owner) := by
  refine FailsClean.bind (reads_readCell a shape owner).adds fun o => ?_
  cases o with
  | some h => exact (reads_pure h).adds.failsClean
  | none =>
    dsimp only
    exact FailsClean.bind (adds_alloc _) fun h =>
      (a.failsClean_set owner _).bind_total fun _ => total_pure h

/-- An array edit reads the array, edits a copy and writes it back last. -/
theorem failsClean_editArray {α : Type} (a : Accessor) (owner : Value)
    {edit : List Value → Access (List Value × α)} (hedit : ∀ xs, Reads (edit xs)) :
    FailsClean (editArray a owner edit) :=
  FailsClean.bind (reads_readArray a owner).adds fun xs =>
    FailsClean.bind (hedit xs).adds fun r =>
      (a.failsClean_set owner _).bind_total fun _ => total_pure r.2

-- ============================================================ one lemma per operation

variable (owner : Value)

theorem reads_iterate (m : Multi) : Reads (m.iterate owner) := by
  cases m with
  | list a | set a =>
    exact (reads_readCell a _ owner).bind fun o => by
      cases o with
      | some h => exact reads_items h
      | none => exact reads_pure _
  | array a => exact reads_readArray a owner
  | map a =>
    exact (reads_readCell a _ owner).bind fun o => by
      cases o with
      | some h => exact reads_store.bind fun _ => reads_pure _
      | none => exact reads_pure _

theorem reads_size (m : Multi) : Reads (m.size owner) := by
  cases m with
  | map a =>
    exact (reads_readCell a _ owner).bind fun o => by
      cases o with
      | some h => exact reads_store.bind fun _ => reads_pure _
      | none => exact reads_pure _
  | _ => exact (reads_iterate owner _).bind fun _ => reads_pure _

theorem reads_getAt (m : Multi) (i : Nat) : Reads (m.getAt owner i) := by
  cases m with
  | list a =>
    refine (reads_readCell a _ owner).bind fun o => ?_
    -- both branches hand the elements to the same lookup
    cases o with
    | some h =>
      dsimp only
      refine (reads_items h).bind fun xs => ?_
      split <;> [exact reads_pure _; exact reads_throw _]
    | none =>
      dsimp only
      refine (reads_pure []).bind fun xs => ?_
      split <;> [exact reads_pure _; exact reads_throw _]
  | array a =>
    exact (reads_readArray a owner).bind fun _ => (reads_checkIndex _ _ _).bind fun _ =>
      reads_pure _
  | set a | map a => exact reads_throw _

theorem reads_indexOf (m : Multi) (v : Value) : Reads (m.indexOf owner v) :=
  (reads_iterate owner m).bind fun _ => reads_pure _

theorem reads_entries (m : Multi) : Reads (m.entries owner) := by
  cases m with
  | map a =>
    exact (reads_readCell a _ owner).bind fun o => by
      cases o with
      | some h => exact reads_store.bind fun _ => reads_pure _
      | none => exact reads_pure _
  | _ => exact reads_throw _

theorem reads_getKey (m : Multi) (k : Scalar) : Reads (m.getKey owner k) := by
  cases m with
  | map a =>
    exact (reads_readCell a _ owner).bind fun o => by
      cases o with
      | some h => exact reads_store.bind fun _ => reads_pure _
      | none => exact reads_pure _
  | _ => exact reads_throw _

theorem failsClean_add (m : Multi) (v : Value) : FailsClean (m.add owner v) := by
  cases m with
  | list a =>
    exact (failsClean_writeCell a _ owner).bind_total fun h =>
      (total_items h).bind fun _ => total_setItems h _
  | array a => exact failsClean_editArray a owner fun _ => reads_pure _
  | set a => exact (failsClean_writeCell a _ owner).bind_total fun _ => total_modify _
  | map a => exact (reads_throw _).adds.failsClean

theorem failsClean_remove (m : Multi) (v : Value) : FailsClean (m.remove owner v) := by
  cases m with
  | list a =>
    refine (reads_readCell a _ owner).adds.failsClean.bind_total fun o => ?_
    cases o with
    | none => exact total_pure _
    | some h =>
      refine (total_items h).bind fun xs => ?_
      split
      · exact (total_setItems h _).bind fun _ => total_pure _
      · exact total_pure _
  | array a =>
    refine failsClean_editArray a owner fun xs => ?_
    split
    · exact reads_pure _
    · exact reads_pure _
  | set a =>
    refine (reads_readCell a _ owner).adds.failsClean.bind_total fun o => ?_
    cases o with
    | none => exact total_pure _
    | some h => exact total_step _
  | map a =>
    refine (reads_readCell a _ owner).adds.failsClean.bind_total fun o => ?_
    cases o with
    | none => exact total_pure _
    | some h =>
      refine total_store.bind fun st => ?_
      split
      · exact (total_step _).bind fun _ => total_pure _
      · exact total_pure _

theorem failsClean_clear (m : Multi) : FailsClean (m.clear owner) := by
  cases m with
  | list a | set a =>
    refine (reads_readCell a _ owner).adds.failsClean.bind_total fun o => ?_
    cases o with
    | none => exact total_pure _
    | some h => exact total_setItems h _
  | array a => exact failsClean_editArray a owner fun _ => reads_pure _
  | map a =>
    refine (reads_readCell a _ owner).adds.failsClean.bind_total fun o => ?_
    cases o with
    | none => exact total_pure _
    | some h => exact total_modify _

theorem failsClean_put (m : Multi) (k : Scalar) (v : Value) : FailsClean (m.put owner k v) := by
  cases m with
  | map a => exact (failsClean_writeCell a _ owner).bind_total fun _ => total_step _
  | _ => exact (reads_throw _).adds.failsClean

theorem failsClean_removeKey (m : Multi) (k : Scalar) : FailsClean (m.removeKey owner k) := by
  cases m with
  | map a =>
    refine (reads_readCell a _ owner).adds.failsClean.bind_total fun o => ?_
    cases o with
    | none => exact total_pure _
    | some h => exact total_step _
  | _ => exact (reads_throw _).adds.failsClean

/-- Every call but a list's indexed writes only allocates when it fails. -/
theorem failsClean_call (m : Multi) {c : Call} (hc : ∀ a, m = .list a → c.writesAtIndex = false) :
    FailsClean (m.call owner c) := by
  cases c with
  | iterate => exact (reads_iterate owner m).adds.failsClean.bind_total fun _ => total_pure _
  | size => exact (reads_size owner m).adds.failsClean.bind_total fun _ => total_pure _
  | add v => exact (failsClean_add owner m v).bind_total fun _ => total_pure _
  | remove v => exact (failsClean_remove owner m v).bind_total fun _ => total_pure _
  | clear => exact (failsClean_clear owner m).bind_total fun _ => total_pure _
  | getAt i => exact (reads_getAt owner m i).adds.failsClean.bind_total fun _ => total_pure _
  | indexOf v => exact (reads_indexOf owner m v).adds.failsClean.bind_total fun _ => total_pure _
  | entries => exact (reads_entries owner m).adds.failsClean.bind_total fun _ => total_pure _
  | getKey k => exact (reads_getKey owner m k).adds.failsClean.bind_total fun _ => total_pure _
  | put k v => exact (failsClean_put owner m k v).bind_total fun _ => total_pure _
  | removeKey k => exact (failsClean_removeKey owner m k).bind_total fun _ => total_pure _
  | setAt i v | insertAt i v | removeAt i =>
    refine FailsClean.bind_total ?_ fun _ => total_pure _
    cases m with
    | list a => exact nomatch hc a rfl
    | array a =>
      exact failsClean_editArray a owner fun _ => (reads_checkIndex _ _ _).bind fun _ =>
        reads_pure _
    | set a | map a => exact (reads_throw _).adds.failsClean

-- ============================================================ the list's indexed writes

variable {owner} {a : Accessor} {s s₁ s' : Store} {k : Handle} {e : AccessError}

/-- What a list's write path did when it succeeded: nothing, when the property held a list, or,
when it was null, allocate a fresh empty list and store it in the property. -/
theorem writeCell_list_ok (h : writeCell a "list" owner s = .ok k s₁) :
    s₁ = s ∨ (readCell a "list" owner s = .ok none s ∧
      a.set owner (.list s.size) (s.alloc (.list [])).1 = .ok () s₁) := by
  unfold writeCell at h
  cases hr : readCell a "list" owner s with
  | error e₁ s₂ => rw [bind_of_error hr] at h; cases h
  | ok o s₂ =>
    obtain rfl : s₂ = s := (reads_readCell a "list" owner).of_ok hr
    rw [bind_of_ok hr] at h
    cases o with
    | some k' => cases h; exact .inl rfl
    | none =>
      refine .inr ⟨rfl, ?_⟩
      simp only [beq_self_eq_true, if_true] at h
      have halloc : Access.step (·.alloc (Cell.list [])) s₂ =
          .ok s₂.size (s₂.alloc (.list [])).1 := rfl
      rw [bind_of_ok halloc] at h
      cases hset : a.set owner (.list s₂.size) (s₂.alloc (.list [])).1 with
      | ok u s₃ => rw [bind_of_ok hset] at h; cases h; rfl
      | error e₁ s₃ => rw [bind_of_error hset] at h; cases h

/-- A failure after a list's write path: the path itself failed, having at most allocated the
list, or it stored a fresh empty list in a null property and what came after failed. -/
theorem error_after_writeCell {β : Type} {f : Handle → Access β} (hf : ∀ k, FailsIntact (f k))
    (h : (writeCell a "list" owner >>= f) s = .error e s') :
    s.Grows s' ∨ (readCell a "list" owner s = .ok none s ∧
      a.set owner (.list s.size) (s.alloc (.list [])).1 = .ok () s') := by
  cases hw : writeCell a "list" owner s with
  | error e₁ s₁ =>
    rw [bind_of_error hw] at h
    cases h
    exact .inl (failsClean_writeCell a "list" owner s _ _ hw)
  | ok k s₁ =>
    rw [bind_of_ok hw] at h
    obtain rfl := hf k s₁ e s' h
    rcases writeCell_list_ok hw with rfl | hattach
    · exact .inl (.refl _)
    · exact .inr hattach

/-- Where a list's index check fails: at the property's own list, which the call leaves as it
was, or at a fresh empty list that its write path stored in a null property. -/
theorem list_writesAtIndex_error {c : Call} (hc : c.writesAtIndex = true)
    (h : (list a).call owner c s = .error e s') :
    s.Grows s' ∨ (readCell a "list" owner s = .ok none s ∧
      a.set owner (.list s.size) (s.alloc (.list [])).1 = .ok () s') := by
  cases c with
  | setAt i v =>
    refine error_after_writeCell (fun k => ?_) (error_of_bind_total (fun _ => total_pure _) h)
    exact FailsIntact.bind (reads_items k) fun _ =>
      (reads_checkIndex _ _ _).failsIntact.bind_total fun _ => total_setItems k _
  | insertAt i v =>
    refine error_after_writeCell (fun k => ?_) (error_of_bind_total (fun _ => total_pure _) h)
    exact FailsIntact.bind (reads_items k) fun _ =>
      (reads_checkIndex _ _ _).failsIntact.bind_total fun _ => total_setItems k _
  | removeAt i =>
    refine error_after_writeCell (fun k => ?_) (error_of_bind_total (fun _ => total_pure _) h)
    exact FailsIntact.bind (reads_items k) fun _ =>
      (reads_checkIndex _ _ _).failsIntact.bind_total fun _ =>
        (total_setItems k _).bind fun _ => total_pure _
  | _ => cases hc

-- ============================================================ over a field

section Field

variable {n : String} {dt : DataType} {modes : AccessModes} {shape : String} {v w : Value}

theorem field_get_ok (h : (Accessor.field n dt modes).get owner s = .ok v s') :
    ∃ o, owner = .object o ∧ v = s.field o n ∧ s' = s := by
  cases hr : modes.read with
  | false =>
    simp [Accessor.get, hr, bind, EStateM.bind, throw, throwThe, MonadExceptOf.throw,
      EStateM.throw] at h
  | true =>
    cases owner with
    | object o =>
      simp [Accessor.get, hr, Access.expectObject, bind, EStateM.bind, getThe, MonadStateOf.get,
        EStateM.get, pure, EStateM.pure] at h
      exact ⟨o, rfl, h.1.symm, h.2.symm⟩
    | _ =>
      simp [Accessor.get, hr, Access.expectObject, bind, EStateM.bind, throw, throwThe,
        MonadExceptOf.throw, EStateM.throw] at h

theorem field_set_ok (h : (Accessor.field n dt modes).set owner w s = .ok () s') :
    ∃ o, owner = .object o ∧ s' = s.setField o n w := by
  cases hw : modes.write with
  | false =>
    simp [Accessor.set, hw, bind, EStateM.bind, throw, throwThe, MonadExceptOf.throw,
      EStateM.throw] at h
  | true =>
    cases owner with
    | object o =>
      simp [Accessor.set, hw, Access.expectObject, bind, EStateM.bind, modify, modifyGet,
        MonadStateOf.modifyGet, EStateM.modifyGet, pure, EStateM.pure] at h
      exact ⟨o, rfl, h.symm⟩
    | _ =>
      simp [Accessor.set, hw, Access.expectObject, bind, EStateM.bind, throw, throwThe,
        MonadExceptOf.throw, EStateM.throw] at h

/-- A field reads as no container only when its owner is an object and the field holds null. -/
theorem readCell_field_none (h : readCell (.field n dt modes) shape owner s = .ok none s') :
    ∃ o, owner = .object o ∧ s.field o n = .null := by
  unfold readCell at h
  cases hg : (Accessor.field n dt modes).get owner s with
  | error e₁ s₁ => rw [bind_of_error hg] at h; cases h
  | ok v s₁ =>
    rw [bind_of_ok hg] at h
    obtain ⟨o, rfl, rfl, -⟩ := field_get_ok hg
    refine ⟨o, rfl, ?_⟩
    -- a container reads as itself or a shape error; anything else as none exactly when null
    cases hv : s.field o n with
    | list k | set k | map k => rw [hv] at h; dsimp only at h; split at h <;> cases h
    | _ =>
      rw [hv] at h
      dsimp only at h
      split at h
      · exact Value.eq_null_of_isNull ‹_›
      · cases h

end Field

theorem failed_call_keeps_cells_or_attaches_list {n : String} {dt : DataType}
    {modes : AccessModes} (m : Multi) (hm : m.accessor = .field n dt modes) (owner : Value)
    (c : Call) {s s' : Store} {e : AccessError} (h : m.call owner c s = .error e s') :
    s.Grows s' ∨
      (m = .list (.field n dt modes) ∧ c.writesAtIndex = true ∧
        ∃ o, owner = .object o ∧ s.field o n = .null ∧
          s' = (s.alloc (.list [])).1.setField o n (.list s.size)) := by
  by_cases hlist : ∃ a, m = .list a ∧ c.writesAtIndex = true
  · obtain ⟨a, rfl, hc⟩ := hlist
    obtain rfl : a = .field n dt modes := hm
    rcases list_writesAtIndex_error hc h with hgrows | ⟨hr, hset⟩
    · exact .inl hgrows
    · -- the property was null, and the write path stored the fresh list in it
      obtain ⟨o, rfl, hf⟩ := readCell_field_none hr
      obtain ⟨o', ho, rfl⟩ := field_set_ok hset
      cases ho
      exact .inr ⟨rfl, hc, o, rfl, hf, rfl⟩
  · refine .inl (failsClean_call owner m (fun a ha => ?_) s e s' h)
    simpa using fun hc => hlist ⟨a, ha, hc⟩

end Multi

namespace Sample

/-- A holder of one list field. -/
def holderType : ModelType := { name := "Holder", props := [.field "list" .list] }

/-- The holder's list, read and written through its field. -/
def holderList : Multi := .list (.field "list" .list .readWrite)

/-- A store of one holder, cell 0, whose list field holds null. -/
def nullListHolder : Store := { cells := #[.object ⟨holderType, [("list", .null)]⟩] }

/-- Setting element 0 of the null list: the write path stores a fresh list, cell 1, in the
field, and the index check then fails on its size 0. -/
theorem holder_setAt_run :
    holderList.call (.object 0) (.setAt 0 (.scalar (.string "x"))) nullListHolder =
      .error (.indexOutOfBounds "list" 0 0)
        ((nullListHolder.alloc (.list [])).1.setField 0 "list" (.list 1)) := by
  rfl

end Sample

/-- Setting an element of a holder's null list fails with an index error, and the holder's
field then holds a new empty list, not null. -/
theorem Multi.failed_setAt_attaches_list :
    Sample.holderList.call (.object 0) (.setAt 0 (.scalar (.string "x"))) Sample.nullListHolder =
      .error (.indexOutOfBounds "list" 0 0)
        ((Sample.nullListHolder.alloc (.list [])).1.setField 0 "list" (.list 1)) ∧
    ((Sample.nullListHolder.alloc (.list [])).1.setField 0 "list" (.list 1)).field 0 "list" ≠
      Sample.nullListHolder.field 0 "list" := by
  refine ⟨Sample.holder_setAt_run, ?_⟩
  intro hfield
  cases hfield

/-- The failed `setAt` on the holder's null list is the list case of the failure theorem. -/
theorem Multi.holder_setAt_failure_attaches :
    Sample.holderList.accessor = .field "list" .list .readWrite ∧
    Sample.holderList.call (.object 0) (.setAt 0 (.scalar (.string "x"))) Sample.nullListHolder =
      .error (.indexOutOfBounds "list" 0 0)
        ((Sample.nullListHolder.alloc (.list [])).1.setField 0 "list" (.list 1)) ∧
    (Sample.nullListHolder.Grows
        ((Sample.nullListHolder.alloc (.list [])).1.setField 0 "list" (.list 1)) ∨
      (Sample.holderList = .list (.field "list" .list .readWrite) ∧
        (Multi.Call.setAt 0 (.scalar (.string "x"))).writesAtIndex = true ∧
        ∃ o, Value.object 0 = .object o ∧ Sample.nullListHolder.field o "list" = .null ∧
          (Sample.nullListHolder.alloc (.list [])).1.setField 0 "list" (.list 1) =
            (Sample.nullListHolder.alloc (.list [])).1.setField o "list"
              (.list Sample.nullListHolder.size))) :=
  ⟨rfl, Sample.holder_setAt_run,
    Multi.failed_call_keeps_cells_or_attaches_list _ rfl _ _ Sample.holder_setAt_run⟩

end GraphViews

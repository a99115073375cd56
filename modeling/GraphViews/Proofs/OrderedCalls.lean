import Mathlib
import GraphViews.Proofs.CollectionCalls
import GraphViews.Proofs.Ordered
/-!
# Lists and arrays answer every call alike

A list property holds a shared list cell that calls edit in place; an array property holds its
elements by value, and a call that edits them copies the array, edits the copy, and writes it
back through the property. The main statement, `Multi.lists_and_arrays_answer_alike`, says that
over a list field and an array field of one name and one set of access modes that is not
read-only, holding the same elements, every sequence of calls gets the same answers, errors and
their fields included, and leaves the same elements after every step (`Multi.session`).

Read-only fields are the exception, and by design: the list's write path finds the list already
there and never stores, while the array must store its edited copy and is refused
(`Multi.readOnly_list_and_array_part`).

# How the proofs go

Both collections implement one sequence semantics, `Multi.Call.onElements`, which says from the
elements alone what a call answers and what the elements become. `Multi.answers_list` and
`Multi.answers_array` show that each collection answers as it says and leaves the new elements
in its own place (`Multi.ListHolds`, `Multi.ArrayHolds`); `Multi.Answers.alike` turns the two
into one step of a simulation, and `Multi.session_eq_of_simulation` runs the simulation over the
calls. A property that cannot be read refuses every call alike (`refuse_alike_unreadable`).
-/

namespace GraphViews

namespace Multi

open Access

/-- What a run answered, its store left out. -/
def answer {α : Type} : EStateM.Result AccessError Store α → Except AccessError α
  | .ok a _ => .ok a
  | .error e _ => .error e

/-- The sequence semantics of an ordered collection: what a call answers, and the elements it
leaves, from the elements alone. The index of an insertion may be the size. -/
def Call.onElements (name : String) (xs : List Value) :
    Call → Except AccessError (List Value × Reply)
  | .iterate => .ok (xs, .elements xs)
  | .size => .ok (xs, .count xs.length)
  | .add v => .ok (xs ++ [v], .done)
  | .remove v =>
    match xs.findIdx? (·.isSame v) with
    | some i => .ok (xs.eraseIdx i, .found true)
    | none => .ok (xs, .found false)
  | .clear => .ok ([], .done)
  | .getAt i =>
    if h : i < xs.length then .ok (xs, .element xs[i])
    else .error (.indexOutOfBounds name i xs.length)
  | .setAt i v =>
    if i < xs.length then .ok (xs.set i v, .done)
    else .error (.indexOutOfBounds name i xs.length)
  | .insertAt i v =>
    if i < xs.length + 1 then .ok (xs.insertIdx i v, .done)
    else .error (.indexOutOfBounds name i (xs.length + 1))
  | .removeAt i =>
    if h : i < xs.length then .ok (xs.eraseIdx i, .element xs[i])
    else .error (.indexOutOfBounds name i xs.length)
  | .indexOf v => .ok (xs, .index (xs.findIdx? (·.isSame v)))
  | .entries => .error (.unsupported name "entry iteration")
  | .getKey _ => .error (.unsupported name "keyed get")
  | .put _ _ => .error (.unsupported name "keyed put")
  | .removeKey _ => .error (.unsupported name "keyed remove")

/-- A run answered as `spec` says: on success with its reply, leaving the new elements held as
`R` says; on failure with its error, leaving the store as it was. -/
def Answers (R : List Value → Store → Prop) (spec : Except AccessError (List Value × Reply))
    (st : Store) : EStateM.Result AccessError Store Reply → Prop
  | .ok r st' => ∃ ys, spec = .ok (ys, r) ∧ R ys st'
  | .error e st' => spec = .error e ∧ st' = st

/-- The field names the list cell `h`, which holds `xs`. -/
def ListHolds (n : String) (o h : Handle) (xs : List Value) (st : Store) : Prop :=
  st.field o n = .list h ∧ st.cell? h = some (.list xs)

/-- The field holds the array `xs`. -/
def ArrayHolds (n : String) (o : Handle) (xs : List Value) (st : Store) : Prop :=
  st.field o n = .array xs

variable {n : String} {dt : DataType} {modes : AccessModes} {o h : Handle} {st : Store}
  {xs : List Value}

/-- A field that holds something other than null belongs to an object. -/
theorem Store.exists_instance?_of_field {s : Store} (hf : s.field o n ≠ .null) :
    ∃ inst, s.instance? o = some inst := by
  unfold Store.field Store.slot? at hf
  cases hi : s.instance? o with
  | none => simp [hi] at hf
  | some inst => exact ⟨inst, rfl⟩

theorem ListHolds.put (hl : ListHolds n o h xs st) (ys : List Value) :
    ListHolds n o h ys (st.put h (.list ys)) := by
  obtain ⟨hf, hc⟩ := hl
  obtain ⟨inst, hi⟩ := Store.exists_instance?_of_field (by rw [hf]; nofun)
  obtain ⟨-, hfield, hcell⟩ := Store.put_container hi hc (fun _ => nofun) (.list ys)
  exact ⟨(hfield n).trans hf, hcell⟩

theorem ArrayHolds.setField (ha : ArrayHolds n o xs st) (ys : List Value) :
    ArrayHolds n o ys (st.setField o n (.array ys)) := by
  have hf : st.field o n = .array xs := ha
  obtain ⟨inst, hi⟩ := Store.exists_instance?_of_field (by rw [hf]; nofun)
  exact Store.field_setField_self hi n _

-- ============================================================ each collection refines it

/-- The list edits its cell in place as the sequence semantics says. -/
theorem answers_list (hr : modes.read = true) (hl : ListHolds n o h xs st) (c : Call) :
    Answers (ListHolds n o h) (c.onElements n xs) st
      ((list (.field n dt modes)).call (.object o) c st) := by
  have hf := hl.1
  have hc := hl.2
  cases c with
  | iterate =>
    simp [Answers, call, Multi.iterate, capability, readCell_of_list hr hf, items, Store.items,
      hc, Call.onElements, bind, EStateM.bind, getThe, MonadStateOf.get, EStateM.get, pure,
      EStateM.pure, hl]
  | size =>
    simp [Answers, call, size_of_list hr hf hc, Call.onElements, bind, EStateM.bind, pure,
      EStateM.pure, hl]
  | add v =>
    simp [Answers, call, Multi.add, writeCell, readCell_of_list hr hf, items, Store.items, hc,
      setItems, Store.setItems, Call.onElements, bind, EStateM.bind, getThe, MonadStateOf.get,
      EStateM.get, pure, EStateM.pure, modify, modifyGet, MonadStateOf.modifyGet,
      EStateM.modifyGet, hl.put]
  | remove v =>
    cases hfind : xs.findIdx? (·.isSame v) with
    | none =>
      simp [Answers, call, Multi.remove, readCell_of_list hr hf, items, Store.items, hc, hfind,
        Call.onElements, bind, EStateM.bind, getThe, MonadStateOf.get, EStateM.get, pure,
        EStateM.pure, hl]
    | some i =>
      simp [Answers, call, Multi.remove, readCell_of_list hr hf, items, Store.items, hc, hfind,
        setItems, Store.setItems, Call.onElements, bind, EStateM.bind, getThe, MonadStateOf.get,
        EStateM.get, pure, EStateM.pure, modify, modifyGet, MonadStateOf.modifyGet,
        EStateM.modifyGet, hl.put]
  | clear =>
    simp [Answers, call, Multi.clear, readCell_of_list hr hf, hc, setItems, Store.setItems,
      Call.onElements, bind, EStateM.bind, pure, EStateM.pure, modify, modifyGet,
      MonadStateOf.modifyGet, EStateM.modifyGet, hl.put]
  | getAt i =>
    simp only [Answers, call, bind, EStateM.bind, getAt_of_list hr hf hc, Call.onElements]
    by_cases hi : i < xs.length
    · simp [hi, pure, EStateM.pure, hl]
    · simp [hi]
  | setAt i v =>
    simp [Answers, call, Multi.setAt, writeCell, readCell_of_list hr hf, items, Store.items, hc,
      setItems, Store.setItems, checkIndex, Call.onElements, bind, EStateM.bind, getThe,
      MonadStateOf.get, EStateM.get, pure, EStateM.pure, modify, modifyGet,
      MonadStateOf.modifyGet, EStateM.modifyGet, name, accessor, Accessor.name, throw, throwThe,
      MonadExceptOf.throw]
    by_cases hi : i < xs.length <;> simp [hi, EStateM.pure, EStateM.throw, hc, hl.put]
  | insertAt i v =>
    simp only [Answers, call, bind, EStateM.bind, insertAt_of_list hr hf hc, Call.onElements]
    by_cases hi : i < xs.length + 1 <;> simp [hi, pure, EStateM.pure, hl.put]
  | removeAt i =>
    simp only [Answers, call, bind, EStateM.bind, removeAt_of_list hr hf hc, Call.onElements]
    by_cases hi : i < xs.length <;> simp [hi, pure, EStateM.pure, hl.put]
  | indexOf v =>
    simp [Answers, call, indexOf, Multi.iterate, capability, readCell_of_list hr hf, items,
      Store.items, hc, Call.onElements, bind, EStateM.bind, getThe, MonadStateOf.get, EStateM.get,
      pure, EStateM.pure, hl]
  | entries | getKey _ | put _ _ | removeKey _ =>
    simp [Answers, call, entries, getKey, put, removeKey, Multi.unsupported, name, accessor,
      Accessor.name, Call.onElements, bind, EStateM.bind, throw, throwThe, MonadExceptOf.throw,
      EStateM.throw]

/-- The array edits a copy and writes it back as the sequence semantics says; a failed index
check stops the edit before the write. -/
theorem answers_array (hr : modes.read = true) (hw : modes.write = true)
    (ha : ArrayHolds n o xs st) (c : Call) :
    Answers (ArrayHolds n o) (c.onElements n xs) st
      ((array (.field n dt modes)).call (.object o) c st) := by
  have hf : st.field o n = .array xs := ha
  cases c with
  | iterate =>
    simp [Answers, call, Multi.iterate, readArray, get_field hr, hf, Call.onElements, bind,
      EStateM.bind, pure, EStateM.pure, ha]
  | size =>
    simp [Answers, call, Multi.size, Multi.iterate, readArray, get_field hr, hf, Call.onElements,
      bind, EStateM.bind, pure, EStateM.pure, ha]
  | add v =>
    simp [Answers, call, Multi.add, editArray, readArray, get_field hr, hf, Accessor.set, hw,
      Access.expectObject, Call.onElements, bind, EStateM.bind, pure, EStateM.pure, modify,
      modifyGet, MonadStateOf.modifyGet, EStateM.modifyGet, ha.setField]
  | remove v =>
    cases hfind : xs.findIdx? (·.isSame v) <;>
      simp [Answers, call, Multi.remove, editArray, readArray, get_field hr, hf, hfind,
        Accessor.set, hw, Access.expectObject, Call.onElements, bind, EStateM.bind, pure,
        EStateM.pure, modify, modifyGet, MonadStateOf.modifyGet, EStateM.modifyGet, ha.setField]
  | clear =>
    simp [Answers, call, Multi.clear, editArray, readArray, get_field hr, hf, Accessor.set, hw,
      Access.expectObject, Call.onElements, bind, EStateM.bind, pure, EStateM.pure, modify,
      modifyGet, MonadStateOf.modifyGet, EStateM.modifyGet, ha.setField]
  | getAt i =>
    simp [Answers, call, Multi.getAt, readArray, get_field hr, hf, checkIndex, name, accessor,
      Accessor.name, Call.onElements, bind, EStateM.bind, pure, EStateM.pure, throw, throwThe,
      MonadExceptOf.throw]
    by_cases hi : i < xs.length
    · simp only [hi, if_true, dite_true, EStateM.pure, List.getElem?_eq_getElem hi,
        Option.getD_some]
      exact ⟨xs, rfl, ha⟩
    · simp [hi, EStateM.throw]
  | setAt i v =>
    simp [Answers, call, Multi.setAt, editArray, readArray, get_field hr, hf, checkIndex, name,
      accessor, Accessor.name, Accessor.set, hw, Access.expectObject, Call.onElements, bind,
      EStateM.bind, pure, EStateM.pure, modify, modifyGet, MonadStateOf.modifyGet,
      EStateM.modifyGet, throw, throwThe, MonadExceptOf.throw]
    by_cases hi : i < xs.length <;> simp [hi, EStateM.pure, EStateM.throw, ha.setField]
  | insertAt i v =>
    simp [Answers, call, Multi.insertAt, editArray, readArray, get_field hr, hf, checkIndex, name,
      accessor, Accessor.name, Accessor.set, hw, Access.expectObject, Call.onElements, bind,
      EStateM.bind, pure, EStateM.pure, modify, modifyGet, MonadStateOf.modifyGet,
      EStateM.modifyGet, throw, throwThe, MonadExceptOf.throw]
    by_cases hi : i ≤ xs.length <;> simp [hi, EStateM.pure, EStateM.throw, ha.setField]
  | removeAt i =>
    simp [Answers, call, Multi.removeAt, editArray, readArray, get_field hr, hf, checkIndex, name,
      accessor, Accessor.name, Accessor.set, hw, Access.expectObject, Call.onElements, bind,
      EStateM.bind, pure, EStateM.pure, modify, modifyGet, MonadStateOf.modifyGet,
      EStateM.modifyGet, throw, throwThe, MonadExceptOf.throw]
    by_cases hi : i < xs.length <;> simp [hi, EStateM.pure, EStateM.throw, ha.setField]
  | indexOf v =>
    simp [Answers, call, indexOf, Multi.iterate, readArray, get_field hr, hf, Call.onElements,
      bind, EStateM.bind, pure, EStateM.pure, ha]
  | entries | getKey _ | put _ _ | removeKey _ =>
    simp [Answers, call, entries, getKey, put, removeKey, Multi.unsupported, name, accessor,
      Accessor.name, Call.onElements, bind, EStateM.bind, throw, throwThe, MonadExceptOf.throw,
      EStateM.throw]

/-- Two runs that answered as one semantics says, from the same elements, answered alike and
left the same elements. -/
theorem Answers.alike {R R' : List Value → Store → Prop}
    {spec : Except AccessError (List Value × Reply)} {s t : Store}
    {r r' : EStateM.Result AccessError Store Reply}
    (h : Answers R spec s r) (h' : Answers R' spec t r') (hs : R xs s) (ht : R' xs t) :
    answer r = answer r' ∧ ∃ ys, R ys (after r) ∧ R' ys (after r') := by
  cases r with
  | ok a s₁ =>
    cases r' with
    | ok a' t₁ =>
      obtain ⟨ys, hspec, hR⟩ := h
      obtain ⟨ys', hspec', hR'⟩ := h'
      rw [hspec] at hspec'
      cases hspec'
      exact ⟨rfl, ys, hR, hR'⟩
    | error e' t₁ =>
      obtain ⟨ys, hspec, -⟩ := h
      rw [hspec] at h'
      cases h'.1
  | error e s₁ =>
    cases r' with
    | ok a' t₁ =>
      obtain ⟨ys, hspec, -⟩ := h'
      rw [hspec] at h
      cases h.1
    | error e' t₁ =>
      -- both failed without touching their stores, which still hold `xs`
      obtain ⟨hspec, rfl⟩ := h
      obtain ⟨hspec', rfl⟩ := h'
      rw [hspec] at hspec'
      cases hspec'
      exact ⟨rfl, xs, hs, ht⟩

/-- On a property that cannot be read, a list and an array refuse every call with the same
error, and leave their stores as they were. -/
theorem refuse_alike_unreadable {dtL dtA : DataType} {oL oA : Handle} (hr : modes.read = false)
    (sL sA : Store) (c : Call) :
    ∃ e, (list (.field n dtL modes)).call (.object oL) c sL = .error e sL ∧
      (array (.field n dtA modes)).call (.object oA) c sA = .error e sA := by
  cases c <;>
    simp [call, Multi.iterate, Multi.size, Multi.add, Multi.remove, Multi.clear, Multi.getAt,
      Multi.setAt, Multi.insertAt, Multi.removeAt, indexOf, entries, getKey, put, removeKey,
      Multi.unsupported, name, accessor, Accessor.name, writeCell, readCell, readArray, editArray,
      Accessor.get, hr, bind, EStateM.bind, throw, throwThe, MonadExceptOf.throw, EStateM.throw]

-- ============================================================ every sequence of calls

/-- The answers to a sequence of calls, each with what iterating the collection then answers. -/
def session (m : Multi) (owner : Value) :
    List Call → Store → List (Except AccessError Reply × Except AccessError Reply)
  | [], _ => []
  | c :: cs, s =>
    (answer (m.call owner c s), answer (m.call owner .iterate (after (m.call owner c s)))) ::
      m.session owner cs (after (m.call owner c s))

/-- Two collections that answer each call alike from related stores, and leave related stores,
answer every sequence of calls alike. -/
theorem session_eq_of_simulation {m m' : Multi} {owner owner' : Value}
    (R : Store → Store → Prop)
    (hstep : ∀ c s t, R s t → answer (m.call owner c s) = answer (m'.call owner' c t) ∧
      R (after (m.call owner c s)) (after (m'.call owner' c t)))
    (cs : List Call) {s t : Store} (hR : R s t) :
    m.session owner cs s = m'.session owner' cs t := by
  induction cs generalizing s t with
  | nil => rfl
  | cons c cs ih =>
    obtain ⟨hanswer, hR'⟩ := hstep c s t hR
    simp only [session, hanswer, (hstep .iterate _ _ hR').1, ih hR']

theorem lists_and_arrays_answer_alike {dtL dtA : DataType} (hmodes : modes ≠ .readOnly)
    {oL oA : Handle} {sL sA : Store} (hL : sL.field oL n = .list h)
    (hc : sL.cell? h = some (.list xs)) (hA : sA.field oA n = .array xs) (calls : List Call) :
    (list (.field n dtL modes)).session (.object oL) calls sL =
      (array (.field n dtA modes)).session (.object oA) calls sA := by
  cases hr : modes.read with
  | false =>
    -- every call is refused alike and changes nothing
    refine session_eq_of_simulation (fun _ _ => True) (fun c s t _ => ?_) calls trivial
    obtain ⟨e, hl, ha⟩ := refuse_alike_unreadable hr s t c
    rw [hl, ha]
    exact ⟨rfl, trivial⟩
  | true =>
    have hw : modes.write = true := by
      cases hw : modes.write
      · exact absurd (by cases modes; simp_all [AccessModes.readOnly]) hmodes
      · rfl
    -- the list cell and the array hold the same elements after every call
    refine session_eq_of_simulation
      (fun s t => ∃ ys, ListHolds n oL h ys s ∧ ArrayHolds n oA ys t) (fun c s t hst => ?_) calls
      ⟨xs, ⟨hL, hc⟩, hA⟩
    obtain ⟨ys, hl, ha⟩ := hst
    exact (answers_list hr hl c).alike (answers_array hr hw ha c) hl ha

end Multi

namespace Sample

/-- A shelf's items, a field of the given shape and modes. -/
def shelfItems (dt : DataType) (modes : AccessModes) : PropertyDecl := ⟨"items", dt, modes, .field⟩

/-- A shelf type that declares its items with the given shape and modes. -/
def shelfType (dt : DataType) (modes : AccessModes) : ModelType :=
  { name := "Shelf", props := [shelfItems dt modes] }

/-- A shelf, cell 1, whose items are the list in cell 0, holding "a". -/
def listShelf (modes : AccessModes) : Store :=
  { cells := #[.list [.scalar (.string "a")],
      .object ⟨shelfType .list modes, [("items", .list 0)]⟩] }

/-- A shelf, cell 0, whose items are an array holding "a". -/
def arrayShelf (modes : AccessModes) : Store :=
  { cells := #[.object ⟨shelfType .array modes, [("items", .array [.scalar (.string "a")])]⟩] }

end Sample

/-- On read-only items, adding "b" succeeds in place for the list, whose write path never
stores, and is refused as not writable for the array, which must write its copy back. -/
theorem Multi.readOnly_list_and_array_part :
    (Multi.list (.ofDecl (Sample.shelfItems .list .readOnly))).session (.object 1)
        [.add (.scalar (.string "b"))] (Sample.listShelf .readOnly) ≠
      (Multi.array (.ofDecl (Sample.shelfItems .array .readOnly))).session (.object 0)
        [.add (.scalar (.string "b"))] (Sample.arrayShelf .readOnly) := by
  intro h
  cases h

/-- Read-write shelves answer a run of indexed calls alike, a failed removal included. -/
theorem Multi.shelf_lists_and_arrays_alike :
    AccessModes.readWrite ≠ .readOnly ∧
    (Sample.listShelf .readWrite).field 1 "items" = .list 0 ∧
    (Sample.listShelf .readWrite).cell? 0 = some (.list [.scalar (.string "a")]) ∧
    (Sample.arrayShelf .readWrite).field 0 "items" = .array [.scalar (.string "a")] ∧
    (Multi.list (.field "items" .list .readWrite)).session (.object 1)
        [.insertAt 1 (.scalar (.string "b")), .getAt 1, .removeAt 2, .setAt 0 .null, .size]
        (Sample.listShelf .readWrite) =
      (Multi.array (.field "items" .array .readWrite)).session (.object 0)
        [.insertAt 1 (.scalar (.string "b")), .getAt 1, .removeAt 2, .setAt 0 .null, .size]
        (Sample.arrayShelf .readWrite) :=
  ⟨by decide, rfl, rfl, rfl, Multi.lists_and_arrays_answer_alike (by decide) rfl rfl rfl _⟩

end GraphViews

import Mathlib
import GraphViews.Proofs.OrderedCalls
/-!
# A delimited text read and written as an array

The delimited coercion shows a text property as the array of its parts between a separator
character, and writes an array of texts back as the parts joined by the separator. The empty
text has no parts, so reading and writing are inverse except on a precise set of lists.

The main statement, `Delimited.texts_and_parts_round_trip`, says three things for every
separator:

* every text is the join of its own parts: writing what was read gives the text back;
* a list of texts is the parts of its own join exactly when no text contains the separator and
  the list is not the one empty text (`Delimited.Fits`);
* an array collection over a coerced text field answers every sequence of calls whose values
  are texts as an array field holding the parts would, exactly when every element list that
  the plain array shows along the way fits.

# How the proofs go

`splitAt` splits the characters as `List.splitOn` does (`splitAt_eq_splitOn`), so the two round
trips are `List.intercalate_splitOn` and `List.splitOn_intercalate`, with the empty text read
apart. An array collection touches its property only by reading the elements and writing the
edited elements back (`Multi.call_array_of_read`), so a coerced field and a plain field of one
name and one set of modes answer a call alike when they read the same elements; afterwards the
coerced field holds the join of what the plain one holds (`Multi.CoercedHolds`), which reads
back as the same elements exactly when they fit.
-/

namespace GraphViews

-- ============================================================ splitting and joining

theorem splitAt_eq_splitOn (sep : Char) (s : String) :
    splitAt sep s = (s.toList.splitOn sep).map String.ofList := by
  unfold splitAt
  generalize s.toList = l
  induction l with
  | nil => rfl
  | cons c l ih =>
    simp only [List.foldr_cons] at ih ⊢
    -- the split of the tail starts with the part the fold is still collecting
    obtain ⟨x, L, hL⟩ := List.exists_cons_of_ne_nil (List.splitOn_ne_nil sep l)
    rw [hL, List.map_cons, List.cons.injEq] at ih
    obtain ⟨hx, hL'⟩ := ih
    rw [List.splitOn_cons_eq_if_modifyHead, hL]
    cases c == sep
    · have hx' := congrArg String.toList hx
      simp only [String.toList_ofList] at hx'
      simp only [Bool.false_eq_true, if_false, List.modifyHead_cons, List.map_cons, hx', hL']
    · simp only [if_true, List.map_cons, hx, hL']

/-- No part of a split holds the separator. -/
theorem not_mem_of_mem_splitOn {sep : Char} :
    ∀ {l t : List Char}, t ∈ l.splitOn sep → sep ∉ t
  | [], t, ht => by simp_all
  | c :: l, t, ht => by
    rw [List.splitOn_cons_eq_if_modifyHead] at ht
    obtain ⟨x, L, hL⟩ := List.exists_cons_of_ne_nil (List.splitOn_ne_nil sep l)
    by_cases hc : c = sep
    · simp only [hc, beq_self_eq_true, if_true, List.mem_cons] at ht
      rcases ht with rfl | ht
      · simp
      · exact not_mem_of_mem_splitOn ht
    · have hc' : (c == sep) = false := by simpa using hc
      simp only [hc', Bool.false_eq_true, if_false, hL, List.modifyHead_cons,
        List.mem_cons] at ht
      rcases ht with rfl | ht
      · simp only [List.mem_cons, not_or]
        exact ⟨Ne.symm hc, not_mem_of_mem_splitOn (hL ▸ List.mem_cons_self)⟩
      · exact not_mem_of_mem_splitOn (hL ▸ List.mem_cons_of_mem x ht)

/-- The parts of a text joined by the separator give the text back. -/
theorem intercalate_splitAt (sep : Char) (s : String) :
    (String.singleton sep).intercalate (splitAt sep s) = s := by
  rw [← String.toList_inj, String.toList_intercalate, splitAt_eq_splitOn, List.map_map,
    String.toList_singleton]
  simp [Function.comp_def, List.intercalate_splitOn]

/-- Texts without the separator, joined by it, split back into themselves. -/
theorem splitAt_intercalate {sep : Char} {ts : List String} (hts : ∀ t ∈ ts, sep ∉ t.toList)
    (hne : ts ≠ []) : splitAt sep ((String.singleton sep).intercalate ts) = ts := by
  rw [splitAt_eq_splitOn, String.toList_intercalate, String.toList_singleton,
    List.splitOn_intercalate sep (by simpa using hts) (by simpa using hne), List.map_map]
  simp [Function.comp_def]

theorem not_mem_of_mem_splitAt {sep : Char} {s t : String} (ht : t ∈ splitAt sep s) :
    sep ∉ t.toList := by
  rw [splitAt_eq_splitOn] at ht
  obtain ⟨l, hl, rfl⟩ := List.mem_map.1 ht
  simpa using not_mem_of_mem_splitOn hl

namespace Delimited

/-- Texts as the scalars of an array. -/
def texts (ts : List String) : List Value := ts.map (.scalar ∘ .string)

/-- The texts joined by the separator. -/
def join (sep : Char) (ts : List String) : String := (String.singleton sep).intercalate ts

/-- The lists of texts that read back as themselves once joined: no text holds the
separator, and the list is not the one empty text, whose join is the empty text. -/
def Fits (sep : Char) (ts : List String) : Prop := (∀ t ∈ ts, sep ∉ t.toList) ∧ ts ≠ [""]

instance (sep : Char) (ts : List String) : Decidable (Fits sep ts) :=
  inferInstanceAs (Decidable ((∀ t ∈ ts, sep ∉ t.toList) ∧ ts ≠ [""]))

theorem texts_injective : Function.Injective texts := by
  intro ts us h
  unfold texts at h
  exact List.map_injective_iff.2 (fun a b hab => by simpa using hab) h

theorem toArray_string (sep : Char) (s : String) :
    toArray sep (.scalar (.string s)) = .ok (if s.isEmpty then [] else texts (splitAt sep s)) :=
  rfl

theorem ofArray_texts (sep : Char) (ts : List String) :
    ofArray sep (texts ts) = .ok (.scalar (.string (join sep ts))) := by
  have hpure : ts.mapM (fun t => (pure t : Except ConversionError String)) = pure ts := by
    simpa using List.mapM_pure (f := id) (l := ts)
  simp [ofArray, texts, List.mapM_map, Function.comp_def, Scalar.isNull, Scalar.text, hpure, join]
  rfl

/-- A text is the join of its parts. -/
theorem join_of_toArray {sep : Char} {s : String} {xs : List Value}
    (h : toArray sep (.scalar (.string s)) = .ok xs) :
    ∃ ts, xs = texts ts ∧ join sep ts = s := by
  rw [toArray_string] at h
  cases he : s.isEmpty with
  | true =>
    simp only [he, if_true, Except.ok.injEq] at h
    exact ⟨[], h.symm, by simp [join, (String.isEmpty_iff.1 he)]⟩
  | false =>
    simp only [he, Bool.false_eq_true, if_false, Except.ok.injEq] at h
    exact ⟨splitAt sep s, h.symm, intercalate_splitAt sep s⟩

/-- The join of a list reads back as the list exactly when the list fits. -/
theorem toArray_join_iff (sep : Char) (ts : List String) :
    toArray sep (.scalar (.string (join sep ts))) = .ok (texts ts) ↔ Fits sep ts := by
  rw [toArray_string]
  constructor
  · intro h
    cases he : (join sep ts).isEmpty with
    | true =>
      -- only the empty list reads back from the empty text
      simp only [he, if_true, Except.ok.injEq] at h
      have hts : ts = [] := by simpa [texts] using h.symm
      subst hts
      simp [Fits]
    | false =>
      simp only [he, Bool.false_eq_true, if_false, Except.ok.injEq] at h
      have hts := texts_injective h
      refine ⟨fun t ht => not_mem_of_mem_splitAt (hts ▸ ht), ?_⟩
      rintro rfl
      simp [join] at he
  · rintro ⟨hts, hone⟩
    cases he : (join sep ts).isEmpty with
    | true =>
      simp only [if_true, Except.ok.injEq]
      -- an empty join comes from no texts or from the one empty text
      by_contra hne
      have hsplit := splitAt_intercalate hts (fun h => hne (by simp [h, texts]))
      rw [show (String.singleton sep).intercalate ts = "" from String.isEmpty_iff.1 he] at hsplit
      exact hone (by simpa [splitAt] using hsplit.symm)
    | false =>
      simp only [Bool.false_eq_true, if_false]
      rw [join, splitAt_intercalate hts (by rintro rfl; simp [join] at he)]

/-- Every element of the list is a text. -/
theorem exists_texts {ys : List Value} (h : ∀ y ∈ ys, ∃ t, y = .scalar (.string t)) :
    ∃ ts, ys = texts ts := by
  induction ys with
  | nil => exact ⟨[], rfl⟩
  | cons y ys ih =>
    obtain ⟨t, rfl⟩ := h y List.mem_cons_self
    obtain ⟨ts, rfl⟩ := ih fun y hy => h y (List.mem_cons_of_mem _ hy)
    exact ⟨t :: ts, rfl⟩

end Delimited

namespace Multi

open Access Delimited

-- ============================================================ an array call, read and written back

/-- The calls that write the array back after editing it. -/
def Call.editsArray : Call → Bool
  | .add _ | .remove _ | .clear | .setAt .. | .insertAt .. | .removeAt _ => true
  | _ => false

/-- The values a call carries. -/
def Call.values : Call → List Value
  | .add v | .remove v | .setAt _ v | .insertAt _ v | .indexOf v | .put _ v => [v]
  | _ => []

/-- What an array collection does once it has read the elements `xs`: it answers as the
sequence semantics says, and a call that edits writes the new elements back. -/
def arrayStep (a : Accessor) (owner : Value) (xs : List Value) (c : Call) : Access Reply :=
  match c.onElements a.name xs with
  | .error e => throw e
  | .ok (ys, r) => if c.editsArray then do a.set owner (.array ys); pure r else pure r

variable {a b : Accessor} {owner owner' : Value} {s t : Store} {xs : List Value}
  {e : AccessError}

/-- An array collection reaches its property only through reading the elements and writing
the edited elements back. -/
theorem call_array_of_read (h : readArray a owner s = .ok xs s) (c : Call) :
    (array a).call owner c s = arrayStep a owner xs c s := by
  cases c with
  | iterate | size | indexOf v =>
    simp [call, arrayStep, Call.onElements, Call.editsArray, Multi.iterate, Multi.size, indexOf,
      bind, EStateM.bind, h, pure, EStateM.pure]
  | entries | getKey k | put k v | removeKey k =>
    simp [call, arrayStep, Call.onElements, entries, getKey, put, removeKey, Multi.unsupported,
      name, accessor, bind, EStateM.bind, throw, throwThe, MonadExceptOf.throw, EStateM.throw]
  | add v =>
    simp [call, arrayStep, Call.onElements, Call.editsArray, Multi.add, editArray, bind,
      EStateM.bind, h, pure, EStateM.pure]
    cases a.set owner (.array (xs ++ [v])) s <;> rfl
  | clear =>
    simp [call, arrayStep, Call.onElements, Call.editsArray, Multi.clear, editArray, bind,
      EStateM.bind, h, pure, EStateM.pure]
    cases a.set owner (.array []) s <;> rfl
  | remove v =>
    simp only [call, arrayStep, Call.onElements, Call.editsArray, Multi.remove, editArray, bind,
      EStateM.bind, h, pure, EStateM.pure]
    cases xs.findIdx? (·.isSame v) with
    | some i =>
      simp only [EStateM.pure, EStateM.bind, if_true]
      cases a.set owner (.array (xs.eraseIdx i)) s <;> rfl
    | none =>
      simp only [EStateM.pure, EStateM.bind, if_true]
      cases a.set owner (.array xs) s <;> rfl
  | getAt i =>
    simp only [call, arrayStep, Call.onElements, Multi.getAt, checkIndex, name, accessor, bind,
      EStateM.bind, h, pure, EStateM.pure]
    by_cases hi : i < xs.length <;>
      simp [hi, Call.editsArray, EStateM.pure, throw, throwThe, MonadExceptOf.throw, EStateM.throw]
  | removeAt i =>
    simp only [call, arrayStep, Call.onElements, Call.editsArray, Multi.removeAt, editArray,
      checkIndex, name, accessor, bind, EStateM.bind, h, pure, EStateM.pure]
    by_cases hi : i < xs.length
    · simp only [hi, dite_true, ↓reduceIte, EStateM.pure, EStateM.bind,
        List.getElem?_eq_getElem hi, Option.getD_some]
      cases a.set owner (.array (xs.eraseIdx i)) s <;> rfl
    · simp [hi, throw, throwThe, MonadExceptOf.throw, EStateM.throw]
  | setAt i v =>
    simp only [call, arrayStep, Call.onElements, Call.editsArray, Multi.setAt, editArray,
      checkIndex, name, accessor, bind, EStateM.bind, h, pure, EStateM.pure]
    by_cases hi : i < xs.length
    · simp only [hi, ↓reduceIte, EStateM.pure, EStateM.bind]
      cases a.set owner (.array (xs.set i v)) s <;> rfl
    · simp [hi, throw, throwThe, MonadExceptOf.throw, EStateM.throw]
  | insertAt i v =>
    simp only [call, arrayStep, Call.onElements, Call.editsArray, Multi.insertAt, editArray,
      checkIndex, name, accessor, bind, EStateM.bind, h, pure, EStateM.pure]
    by_cases hi : i < xs.length + 1
    · simp only [hi, ↓reduceIte, EStateM.pure, EStateM.bind]
      cases a.set owner (.array (xs.insertIdx i v)) s <;> rfl
    · simp [hi, throw, throwThe, MonadExceptOf.throw, EStateM.throw]

/-- Two array collections of one name whose reads fail alike refuse every call alike. -/
theorem call_array_alike_of_read_error (hname : a.name = b.name)
    (ha : readArray a owner s = .error e s) (hb : readArray b owner' t = .error e t) (c : Call) :
    ∃ e', (array a).call owner c s = .error e' s ∧ (array b).call owner' c t = .error e' t := by
  cases c <;>
    simp [call, Multi.iterate, Multi.size, Multi.add, Multi.remove, Multi.clear, Multi.getAt,
      Multi.setAt, Multi.insertAt, Multi.removeAt, indexOf, entries, getKey, put, removeKey,
      Multi.unsupported, name, accessor, editArray, bind, EStateM.bind, ha, hb, hname, throw,
      throwThe, MonadExceptOf.throw, EStateM.throw]

/-- An element a call leaves was there before or is one of the call's values. -/
theorem mem_onElements {name : String} {c : Call} {ys : List Value} {r : Reply}
    (h : c.onElements name xs = .ok (ys, r)) : ∀ y ∈ ys, y ∈ xs ∨ y ∈ c.values := by
  intro y hy
  cases c with
  | iterate | size | indexOf v =>
    simp only [Call.onElements, Except.ok.injEq, Prod.mk.injEq] at h
    exact .inl (h.1 ▸ hy)
  | add v =>
    simp only [Call.onElements, Except.ok.injEq, Prod.mk.injEq] at h
    rw [← h.1, List.mem_append, List.mem_singleton] at hy
    simpa [Call.values] using hy
  | remove v =>
    simp only [Call.onElements] at h
    split at h <;> simp only [Except.ok.injEq, Prod.mk.injEq] at h <;> rw [← h.1] at hy
    · exact .inl (List.mem_of_mem_eraseIdx hy)
    · exact .inl hy
  | clear =>
    simp only [Call.onElements, Except.ok.injEq, Prod.mk.injEq] at h
    simp [← h.1] at hy
  | getAt i =>
    simp only [Call.onElements] at h
    split at h
    · simp only [Except.ok.injEq, Prod.mk.injEq] at h
      exact .inl (h.1 ▸ hy)
    · cases h
  | setAt i v =>
    simp only [Call.onElements] at h
    split at h
    · simp only [Except.ok.injEq, Prod.mk.injEq] at h
      rw [← h.1] at hy
      rcases List.mem_or_eq_of_mem_set hy with hy | rfl
      · exact .inl hy
      · simp [Call.values]
    · cases h
  | insertAt i v =>
    simp only [Call.onElements] at h
    split at h
    · simp only [Except.ok.injEq, Prod.mk.injEq] at h
      rw [← h.1, List.mem_insertIdx (by omega)] at hy
      rcases hy with rfl | hy
      · simp [Call.values]
      · exact .inl hy
    · cases h
  | removeAt i =>
    simp only [Call.onElements] at h
    split at h
    · simp only [Except.ok.injEq, Prod.mk.injEq] at h
      exact .inl (List.mem_of_mem_eraseIdx (h.1 ▸ hy))
    · cases h
  | entries | getKey k | put k v | removeKey k => cases h

-- ============================================================ a coerced field beside a plain one

section Coerced

variable {n : String} {dt dtC dtP : DataType} {modes : AccessModes} {sep : Char} {o oP : Handle}
  {st stP : Store} {ts : List String}

/-- The coerced field holds the join of the texts that the plain field holds as its array. -/
def CoercedHolds (n : String) (sep : Char) (o oP : Handle) (ts : List String) (st stP : Store) :
    Prop :=
  st.field o n = .scalar (.string (join sep ts)) ∧ stP.field oP n = .array (texts ts)

theorem readArray_coercing (hr : modes.read = true) {s : String}
    (hf : st.field o n = .scalar (.string s)) (hx : toArray sep (.scalar (.string s)) = .ok xs) :
    readArray (.coercing (.field n dtC modes) sep) (.object o) st = .ok xs st := by
  simp [readArray, Accessor.get, hr, hf, hx, Access.expectObject, Value.isNull, Access.convert,
    bind, EStateM.bind, getThe, MonadStateOf.get, EStateM.get, pure, EStateM.pure]

theorem readArray_field (hr : modes.read = true) (hf : stP.field oP n = .array xs) :
    readArray (.field n dtP modes) (.object oP) stP = .ok xs stP := by
  simp [readArray, get_field hr, hf, bind, EStateM.bind, pure, EStateM.pure]

theorem readArray_field_unreadable (hr : modes.read = false) :
    readArray (.field n dt modes) owner st = .error (.notReadable n) st := by
  simp [readArray, Accessor.get, hr, bind, EStateM.bind, throw, throwThe, MonadExceptOf.throw,
    EStateM.throw]

theorem readArray_coercing_unreadable (hr : modes.read = false) :
    readArray (.coercing (.field n dtC modes) sep) owner st = .error (.notReadable n) st := by
  simp [readArray, Accessor.get, hr, bind, EStateM.bind, throw, throwThe, MonadExceptOf.throw,
    EStateM.throw]

/-- Writing texts through the coercion writes their join through the field. -/
theorem set_coercing_texts (owner : Value) (us : List String) :
    (Accessor.coercing (.field n dtC modes) sep).set owner (.array (texts us)) st =
      (Accessor.field n dtC modes).set owner (.scalar (.string (join sep us))) st := by
  simp [Accessor.set, ofArray_texts, Access.convert, bind, EStateM.bind, pure, EStateM.pure]

theorem set_field_unwritable (hw : modes.write = false) (v : Value) :
    (Accessor.field n dt modes).set owner v st = .error (.notWritable n) st := by
  simp [Accessor.set, hw, bind, EStateM.bind, throw, throwThe, MonadExceptOf.throw, EStateM.throw]

theorem CoercedHolds.setField (hh : CoercedHolds n sep o oP ts st stP) (us : List String) :
    CoercedHolds n sep o oP us (st.setField o n (.scalar (.string (join sep us))))
      (stP.setField oP n (.array (texts us))) := by
  obtain ⟨inst, hi⟩ := Store.exists_instance?_of_field (by rw [hh.1]; nofun)
  obtain ⟨instP, hiP⟩ := Store.exists_instance?_of_field (by rw [hh.2]; nofun)
  exact ⟨Store.field_setField_self hi n _, Store.field_setField_self hiP n _⟩

/-- One call with text values, on a coerced field and a plain field that read the same fitting
texts: the answers are the same, and afterwards the coerced field holds the join of the plain
field's texts; a field that cannot be read keeps its texts. -/
theorem CoercedHolds.step (dtC dtP : DataType) (modes : AccessModes)
    (hh : CoercedHolds n sep o oP ts st stP) (hfit : Fits sep ts) (c : Call)
    (hc : ∀ v ∈ c.values, ∃ t, v = .scalar (.string t)) :
    answer ((array (.coercing (.field n dtC modes) sep)).call (.object o) c st) =
        answer ((array (.field n dtP modes)).call (.object oP) c stP) ∧
      ∃ us, CoercedHolds n sep o oP us
          (after ((array (.coercing (.field n dtC modes) sep)).call (.object o) c st))
          (after ((array (.field n dtP modes)).call (.object oP) c stP)) ∧
        (modes.read = true ∨ us = ts) := by
  cases hr : modes.read with
  | false =>
    obtain ⟨e', hC, hP⟩ := call_array_alike_of_read_error
      (a := .coercing (.field n dtC modes) sep) (b := .field n dtP modes) rfl
      (readArray_coercing_unreadable hr) (readArray_field_unreadable hr) c
    rw [hC, hP]
    exact ⟨rfl, ts, hh, .inr rfl⟩
  | true =>
    -- both read the same texts, so both answer through one step
    rw [call_array_of_read (readArray_coercing hr hh.1 ((toArray_join_iff sep ts).2 hfit)),
      call_array_of_read (readArray_field hr hh.2)]
    simp only [arrayStep, Accessor.name]
    cases hspec : c.onElements n (texts ts) with
    | error e => exact ⟨rfl, ts, hh, .inr rfl⟩
    | ok p =>
      obtain ⟨ys, r⟩ := p
      dsimp only
      cases hed : c.editsArray with
      | false => exact ⟨rfl, ts, hh, .inr rfl⟩
      | true =>
        -- the new elements are texts, written back as their join
        obtain ⟨us, rfl⟩ := exists_texts fun y hy => by
          rcases mem_onElements hspec y hy with hy | hy
          · obtain ⟨t, -, rfl⟩ := List.mem_map.1 hy
            exact ⟨t, rfl⟩
          · exact hc y hy
        simp only [if_true, bind, EStateM.bind, set_coercing_texts]
        cases hw : modes.write with
        | false =>
          rw [set_field_unwritable hw, set_field_unwritable hw]
          exact ⟨rfl, ts, hh, .inr rfl⟩
        | true =>
          rw [Accessor.set_field_writable hw, Accessor.set_field_writable hw]
          exact ⟨rfl, us, hh.setField us, .inl (by simp)⟩

/-- What iterating shows after a call: the two fields show the same elements exactly when the
plain field's texts fit, and every list of texts the plain field shows fits exactly then. -/
theorem CoercedHolds.shows_iff (dtC dtP : DataType) (modes : AccessModes)
    (hh : CoercedHolds n sep o oP ts st stP) (hread : modes.read = true ∨ Fits sep ts) :
    (answer ((array (.coercing (.field n dtC modes) sep)).call (.object o) .iterate st) =
        answer ((array (.field n dtP modes)).call (.object oP) .iterate stP) ↔ Fits sep ts) ∧
      ((∀ us, answer ((array (.field n dtP modes)).call (.object oP) .iterate stP) =
          .ok (.elements (texts us)) → Fits sep us) ↔ Fits sep ts) := by
  cases hr : modes.read with
  | false =>
    -- both refuse, and the texts are still the fitting ones read before
    have hfit : Fits sep ts := hread.resolve_left (by simp [hr])
    obtain ⟨e', hC, hP⟩ := call_array_alike_of_read_error
      (a := .coercing (.field n dtC modes) sep) (b := .field n dtP modes) rfl
      (readArray_coercing_unreadable hr) (readArray_field_unreadable hr) .iterate
    rw [hC, hP]
    simp [answer, hfit]
  | true =>
    obtain ⟨xs, hx⟩ : ∃ xs, toArray sep (.scalar (.string (join sep ts))) = .ok xs :=
      ⟨_, toArray_string sep _⟩
    rw [call_array_of_read (readArray_coercing hr hh.1 hx),
      call_array_of_read (readArray_field hr hh.2)]
    simp only [arrayStep, Call.onElements, Call.editsArray, Bool.false_eq_true, ↓reduceIte, pure,
      EStateM.pure, answer, Except.ok.injEq, Reply.elements.injEq]
    refine ⟨?_, ⟨fun h => h ts rfl, fun hfit us hus => texts_injective hus ▸ hfit⟩⟩
    rw [← toArray_join_iff, hx, Except.ok.injEq]

/-- A coerced field and a plain array field answer a sequence of calls with text values alike
exactly when every list of texts the plain field shows along the way fits. -/
theorem CoercedHolds.session_iff (hh : CoercedHolds n sep o oP ts st stP) (hfit : Fits sep ts)
    (cs : List Call) (hcs : ∀ c ∈ cs, ∀ v ∈ c.values, ∃ t, v = .scalar (.string t)) :
    (array (.coercing (.field n dtC modes) sep)).session (.object o) cs st =
        (array (.field n dtP modes)).session (.object oP) cs stP ↔
      ∀ p ∈ (array (.field n dtP modes)).session (.object oP) cs stP,
        ∀ us, p.2 = .ok (.elements (texts us)) → Fits sep us := by
  induction cs generalizing ts st stP with
  | nil => simp [session]
  | cons c cs ih =>
    obtain ⟨hanswer, us, hh', hread⟩ := hh.step dtC dtP modes hfit c (hcs c List.mem_cons_self)
    obtain ⟨hsame, hshown⟩ :=
      hh'.shows_iff dtC dtP modes (hread.imp_right fun (h : us = ts) => h ▸ hfit)
    simp only [session, List.cons.injEq, Prod.mk.injEq, hanswer, true_and, List.forall_mem_cons]
    rw [hsame, hshown]
    -- once the texts stop fitting both sides fail at this call; while they fit, go on
    by_cases hus : Fits sep us
    · simp only [hus, true_and]
      exact ih hh' hus fun c hc => hcs c (List.mem_cons_of_mem _ hc)
    · simp [hus]

end Coerced

end Multi

open Delimited in
/-- The delimited coercion round trips. Every text is the join of its parts. A list of texts is
the parts of its join exactly when it fits: no text holds the separator, and it is not the one
empty text. And over a field holding a text, an array collection through the coercion answers
every sequence of calls with text values as an array field holding the text's parts does,
exactly when every list of texts that the plain array shows after a call fits. -/
theorem Delimited.texts_and_parts_round_trip (sep : Char) :
    (∀ s : String,
      (toArray sep (.scalar (.string s)) >>= ofArray sep) = .ok (.scalar (.string s))) ∧
    (∀ ts : List String,
      (ofArray sep (texts ts) >>= toArray sep) = .ok (texts ts) ↔ Fits sep ts) ∧
    ∀ (n : String) (dtC dtP : DataType) (modes : AccessModes) (o oP : Handle) (st stP : Store)
      (s : String) (xs : List Value) (cs : List Multi.Call),
      st.field o n = .scalar (.string s) → toArray sep (.scalar (.string s)) = .ok xs →
      stP.field oP n = .array xs →
      (∀ c ∈ cs, ∀ v ∈ c.values, ∃ t, v = .scalar (.string t)) →
      ((Multi.array (.coercing (.field n dtC modes) sep)).session (.object o) cs st =
          (Multi.array (.field n dtP modes)).session (.object oP) cs stP ↔
        ∀ p ∈ (Multi.array (.field n dtP modes)).session (.object oP) cs stP,
          ∀ us, p.2 = .ok (.elements (texts us)) → Fits sep us) := by
  refine ⟨fun s => ?_, fun ts => ?_, fun n dtC dtP modes o oP st stP s xs cs hC hx hP hcs => ?_⟩
  · obtain ⟨ts, hts, hjoin⟩ := join_of_toArray (toArray_string sep s)
    rw [toArray_string, hts]
    exact (ofArray_texts sep ts).trans (by rw [hjoin])
  · rw [ofArray_texts]
    exact toArray_join_iff sep ts
  · -- the field holds the join of its parts, which fit
    obtain ⟨ts, rfl, rfl⟩ := join_of_toArray hx
    exact Multi.CoercedHolds.session_iff ⟨hC, hP⟩ ((toArray_join_iff sep ts).1 hx) cs hcs

namespace Sample

/-- A shirt whose colours are one text. -/
def shirtType (dt : DataType) : ModelType :=
  { name := "Shirt", props := [⟨"colors", dt, .readWrite, .field⟩] }

/-- A shirt, cell 0, with the colours red and green as one text. -/
def colourShirt : Store :=
  { cells :=
      #[.object ⟨shirtType (.scalar .string), [("colors", .scalar (.string "red,green"))]⟩] }

/-- A shirt, cell 0, with the colours red and green as an array. -/
def arrayShirt : Store :=
  { cells := #[.object ⟨shirtType .array,
      [("colors", .array [.scalar (.string "red"), .scalar (.string "green")])]⟩] }

/-- Adding blue and taking out the first colour. -/
def colourCalls : List Multi.Call := [.add (.scalar (.string "blue")), .removeAt 0, .size]

end Sample

/-- The coerced colours of a shirt answer adding and removing colours as an array of them
does exactly when every list of colours shown along the way fits. -/
theorem Multi.shirt_colours_session_alike :
    Sample.colourShirt.field 0 "colors" = .scalar (.string "red,green") ∧
    Delimited.toArray ',' (.scalar (.string "red,green")) =
      .ok [.scalar (.string "red"), .scalar (.string "green")] ∧
    Sample.arrayShirt.field 0 "colors" =
      .array [.scalar (.string "red"), .scalar (.string "green")] ∧
    (∀ c ∈ Sample.colourCalls, ∀ v ∈ c.values, ∃ t, v = .scalar (.string t)) ∧
    ((Multi.array (.coercing (.field "colors" (.scalar .string) .readWrite) ',')).session
        (.object 0) Sample.colourCalls Sample.colourShirt =
      (Multi.array (.field "colors" .array .readWrite)).session (.object 0) Sample.colourCalls
        Sample.arrayShirt ↔
      ∀ p ∈ (Multi.array (.field "colors" .array .readWrite)).session (.object 0)
          Sample.colourCalls Sample.arrayShirt,
        ∀ us, p.2 = .ok (.elements (Delimited.texts us)) → Delimited.Fits ',' us) := by
  have hcs : ∀ c ∈ Sample.colourCalls, ∀ v ∈ c.values, ∃ t, v = .scalar (.string t) := by
    simp [Sample.colourCalls, Multi.Call.values]
  have hx : Delimited.toArray ',' (.scalar (.string "red,green")) =
      .ok [.scalar (.string "red"), .scalar (.string "green")] := by cbv
  exact ⟨rfl, hx, rfl, hcs, (Delimited.texts_and_parts_round_trip ',').2.2 "colors"
    (.scalar .string) .array .readWrite 0 0 _ _ "red,green" _ _ rfl hx rfl hcs⟩

end GraphViews

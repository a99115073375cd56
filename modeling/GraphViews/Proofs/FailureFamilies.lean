import Mathlib
import GraphViews.Binding.Apply
/-!
# The families of failures writing raises

An application promises that a failure of reading the view, a malformed stream, an unknown
property or a refused conversion (`ErrorCode.IsReading`), leaves the model as it was. Reading
runs before anything is written, so the promise rests on the other half: what writing can
raise. This module says it layer by layer, up to the reconciliation strategies.

`Ends P Q x` says how a state computation can end, from any state: with a result that `Q`
admits or with an error that `P` admits. It is closed under the monad's operations and the
list loops (`Ends.bind`, `Ends.foldlM`, `Ends.forIn`, `Ends.allM`, `Ends.findSomeM?`), so the
statement about a function follows its `do` block; `Raises P x` forgets the result.

* An accessor that neither converts nor coerces (`Accessor.plain`) raises no refused
  conversion, and neither does a collection operation over one (`Multi.raisesNoConversion`).
* Inside a run, such an access fails with an access error (`Run.access_raises`); listeners,
  new objects and resolvers fail with errors of their own families, none of them reading.
* A manager whose accessors are plain fails on every call only with errors of writing
  (`Manager.raisesWriting`), and so does every reconciliation strategy whose injections do
  (`Reconciler.toOne_raises`, `ordered_raises`, `unordered_raises`, `keyed_raises`).

Injection itself, which calls these, is treated with the application in `Atomicity`.
-/

namespace GraphViews

structure Ends {ε σ α : Type} (P : ε → Prop) (Q : α → Prop) (x : EStateM ε σ α) : Prop where
  ok : ∀ {s a s'}, x s = .ok a s' → Q a
  error : ∀ {s e s'}, x s = .error e s' → P e

/-- Every error `x` can raise is one `P` admits. -/
abbrev Raises {ε σ α : Type} (P : ε → Prop) (x : EStateM ε σ α) : Prop := Ends P (fun _ => True) x

namespace Ends

variable {ε σ α β γ : Type} {P : ε → Prop} {Q R : α → Prop}

theorem pure {a : α} (h : Q a) : Ends P Q (Pure.pure a : EStateM ε σ α) where
  ok hx := by cases hx; exact h
  error hx := by cases hx

theorem throw {e : ε} (h : P e) : Ends P Q (throw e : EStateM ε σ α) where
  ok hx := by cases hx
  error hx := by cases hx; exact h

theorem bind {Q' : β → Prop} {x : EStateM ε σ α} {k : α → EStateM ε σ β} (hx : Ends P Q x)
    (hk : ∀ a, Q a → Ends P Q' (k a)) : Ends P Q' (x >>= k) where
  ok {s b s''} h := by
    simp only [Bind.bind, EStateM.bind] at h
    cases hxs : x s with
    | ok a s' => rw [hxs] at h; exact (hk a (hx.ok hxs)).ok h
    | error e s' => rw [hxs] at h; cases h
  error {s e s''} h := by
    simp only [Bind.bind, EStateM.bind] at h
    cases hxs : x s with
    | ok a s' => rw [hxs] at h; exact (hk a (hx.ok hxs)).error h
    | error e' s' => rw [hxs] at h; cases h; exact hx.error hxs

theorem mono {P' : ε → Prop} {x : EStateM ε σ α} (hx : Ends P Q x) (hP : ∀ e, P e → P' e)
    (hQ : ∀ a, Q a → R a) : Ends P' R x where
  ok h := hQ _ (hx.ok h)
  error h := hP _ (hx.error h)

/-- A computation that always succeeds ends as its results allow. -/
theorem of_total {x : EStateM ε σ α} (hx : ∀ s, ∃ a s', x s = .ok a s' ∧ Q a) : Ends P Q x where
  ok {s a s'} h := by
    obtain ⟨b, s₁, h₁, hb⟩ := hx s
    rw [h₁] at h
    cases h
    exact hb
  error {s e s'} h := by
    obtain ⟨b, s₁, h₁, _⟩ := hx s
    rw [h₁] at h
    cases h

theorem get : Ends P (fun _ => True) (MonadStateOf.get : EStateM ε σ σ) :=
  of_total fun s => ⟨s, s, rfl, trivial⟩

theorem modify {f : σ → σ} : Ends P (fun _ => True) (modify f : EStateM ε σ PUnit) :=
  of_total fun s => ⟨⟨⟩, f s, rfl, trivial⟩

theorem modifyGet {f : σ → α × σ} : Ends P (fun _ => True) (modifyGet f : EStateM ε σ α) :=
  of_total fun s => ⟨(f s).1, (f s).2, rfl, trivial⟩

theorem foldlM {f : β → γ → EStateM ε σ β} {I : β → Prop} {l : List γ}
    (hf : ∀ b c, c ∈ l → I b → Ends P I (f b c)) {b : β} (hb : I b) : Ends P I (l.foldlM f b) := by
  induction l generalizing b with
  | nil => exact pure hb
  | cons c l ih =>
    exact bind (hf _ c List.mem_cons_self hb) fun _ hb' =>
      ih (fun b c' hc => hf b c' (List.mem_cons_of_mem c hc)) hb'

theorem forM {f : γ → EStateM ε σ PUnit} (hf : ∀ c, Ends P (fun _ => True) (f c)) :
    ∀ l : List γ, Ends P (fun _ => True) (l.forM f)
  | [] => pure trivial
  | c :: l => bind (hf c) fun _ _ => forM hf l

theorem ite {c : Prop} [Decidable c] {x y : EStateM ε σ α} (hx : c → Ends P Q x)
    (hy : ¬ c → Ends P Q y) : Ends P Q (if c then x else y) := by
  by_cases h : c
  · rw [if_pos h]; exact hx h
  · rw [if_neg h]; exact hy h

/-- A step that can only raise errors `P` admits, followed by the rest. -/
theorem seq {Q' : β → Prop} {x : EStateM ε σ α} {k : α → EStateM ε σ β}
    (hx : Ends P (fun _ => True) x) (hk : ∀ a, Ends P Q' (k a)) : Ends P Q' (x >>= k) :=
  bind hx fun a _ => hk a

theorem allM {p : γ → EStateM ε σ Bool} (hp : ∀ c, Raises P (p c)) :
    ∀ l : List γ, Raises P (l.allM p)
  | [] => pure trivial
  | c :: l => by
    simp only [List.allM]
    refine seq (hp c) fun b => ?_
    cases b
    · exact pure trivial
    · exact allM hp l

theorem forIn {f : γ → β → EStateM ε σ (ForInStep β)} (hf : ∀ c b, Raises P (f c b)) :
    ∀ (l : List γ) (b : β), Raises P (forIn l b f)
  | [], _ => pure trivial
  | c :: l, b => by
    rw [List.forIn_cons]
    refine seq (hf c b) fun r => ?_
    cases r with
    | done _ => exact pure trivial
    | yield b' => exact forIn hf l b'

theorem findSomeM? {f : γ → EStateM ε σ (Option β)} (hf : ∀ c, Raises P (f c)) :
    ∀ l : List γ, Raises P (l.findSomeM? f)
  | [] => pure trivial
  | c :: l => by
    rw [List.findSomeM?_cons]
    refine seq (hf c) fun r => ?_
    cases r with
    | some _ => exact pure trivial
    | none => exact findSomeM? hf l

end Ends

-- ============================================================ accessors that do not convert

/-- A refused conversion, raised inside an accessor. -/
def AccessError.Converts : AccessError → Prop
  | .conversion _ => True
  | _ => False

/-- The accessor neither converts nor coerces: the root, a field or a computed property. -/
def Accessor.plain : Accessor → Bool
  | .converting .. | .coercing .. => false
  | _ => true

theorem Access.expectObject_raises (n : String) (v : Value) :
    Raises (¬ ·.Converts) (Access.expectObject n v) := by
  unfold Access.expectObject
  split
  · exact Ends.pure trivial
  · exact Ends.throw id

namespace Accessor

variable {a : Accessor}

theorem get_raises (ha : a.plain = true) (v : Value) : Raises (¬ ·.Converts) (a.get v) := by
  cases a with
  | converting => cases ha
  | coercing => cases ha
  | _ =>
    simp only [get]
    repeat' first
      | exact Ends.pure trivial
      | exact Ends.get
      | exact Access.expectObject_raises _ _
      | exact Ends.throw (by simp [AccessError.Converts])
      | refine Ends.ite (fun _ => ?_) (fun _ => ?_)
      | refine Ends.seq ?_ fun _ => ?_
      | split

theorem set_raises (ha : a.plain = true) (target v : Value) : Raises (¬ ·.Converts) (a.set target v) := by
  cases a with
  | converting => cases ha
  | coercing => cases ha
  | _ =>
    simp only [set]
    repeat' first
      | exact Ends.pure trivial
      | exact Ends.modify
      | exact Access.expectObject_raises _ _
      | exact Ends.throw (by simp [AccessError.Converts])
      | refine Ends.ite (fun _ => ?_) (fun _ => ?_)
      | refine Ends.seq ?_ fun _ => ?_
      | split

end Accessor

namespace Multi

variable {m : Multi} {a : Accessor} {owner v : Value}

/-- Every collection operation over a plain accessor raises no conversion error. -/
theorem readCell_raises (ha : a.plain = true) (shape : String) :
    Raises (¬ ·.Converts) (readCell a shape owner) := by
  unfold readCell
  refine Ends.seq (a.get_raises ha owner) fun _ => ?_
  repeat' first
    | exact Ends.pure trivial
    | exact Ends.throw (by simp [AccessError.Converts])
    | refine Ends.ite (fun _ => ?_) (fun _ => ?_)
    | split

theorem writeCell_raises (ha : a.plain = true) (shape : String) :
    Raises (¬ ·.Converts) (writeCell a shape owner) := by
  unfold writeCell
  refine Ends.seq (readCell_raises ha shape) fun _ => ?_
  split
  · exact Ends.pure trivial
  · exact Ends.seq (Ends.modifyGet) fun _ => Ends.seq (a.set_raises ha _ _) fun _ => Ends.pure trivial

theorem readArray_raises (ha : a.plain = true) : Raises (¬ ·.Converts) (readArray a owner) := by
  unfold readArray
  refine Ends.seq (a.get_raises ha owner) fun _ => ?_
  repeat' first
    | exact Ends.pure trivial
    | exact Ends.throw (by simp [AccessError.Converts])
    | refine Ends.ite (fun _ => ?_) (fun _ => ?_)
    | split

/-- The operations the managers and injection call on a collection, each raising no refused
conversion. -/
structure RaisesNoConversion (m : Multi) : Prop where
  iterate : ∀ owner, Raises (¬ ·.Converts) (m.iterate owner)
  size : ∀ owner, Raises (¬ ·.Converts) (m.size owner)
  add : ∀ owner v, Raises (¬ ·.Converts) (m.add owner v)
  remove : ∀ owner v, Raises (¬ ·.Converts) (m.remove owner v)
  clear : ∀ owner, Raises (¬ ·.Converts) (m.clear owner)
  getAt : ∀ owner i, Raises (¬ ·.Converts) (m.getAt owner i)
  insertAt : ∀ owner i v, Raises (¬ ·.Converts) (m.insertAt owner i v)
  removeAt : ∀ owner i, Raises (¬ ·.Converts) (m.removeAt owner i)
  entries : ∀ owner, Raises (¬ ·.Converts) (m.entries owner)
  getKey : ∀ owner k, Raises (¬ ·.Converts) (m.getKey owner k)
  put : ∀ owner k v, Raises (¬ ·.Converts) (m.put owner k v)
  removeKey : ∀ owner k, Raises (¬ ·.Converts) (m.removeKey owner k)

theorem raisesNoConversion (ha : m.accessor.plain = true) : m.RaisesNoConversion := by
  cases m with
  | list a | array a | set a | map a =>
    constructor <;> intros <;>
      simp only [iterate, size, add, remove, clear, getAt, insertAt, removeAt, entries, getKey,
        put, removeKey, editArray, items, setItems, checkIndex, unsupported, capability] <;>
      repeat' first
        | exact Ends.pure trivial
        | exact Ends.get
        | exact Ends.modify
        | exact Ends.modifyGet
        | exact readCell_raises ha _
        | exact writeCell_raises ha _
        | exact readArray_raises ha
        | exact a.set_raises ha _ _
        | exact Ends.throw (by simp [AccessError.Converts])
        | refine Ends.ite (fun _ => ?_) (fun _ => ?_)
        | refine Ends.seq ?_ fun _ => ?_
        | split

end Multi

-- ============================================================ failures of writing

/-- The families of failures that reading a view raises: a malformed stream, an unknown
property, a refused conversion. -/
def ErrorCode.IsReading (c : ErrorCode) : Prop :=
  c = .malformedStream ∨ c = .unknownProperty ∨ c = .conversion

instance : DecidablePred ErrorCode.IsReading := fun c =>
  inferInstanceAs (Decidable (c = _ ∨ c = _ ∨ c = _))

/-- A failure of no family that reading raises. -/
def ViewError.Writing (e : ViewError) : Prop := ¬ e.kind.code.IsReading

namespace Run

variable {α : Type} {ctx : Context} {Q : α → Prop}

theorem fail_raises {k : ViewErrorKind} (hk : ¬ k.code.IsReading) :
    Ends ViewError.Writing Q (Run.fail ctx k : Run α) :=
  Ends.throw hk

/-- An access that raises no refused conversion fails, inside a run, with an access error. -/
theorem access_raises {x : Access α} (hx : Raises (¬ ·.Converts) x) :
    Raises ViewError.Writing (Run.access ctx x) where
  ok _ := trivial
  error {s e s'} h := by
    simp only [Run.access] at h
    split at h
    · cases h
    · rename_i err st hx'
      cases h
      have hc := hx.error hx'
      cases err <;> simp_all [ViewError.Writing, Context.error, ViewErrorKind.code,
        ErrorCode.IsReading, AccessError.Converts]

theorem store_raises : Raises ViewError.Writing Run.store := Ends.seq Ends.get fun _ => Ends.pure trivial

theorem modifyStore_raises (f : Store → Store) : Raises ViewError.Writing (Run.modifyStore f) :=
  Ends.modify

theorem note_raises (entry : String) : Raises ViewError.Writing (Run.note entry) := Ends.modify

theorem record_raises (e : LogEntry) : Raises ViewError.Writing (Run.record e) := Ends.modify

end Run

namespace Context

variable (ctx : Context)

theorem shouldVisit_raises (n : Node) : Raises ViewError.Writing (ctx.shouldVisit n) := by
  refine Ends.allM (fun l => ?_) _
  split
  · exact Ends.ite (fun _ => Ends.seq (Run.record_raises _) fun _ => Ends.pure trivial)
      fun _ => Ends.pure trivial
  · exact Ends.pure trivial

theorem nodeVisited_raises (n : Node) : Raises ViewError.Writing (ctx.nodeVisited n) := by
  refine Ends.forM (fun l => ?_) _
  split
  · exact Ends.ite (fun _ => Run.record_raises _) fun _ => Ends.pure trivial
  · exact Ends.pure trivial

/-- Telling the listeners of an object never fails. -/
theorem notify_raises (n : Notice) (f : Listener → Run Unit) (hf : ∀ l, Raises ViewError.Writing (f l)) :
    Raises ViewError.Writing
      (modify (fun s : RunState => { s with notices := s.notices ++ [n] }) >>= fun _ =>
        ctx.listeners.forM f) :=
  Ends.seq Ends.modify fun _ => Ends.forM hf _

theorem entityCreated_raises (h : Handle) : Raises ViewError.Writing (ctx.entityCreated h) := by
  refine ctx.notify_raises _ _ fun l => ?_
  split
  · exact Ends.modify
  · exact Ends.seq Ends.get fun _ => Ends.seq Ends.modify fun _ => Run.record_raises _
  · exact Ends.pure trivial

theorem entityDiscarded_raises (h : Handle) : Raises ViewError.Writing (ctx.entityDiscarded h) := by
  refine ctx.notify_raises _ _ fun l => ?_
  split
  · exact Ends.modify
  · exact Ends.seq Ends.get fun _ => Ends.seq Ends.modify fun _ => Run.record_raises _
  · exact Ends.pure trivial

theorem newInstance_raises (t : ModelType) : Raises ViewError.Writing (ctx.newInstance t) := by
  unfold newInstance
  repeat' first
    | exact Ends.pure trivial
    | exact Ends.modifyGet
    | exact Run.fail_raises (by simp [ViewErrorKind.code, ErrorCode.IsReading])
    | refine Ends.ite (fun _ => ?_) (fun _ => ?_)
    | split

theorem resolveReference_raises (t : ModelType) (e : Entity) :
    Raises ViewError.Writing (ctx.resolveReference t e) := by
  unfold resolveReference
  repeat' first
    | exact Ends.pure trivial
    | exact Run.store_raises
    | exact Run.note_raises _
    | exact Run.fail_raises (by simp [ViewErrorKind.code, ErrorCode.IsReading])
    | refine Ends.ite (fun _ => ?_) (fun _ => ?_)
    | refine Ends.seq ?_ fun _ => ?_
    | split

end Context

namespace Manager

/-- A manager whose accessors neither convert nor coerce. Factory managers work on raw
properties. -/
def Plain : Manager → Prop
  | field a _ => a.plain = true
  | collection _ m _ => m.accessor.plain = true
  | journaled .. => True

/-- The calls reconciliation makes on a manager, each failing only with an error of writing. -/
structure RaisesWriting (m : Manager) : Prop where
  begin : ∀ ctx, Raises ViewError.Writing (m.begin ctx)
  finish : ∀ ctx, Raises ViewError.Writing (m.finish ctx)
  getOne : ∀ ctx owner, Raises ViewError.Writing (m.getOne ctx owner)
  setOne : ∀ ctx owner a, Raises ViewError.Writing (m.setOne ctx owner a)
  size : ∀ ctx owner, Raises ViewError.Writing (m.size ctx owner)
  getAt : ∀ ctx owner i, Raises ViewError.Writing (m.getAt ctx owner i)
  addAt : ∀ ctx owner i v, Raises ViewError.Writing (m.addAt ctx owner i v)
  removeAt : ∀ ctx owner i, Raises ViewError.Writing (m.removeAt ctx owner i)
  iterate : ∀ ctx owner, Raises ViewError.Writing (m.iterate ctx owner)
  add : ∀ ctx owner v, Raises ViewError.Writing (m.add ctx owner v)
  remove : ∀ ctx owner v, Raises ViewError.Writing (m.remove ctx owner v)
  entries : ∀ ctx owner, Raises ViewError.Writing (m.entries ctx owner)
  getKey : ∀ ctx owner k, Raises ViewError.Writing (m.getKey ctx owner k)
  put : ∀ ctx owner k v, Raises ViewError.Writing (m.put ctx owner k v)
  removeKey : ∀ ctx owner k, Raises ViewError.Writing (m.removeKey ctx owner k)

theorem raisesWriting {m : Manager} (hm : m.Plain) : m.RaisesWriting := by
  have hmulti : ∀ {c mm ids}, m = collection c mm ids → mm.RaisesNoConversion := by
    rintro c mm ids rfl
    exact Multi.raisesNoConversion hm
  cases m with
  | field a ids =>
    constructor <;> intros <;>
      simp only [begin, finish, getOne, setOne, size, getAt, addAt, removeAt, iterate, add, remove,
        entries, getKey, put, removeKey] <;>
      repeat' first
        | exact Ends.pure trivial
        | exact Run.access_raises (a.get_raises hm _)
        | exact Run.access_raises (a.set_raises hm _ _)
        | exact Run.fail_raises (by simp [ViewErrorKind.code, ErrorCode.IsReading])
        | refine Ends.seq ?_ fun _ => ?_
        | split
  | collection c mm ids =>
    have hmm := hmulti rfl
    constructor <;> intros <;>
      simp only [begin, finish, getOne, setOne, size, getAt, addAt, removeAt, iterate, add, remove,
        entries, getKey, put, removeKey] <;>
      repeat' first
        | exact Ends.pure trivial
        | exact Run.access_raises (mm.accessor.get_raises hm _)
        | exact Run.access_raises (mm.accessor.set_raises hm _ _)
        | exact Run.access_raises (hmm.size _)
        | exact Run.access_raises (hmm.getAt _ _)
        | exact Run.access_raises (hmm.insertAt _ _ _)
        | exact Run.access_raises (hmm.removeAt _ _)
        | exact Run.access_raises (hmm.iterate _)
        | exact Run.access_raises (hmm.add _ _)
        | exact Run.access_raises (hmm.remove _ _)
        | exact Run.access_raises (hmm.entries _)
        | exact Run.access_raises (hmm.getKey _ _)
        | exact Run.access_raises (hmm.put _ _ _)
        | exact Run.access_raises (hmm.removeKey _ _)
        | exact Run.fail_raises (by simp [ViewErrorKind.code, ErrorCode.IsReading])
        | refine Ends.seq ?_ fun _ => ?_
        | split
  | journaled f serial d =>
    constructor <;> intros <;>
      simp only [begin, finish, getOne, setOne, size, getAt, addAt, removeAt, iterate, add, remove,
        entries, getKey, put, removeKey, listOf, mapOf, wrongShape] <;>
      repeat' first
        | exact Ends.pure trivial
        | exact Ends.modifyGet
        | exact Run.store_raises
        | exact Run.note_raises _
        | exact Run.modifyStore_raises _
        | exact Run.fail_raises (by simp [ViewErrorKind.code, ErrorCode.IsReading])
        | refine Ends.ite (fun _ => ?_) (fun _ => ?_)
        | refine Ends.seq ?_ fun _ => ?_
        | split

end Manager

/-- The manager of a plain node is plain, and finding it fails only with an error of writing. -/
theorem Node.manager_ends {n : Node} (ha : ∀ a ∈ n.accessor, a.plain = true)
    (hm : ∀ m ∈ n.multi, m.accessor.plain = true) (ctx : Context) (d : Descriptor) :
    Ends ViewError.Writing Manager.Plain (n.manager ctx d) := by
  have hcreate : ∀ f : ManagerFactory, Ends ViewError.Writing Manager.Plain (f.create d) := by
    intro f
    unfold ManagerFactory.create
    refine Ends.seq Ends.modifyGet fun _ => Ends.seq (Run.note_raises _) fun _ => ?_
    exact Ends.ite (fun _ => Ends.seq (Run.note_raises _) fun _ => Ends.pure trivial)
      fun _ => Ends.pure trivial
  unfold Node.manager
  dsimp only
  repeat' first
    | exact hcreate _
    | exact Ends.pure (ha _ ‹_›)
    | exact Ends.pure (hm _ ‹_›)
    | exact Run.fail_raises (by simp [ViewErrorKind.code, ErrorCode.IsReading])
    | refine Ends.ite (fun _ => ?_) (fun _ => ?_)
    | refine Ends.seq ?_ fun _ => ?_
    | split

namespace Reconciler

/-- A reconciler whose injections fail only with errors of writing. -/
def InjectsWriting (r : Reconciler) : Prop := ∀ c e h, Raises ViewError.Writing (r.inject c e h)

variable {r : Reconciler} {m : Manager} {ctx : Context} {owner : Value}

theorem obtain_raises (ctx : Context) (e : Entity) : Raises ViewError.Writing (r.obtain ctx e) :=
  Ends.ite (fun _ => ctx.resolveReference_raises _ _) fun _ => ctx.newInstance_raises _

theorem entityOf_raises (ctx : Context) (st : Staged) : Raises ViewError.Writing (entityOf ctx st) := by
  unfold entityOf
  split
  · exact Ends.pure trivial
  · exact Ends.pure trivial
  · exact Ends.pure trivial
  · exact Run.fail_raises (by simp [ViewErrorKind.code, ErrorCode.IsReading])

theorem findFrom_raises (hm : m.RaisesWriting) (e : Entity) (start size : Nat) :
    Raises ViewError.Writing (findFrom m ctx owner e start size) := by
  refine Ends.findSomeM? (fun i => Ends.seq (hm.getAt _ _ _) fun v => ?_) _
  split
  · exact Ends.seq Run.store_raises fun _ => Ends.ite (fun _ => Ends.pure trivial) fun _ => Ends.pure trivial
  · exact Ends.pure trivial

theorem discardFrom_raises (hm : m.RaisesWriting) (from_ : Nat) :
    ∀ fuel, Raises ViewError.Writing (discardFrom m ctx owner from_ fuel)
  | 0 => Ends.pure trivial
  | fuel + 1 => by
    unfold discardFrom
    repeat' first
      | exact Ends.pure trivial
      | exact hm.size _ _
      | exact hm.removeAt _ _ _
      | exact ctx.entityDiscarded_raises _
      | exact discardFrom_raises hm from_ fuel
      | refine Ends.ite (fun _ => ?_) (fun _ => ?_)
      | refine Ends.seq ?_ fun _ => ?_
      | split

theorem toOne_raises (hr : r.InjectsWriting) (hm : m.RaisesWriting) (staged : Staged) :
    Raises ViewError.Writing (r.toOne m ctx owner staged) := by
  unfold toOne
  repeat' first
    | exact Ends.pure trivial
    | exact hm.begin _
    | exact hm.finish _
    | exact hm.getOne _ _
    | exact hm.setOne _ _ _
    | exact hr _ _ _
    | exact obtain_raises _ _
    | exact Run.store_raises
    | exact Context.entityCreated_raises _ _
    | exact Context.entityDiscarded_raises _ _
    | exact Run.fail_raises (by simp [ViewErrorKind.code, ErrorCode.IsReading])
    | refine Ends.seq ?_ fun _ => ?_
    | split
    | dsimp only

theorem ordered_raises (hr : r.InjectsWriting) (hm : m.RaisesWriting) (elements : List Staged) :
    Raises ViewError.Writing (r.ordered m ctx owner elements) := by
  unfold ordered
  repeat' first
    | exact Ends.pure trivial
    | exact hm.begin _
    | exact hm.finish _
    | exact hm.size _ _
    | exact hm.removeAt _ _ _
    | exact hm.addAt _ _ _ _
    | exact hm.iterate _ _
    | exact hm.add _ _ _
    | exact hm.remove _ _ _
    | exact hm.entries _ _
    | exact hm.getKey _ _ _
    | exact hm.put _ _ _ _
    | exact hm.removeKey _ _ _
    | exact hr _ _ _
    | exact findFrom_raises hm _ _ _
    | exact discardFrom_raises hm _ _
    | exact obtain_raises _ _
    | exact entityOf_raises _ _
    | exact Run.store_raises
    | exact Context.entityCreated_raises _ _
    | exact Context.entityDiscarded_raises _ _
    | exact Run.fail_raises (by simp [ViewErrorKind.code, ErrorCode.IsReading])
    | refine Ends.foldlM (fun _ _ _ _ => ?_) trivial
    | refine Ends.forIn (fun _ _ => ?_) _ _
    | refine Ends.ite (fun _ => ?_) (fun _ => ?_)
    | refine Ends.seq ?_ fun _ => ?_
    | split

theorem unordered_raises (hr : r.InjectsWriting) (hm : m.RaisesWriting) (elements : List Staged) :
    Raises ViewError.Writing (r.unordered m ctx owner elements) := by
  unfold unordered
  repeat' first
    | exact Ends.pure trivial
    | exact hm.begin _
    | exact hm.finish _
    | exact hm.size _ _
    | exact hm.removeAt _ _ _
    | exact hm.addAt _ _ _ _
    | exact hm.iterate _ _
    | exact hm.add _ _ _
    | exact hm.remove _ _ _
    | exact hm.entries _ _
    | exact hm.getKey _ _ _
    | exact hm.put _ _ _ _
    | exact hm.removeKey _ _ _
    | exact hr _ _ _
    | exact findFrom_raises hm _ _ _
    | exact discardFrom_raises hm _ _
    | exact obtain_raises _ _
    | exact entityOf_raises _ _
    | exact Run.store_raises
    | exact Context.entityCreated_raises _ _
    | exact Context.entityDiscarded_raises _ _
    | exact Run.fail_raises (by simp [ViewErrorKind.code, ErrorCode.IsReading])
    | refine Ends.foldlM (fun _ _ _ _ => ?_) trivial
    | refine Ends.forIn (fun _ _ => ?_) _ _
    | refine Ends.ite (fun _ => ?_) (fun _ => ?_)
    | refine Ends.seq ?_ fun _ => ?_
    | split

theorem keyed_raises (hr : r.InjectsWriting) (hm : m.RaisesWriting)
    (entries : List (Scalar × Staged)) :
    Raises ViewError.Writing (r.keyed m ctx owner entries) := by
  unfold keyed keyed.replace
  repeat' first
    | exact Ends.pure trivial
    | exact hm.begin _
    | exact hm.finish _
    | exact hm.size _ _
    | exact hm.removeAt _ _ _
    | exact hm.addAt _ _ _ _
    | exact hm.iterate _ _
    | exact hm.add _ _ _
    | exact hm.remove _ _ _
    | exact hm.entries _ _
    | exact hm.getKey _ _ _
    | exact hm.put _ _ _ _
    | exact hm.removeKey _ _ _
    | exact hr _ _ _
    | exact findFrom_raises hm _ _ _
    | exact discardFrom_raises hm _ _
    | exact obtain_raises _ _
    | exact entityOf_raises _ _
    | exact Run.store_raises
    | exact Context.entityCreated_raises _ _
    | exact Context.entityDiscarded_raises _ _
    | exact Run.fail_raises (by simp [ViewErrorKind.code, ErrorCode.IsReading])
    | refine Ends.foldlM (fun _ _ _ _ => ?_) trivial
    | refine Ends.forIn (fun _ _ => ?_) _ _
    | refine Ends.ite (fun _ => ?_) (fun _ => ?_)
    | refine Ends.seq ?_ fun _ => ?_
    | split
    | dsimp only

end Reconciler

end GraphViews

import Mathlib
import GraphViews.Proofs.Keyed
/-!
# Reconciling one associate

To-one reconciliation leaves the association alone for an unchanged staged value, without
calling the manager. Otherwise it opens the manager's bracket with begin, reads the current
associate, and then:
* for null, clears the association and announces the previous associate discarded, if there
  was one;
* for an entity, injects it into the current associate when the manager judges that one its
  associate, setting nothing and telling nothing beyond what the injection tells; otherwise it
  obtains a new or resolved associate, injects the entity into it, sets it, and announces the
  previous associate discarded, if any, and then the new one created;
* for any other staged value, fails with a type mismatch before anything changes.
It closes the bracket with end.

The statement is made against a contract (`Manager.ToOneLaws`) that says what reading and
setting do to the association, and that reading succeeds wherever the association is well
formed. The engine's field manager (`toOneLaws_field`) and a factory's manager of a named
association (`toOneLaws_journaled`) keep it. The bracket is seen in the journal, where a factory
manager records its calls: its begin comes first and its end last, each once, with its one set
between them unless the entity updated the live associate in place (`toOne_journal`). A refused
begin is the call's error, with nothing else done (`toOne_begin_error`). The read comes right
after begin: a refused read is the call's error (`toOne_read_error`), and since a factory
manager journals no read, its refused read shows the order, with its begin last in the journal
(`toOne_journal_read_error`). A type mismatch comes after a begin that succeeds
(`toOne_mismatch`).
-/

namespace GraphViews

-- ============================================================ the contract of a to-one manager

/-- What a to-one manager does to the associate `live` sees: begin and end keep the store and the
notices; reading succeeds wherever the association is well formed, returns its associate and
changes nothing; setting makes `live` see the new associate, tells nothing and never shrinks
the store; a new object leaves the association as it was. -/
structure Manager.ToOneLaws (m : Manager) (owner : Value)
    (live : Store → Option (Option Handle)) : Prop where
  begin : ∀ c, Run.Keeps (m.begin c)
  finish : ∀ c, Run.Keeps (m.finish c)
  getOne : ∀ {c s x}, live s.store = some x → m.getOne c owner s = .ok x s
  setOne : ∀ {c s a s' x}, live s.store = some x → m.setOne c owner a s = .ok () s' →
    live s'.store = some a ∧ s'.notices = s.notices ∧ s.store.size ≤ s'.store.size
  newObject : ∀ {st x} t, live st = some x → live (st.newObject t).1 = some x

-- ============================================================ what the journal records

/-- A successful run of `x` leaves the journal as it was. -/
def Run.KeepsJournal {α : Type} (x : Run α) : Prop :=
  ∀ s a s', x s = .ok a s' → s'.journal = s.journal

namespace Run.KeepsJournal

theorem bind {α β : Type} {x : Run α} {k : α → Run β} (hx : KeepsJournal x)
    (hk : ∀ a, KeepsJournal (k a)) : KeepsJournal (x >>= k) := by
  intro s b s'' h
  obtain ⟨a, s', h₁, h₂⟩ := Run.bind_ok h
  exact (hk a s' b s'' h₂).trans (hx s a s' h₁)

theorem forM {α : Type} {f : α → Run Unit} (hf : ∀ a, KeepsJournal (f a)) :
    ∀ xs : List α, KeepsJournal (xs.forM f) := by
  intro xs
  induction xs with
  | nil =>
    intro s a s' h
    cases h
    rfl
  | cons a xs ih => exact bind (hf a) fun _ => ih

end Run.KeepsJournal

namespace Context

variable {ctx : Context} {h : Handle}

theorem entityCreated_keepsJournal : Run.KeepsJournal (ctx.entityCreated h) := by
  refine Run.KeepsJournal.bind (fun s a s' h => by cases h; rfl) fun _ => ?_
  exact Run.KeepsJournal.forM (fun l => by cases l <;> exact fun s a s' h => by cases h; rfl) _

theorem entityDiscarded_keepsJournal : Run.KeepsJournal (ctx.entityDiscarded h) := by
  refine Run.KeepsJournal.bind (fun s a s' h => by cases h; rfl) fun _ => ?_
  exact Run.KeepsJournal.forM (fun l => by cases l <;> exact fun s a s' h => by cases h; rfl) _

end Context

namespace Manager

variable {f : ManagerFactory} {serial : Nat} {d : Descriptor} {ctx : Context}
  {s s' : RunState}

theorem begin_keeps (m : Manager) (ctx : Context) : Run.Keeps (m.begin ctx) := by
  cases m with
  | journaled f serial d =>
    refine Run.Keeps.bind Run.Keeps.note fun _ => ?_
    cases f.failBegin
    · exact Run.Keeps.pure ()
    · exact Run.Keeps.fail
  | _ => exact Run.Keeps.pure ()

theorem finish_keeps (m : Manager) (ctx : Context) : Run.Keeps (m.finish ctx) := by
  cases m with
  | journaled f serial d =>
    refine Run.Keeps.bind Run.Keeps.note fun _ => ?_
    cases f.failEnd
    · exact Run.Keeps.pure ()
    · exact Run.Keeps.fail
  | _ => exact Run.Keeps.pure ()

theorem begin_journaled (h : (journaled f serial d).begin ctx s = .ok () s') :
    s' = { s with journal := s.journal.push (entry f serial "begin") } := by
  obtain ⟨u, s₁, h₁, h₂⟩ := Run.bind_ok h
  cases h₁
  cases hf : f.failBegin
  · simp only [hf] at h₂
    cases h₂
    rfl
  · simp only [hf] at h₂
    cases h₂

theorem finish_journaled (h : (journaled f serial d).finish ctx s = .ok () s') :
    s' = { s with journal := s.journal.push (entry f serial "end") } := by
  obtain ⟨u, s₁, h₁, h₂⟩ := Run.bind_ok h
  cases h₁
  cases hf : f.failEnd
  · simp only [hf] at h₂
    cases h₂
    rfl
  · simp only [hf] at h₂
    cases h₂

theorem setOne_journaled {owner : Value} {a : Option Handle}
    (h : (journaled f serial d).setOne ctx owner a s = .ok () s') :
    ∃ D, s'.journal = s.journal.push (entry f serial ("set " ++ D)) := by
  obtain ⟨st, s₁, h₁, h₂⟩ := Run.bind_ok h
  cases h₁
  obtain ⟨u, s₂, h₃, h₄⟩ := Run.bind_ok h₂
  cases h₃
  cases owner with
  | object o =>
    cases h₄
    exact ⟨_, rfl⟩
  | _ => cases h₄

/-- A factory manager refuses to read a container that is neither an object nor null, and the
refusal changes nothing. -/
theorem getOne_journaled_error {owner v : Value} (hv : container d s.store owner = v)
    (hobj : v.object? = none) (hnull : v.isNull = false) :
    ∃ err, (journaled f serial d).getOne ctx owner s = .error err s := by
  have hrun : (journaled f serial d).getOne ctx owner s =
      (wrongShape ctx d "object" v : Run (Option Handle)) s := by
    cases v with
    | object h => cases hobj
    | _ =>
      simp only [getOne, Run.store, bind, EStateM.bind, get, getThe, MonadStateOf.get,
        EStateM.get, pure, EStateM.pure, hv]
      simp_all
  exact ⟨_, hrun⟩

end Manager

namespace Reconciler

variable {r : Reconciler} {ctx : Context}

/-- An owned associate is a new object, which journals nothing. -/
theorem obtain_keepsJournal (hr : r.reference = false) (e : Entity) :
    Run.KeepsJournal (r.obtain ctx e) := by
  intro s a s' h
  simp only [obtain, hr, Bool.false_eq_true, if_false] at h
  obtain ⟨u, -, hs'⟩ := Context.newInstance_ok h
  rw [hs']

end Reconciler

-- ============================================================ one associate, case by case

namespace Reconciler

variable {m : Manager} {owner : Value} {live : Store → Option (Option Handle)}
  {ctx : Context} {r : Reconciler} {s s' : RunState} {x : Option Handle}

/-- Opening the bracket and reading the associate: begin keeps the store and the notices, and
the rest of the call goes on from the associate the manager holds. -/
theorem bracket_ok (hm : m.ToOneLaws owner live) (hL : live s.store = some x)
    {K : Option Handle → Run Unit}
    (hrun : (m.begin ctx >>= fun _ => m.getOne ctx owner >>= K) s = .ok () s') :
    ∃ s₁, m.begin ctx s = .ok () s₁ ∧ s₁.store = s.store ∧ s₁.notices = s.notices ∧
      K x s₁ = .ok () s' := by
  obtain ⟨u, s₁, h₁, h₂⟩ := Run.bind_ok hrun
  obtain ⟨hst₁, hn₁⟩ := hm.begin ctx s u s₁ h₁
  obtain ⟨cur, s₂, h₃, h₄⟩ := Run.bind_ok h₂
  rw [hm.getOne (hst₁ ▸ hL)] at h₃
  cases h₃
  exact ⟨s₁, h₁, hst₁, hn₁, h₄⟩

/-- Clearing the association: it ends empty, and the previous associate, if there was one, is
announced discarded. -/
theorem toOne_null (hm : m.ToOneLaws owner live) (hL : live s.store = some x)
    (hrun : r.toOne m ctx owner .null s = .ok () s') :
    live s'.store = some none ∧ s'.notices = s.notices ++ x.toList.map .discarded := by
  obtain ⟨s₁, -, hst₁, hn₁, h₄⟩ := bracket_ok hm hL hrun
  obtain ⟨u, s₃, h₅, h₆⟩ := Run.bind_ok h₄
  obtain ⟨hl₃, hn₃, -⟩ := hm.setOne (hst₁ ▸ hL) h₅
  cases x with
  | none =>
    obtain ⟨hst₄, hn₄⟩ := hm.finish ctx s₃ () s' h₆
    exact ⟨hst₄ ▸ hl₃, by rw [hn₄, hn₃, hn₁]; simp⟩
  | some old =>
    obtain ⟨u, s₄, h₇, h₈⟩ := Run.bind_ok h₆
    obtain ⟨hst₄, hn₄⟩ := Context.entityDiscarded_ok h₇
    obtain ⟨hst₅, hn₅⟩ := hm.finish ctx s₄ () s' h₈
    exact ⟨by rw [hst₅, hst₄]; exact hl₃, by rw [hn₅, hn₄, hn₃, hn₁]; simp⟩

/-- Replacing the associate: a new or resolved one is obtained, injected and set; only the
injection tells anything. -/
theorem obtain_setOne_ok (hm : m.ToOneLaws owner live) (hr : r.Framed live)
    (hL : live s.store = some x) {e : Entity} {K : Handle → Run Unit}
    (hrun : (do
      let a ← r.obtain ctx e
      r.inject ctx e a
      m.setOne ctx owner (some a)
      K a) s = .ok () s') :
    ∃ a told s₃, K a s₃ = .ok () s' ∧ live s₃.store = some (some a) ∧ r.Tells a told ∧
      s₃.notices = s.notices ++ told ∧ (r.reference = false → s.store.size ≤ a) := by
  obtain ⟨a, s₁, h₁, h₂⟩ := Run.bind_ok hrun
  have hl₁ := live_obtain hm.newObject hL h₁
  obtain ⟨hn₁, -⟩ := obtain_ok h₁
  obtain ⟨u, s₂, h₃, h₄⟩ := Run.bind_ok h₂
  obtain ⟨told, ht, hl₂, hn₂, -⟩ := hr.inject hl₁ h₃
  obtain ⟨u, s₃, h₅, h₆⟩ := Run.bind_ok h₄
  obtain ⟨hl₃, hn₃, -⟩ := hm.setOne hl₂ h₅
  exact ⟨a, told, s₃, h₆, hl₃, ht, by rw [hn₃, hn₂, hn₁],
    fun hown => (obtain_owned_fresh hown h₁).1⟩

/-- An entity updates the current associate in place, telling nothing beyond what injecting it
tells, when the manager judges it the entity's in the store the call starts from; otherwise a new
or resolved associate is injected and set, and after what the injection told the previous one is
announced discarded and then the new one created. -/
theorem toOne_entity (hm : m.ToOneLaws owner live) (hr : r.Framed live)
    (hL : live s.store = some x) {t : ModelType} {ps : List (String × Staged)}
    (hrun : r.toOne m ctx owner (.entity t ps) s = .ok () s') :
    if x.any (m.isSame s.store · ⟨t, ps⟩) then live s'.store = some x ∧
      ∃ h told, x = some h ∧ r.Tells h told ∧ s'.notices = s.notices ++ told
    else ∃ a told, live s'.store = some (some a) ∧ r.Tells a told ∧
      s'.notices = s.notices ++ told ++ x.toList.map .discarded ++ [.created a] ∧
      (r.reference = false → s.store.size ≤ a) := by
  obtain ⟨s₁, -, hst₁, hn₁, h₄⟩ := bracket_ok hm hL hrun
  obtain ⟨st, s₃, h₅, h₆⟩ := Run.bind_ok h₄
  cases h₅
  cases x with
  | none =>
    obtain ⟨a, told, s₃, h₇, hl₃, ht, hn₃, hfresh⟩ := obtain_setOne_ok hm hr (hst₁ ▸ hL) h₆
    obtain ⟨u, s₄, h₈, h₉⟩ := Run.bind_ok h₇
    obtain ⟨hst₄, hn₄⟩ := Context.entityCreated_ok h₈
    obtain ⟨hst₅, hn₅⟩ := hm.finish ctx s₄ () s' h₉
    simp only [Option.any_none, Bool.false_eq_true, if_false]
    exact ⟨a, told, by rw [hst₅, hst₄]; exact hl₃, ht, by rw [hn₅, hn₄, hn₃, hn₁]; simp,
      fun hown => hst₁ ▸ hfresh hown⟩
  | some old =>
    dsimp only at h₆
    cases hs : m.isSame s₁.store old ⟨t, ps⟩ with
    | true =>
      -- the live associate is the entity's: it is updated in place
      rw [hs] at h₆
      obtain ⟨u, s₄, h₇, h₈⟩ := Run.bind_ok h₆
      obtain ⟨told, ht, hl₄, hn₄, -⟩ := hr.inject (hst₁ ▸ hL) h₇
      obtain ⟨hst₅, hn₅⟩ := hm.finish ctx s₄ () s' h₈
      rw [Option.any_some, ← hst₁, hs, if_pos rfl]
      exact ⟨hst₅ ▸ hl₄, old, told, rfl, ht, by rw [hn₅, hn₄, hn₁]⟩
    | false =>
      rw [hs] at h₆
      obtain ⟨a, told, s₃, h₇, hl₃, ht, hn₃, hfresh⟩ := obtain_setOne_ok hm hr (hst₁ ▸ hL) h₆
      obtain ⟨u, s₄, h₈, h₉⟩ := Run.bind_ok h₇
      obtain ⟨hst₄, hn₄⟩ := Context.entityDiscarded_ok h₈
      obtain ⟨u, s₅, h₁₀, h₁₁⟩ := Run.bind_ok h₉
      obtain ⟨hst₅, hn₅⟩ := Context.entityCreated_ok h₁₀
      obtain ⟨hst₆, hn₆⟩ := hm.finish ctx s₅ () s' h₁₁
      rw [Option.any_some, ← hst₁, hs, if_neg Bool.false_ne_true]
      exact ⟨a, told, by rw [hst₆, hst₅, hst₄]; exact hl₃, ht,
        by rw [hn₆, hn₅, hn₄, hn₃, hn₁]; simp, fun hown => hst₁ ▸ hfresh hown⟩

/-- Nothing but an entity, null or unchanged can be reconciled with one associate: once the
bracket is open and the associate read, the call fails with a type mismatch, before anything
changes. -/
theorem toOne_mismatch (hm : m.ToOneLaws owner live) (hL : live s.store = some x) {st : Staged}
    (he : st.entity? = none) (hnull : st ≠ .null) (hun : st ≠ .unchanged) {s₁ : RunState}
    (hb : m.begin ctx s = .ok () s₁) :
    r.toOne m ctx owner st s = .error (ctx.error (.typeMismatch "object" st.shapeName)) s₁ ∧
      s₁.store = s.store ∧ s₁.notices = s.notices := by
  obtain ⟨hst₁, hn₁⟩ := hm.begin ctx s () s₁ hb
  have hg : m.getOne ctx owner s₁ = .ok x s₁ := hm.getOne (hst₁ ▸ hL)
  refine ⟨?_, hst₁, hn₁⟩
  cases st with
  | unchanged => exact absurd rfl hun
  | null => exact absurd rfl hnull
  | entity t ps => cases he
  | _ =>
    simp only [toOne, bind, EStateM.bind, hb, hg]
    rfl

/-- The bracket opens first: a refused begin is the call's error, with nothing else done. -/
theorem toOne_begin_error {st : Staged} (hun : st ≠ .unchanged) {err : ViewError}
    {s₁ : RunState} (hb : m.begin ctx s = .error err s₁) :
    r.toOne m ctx owner st s = .error err s₁ := by
  cases st with
  | unchanged => exact absurd rfl hun
  | _ => simp only [toOne, bind, EStateM.bind, hb]

/-- The read comes next: it is made in the state begin leaves, and a refused read is the call's
error, with nothing else done. -/
theorem toOne_read_error {st : Staged} (hun : st ≠ .unchanged) {err : ViewError}
    {s₁ s₂ : RunState} (hb : m.begin ctx s = .ok () s₁)
    (hg : m.getOne ctx owner s₁ = .error err s₂) :
    r.toOne m ctx owner st s = .error err s₂ := by
  cases st with
  | unchanged => exact absurd rfl hun
  | _ => simp only [toOne, bind, EStateM.bind, hb, hg]

-- ============================================================ the bracket in the journal

/-- Replacing the associate through a factory manager journals the set, where obtaining and
injecting journal nothing. -/
theorem obtain_setOne_journal {f : ManagerFactory} {serial : Nat} {d : Descriptor}
    (hobtain : ∀ e, Run.KeepsJournal (r.obtain ctx e))
    (hinject : ∀ e h, Run.KeepsJournal (r.inject ctx e h)) {e : Entity} {K : Handle → Run Unit}
    (hrun : (do
      let a ← r.obtain ctx e
      r.inject ctx e a
      (Manager.journaled f serial d).setOne ctx owner (some a)
      K a) s = .ok () s') :
    ∃ a s₃ D, K a s₃ = .ok () s' ∧
      s₃.journal = s.journal.push (Manager.entry f serial ("set " ++ D)) := by
  obtain ⟨a, s₁, h₁, h₂⟩ := Run.bind_ok hrun
  obtain ⟨u, s₂, h₃, h₄⟩ := Run.bind_ok h₂
  obtain ⟨u, s₃, h₅, h₆⟩ := Run.bind_ok h₄
  obtain ⟨D, hj₃⟩ := Manager.setOne_journaled h₅
  refine ⟨a, s₃, D, h₆, ?_⟩
  rw [hj₃, hinject e a s₁ u s₂ h₃, hobtain e s a s₁ h₁]

/-- What a factory manager's begin leaves of the journal: the journal before, and its begin. -/
theorem begin_journal_toList {f : ManagerFactory} {serial : Nat} {d : Descriptor}
    {s₁ : RunState} (h : (Manager.journaled f serial d).begin ctx s = .ok () s₁) :
    s₁.journal.toList = s.journal.toList ++ [Manager.entry f serial "begin"] := by
  rw [Manager.begin_journaled h]
  simp

/-- What a factory manager's finish leaves of the journal: the journal before, and its end. -/
theorem finish_journal_toList {f : ManagerFactory} {serial : Nat} {d : Descriptor}
    {s₄ : RunState} (h : (Manager.journaled f serial d).finish ctx s₄ = .ok () s') :
    s'.journal.toList = s₄.journal.toList ++ [Manager.entry f serial "end"] := by
  rw [Manager.finish_journaled h]
  simp

section Journal

variable {f : ManagerFactory} {serial : Nat} {d : Descriptor}

/-- Clearing through a factory manager journals its begin, its set and its end. -/
theorem toOne_journal_null (hm : (Manager.journaled f serial d).ToOneLaws owner live)
    (hL : live s.store = some x)
    (hrun : r.toOne (.journaled f serial d) ctx owner .null s = .ok () s') :
    ∃ D, s'.journal.toList = s.journal.toList ++ [Manager.entry f serial "begin",
      Manager.entry f serial ("set " ++ D), Manager.entry f serial "end"] := by
  obtain ⟨s₁, h₁, -, -, h₂⟩ := bracket_ok hm hL hrun
  obtain ⟨u, s₂, h₃, h₄⟩ := Run.bind_ok h₂
  obtain ⟨D, hj₂⟩ := Manager.setOne_journaled h₃
  -- a discarded notice journals nothing
  obtain ⟨s₃, h₅, hj₃⟩ : ∃ s₃, (Manager.journaled f serial d).finish ctx s₃ = .ok () s' ∧
      s₃.journal = s₂.journal := by
    cases x with
    | none => exact ⟨s₂, h₄, rfl⟩
    | some old =>
      obtain ⟨u, s₃, h₅, h₆⟩ := Run.bind_ok h₄
      exact ⟨s₃, h₆, Context.entityDiscarded_keepsJournal _ _ _ h₅⟩
  refine ⟨D, ?_⟩
  rw [finish_journal_toList h₅, hj₃, hj₂, Array.toList_push, begin_journal_toList h₁]
  simp

/-- An entity through a factory manager journals its begin and its end, with its set between
them unless the live associate is updated in place, where obtaining and injecting journal
nothing. -/
theorem toOne_journal_entity (hm : (Manager.journaled f serial d).ToOneLaws owner live)
    (hL : live s.store = some x) (hobtain : ∀ e, Run.KeepsJournal (r.obtain ctx e))
    (hinject : ∀ e h, Run.KeepsJournal (r.inject ctx e h)) {t : ModelType}
    {ps : List (String × Staged)}
    (hrun : r.toOne (.journaled f serial d) ctx owner (.entity t ps) s = .ok () s') :
    if x.any ((Manager.journaled f serial d).isSame s.store · ⟨t, ps⟩) then
      s'.journal.toList = s.journal.toList ++
        [Manager.entry f serial "begin", Manager.entry f serial "end"]
    else ∃ D, s'.journal.toList = s.journal.toList ++ [Manager.entry f serial "begin",
      Manager.entry f serial ("set " ++ D), Manager.entry f serial "end"] := by
  obtain ⟨s₁, h₁, hst₁, -, h₂⟩ := bracket_ok hm hL hrun
  obtain ⟨st, s₂, h₃, h₄⟩ := Run.bind_ok h₂
  cases h₃
  cases x with
  | none =>
    obtain ⟨a, s₃, D, h₅, hj₃⟩ := obtain_setOne_journal hobtain hinject h₄
    obtain ⟨u, s₄, h₆, h₇⟩ := Run.bind_ok h₅
    rw [Option.any_none, if_neg Bool.false_ne_true]
    refine ⟨D, ?_⟩
    rw [finish_journal_toList h₇, Context.entityCreated_keepsJournal _ _ _ h₆, hj₃,
      Array.toList_push, begin_journal_toList h₁]
    simp
  | some old =>
    dsimp only at h₄
    cases hs : (Manager.journaled f serial d).isSame s₁.store old ⟨t, ps⟩ with
    | true =>
      -- updated in place: nothing is set
      rw [hs] at h₄
      obtain ⟨u, s₃, h₅, h₆⟩ := Run.bind_ok h₄
      rw [Option.any_some, ← hst₁, hs, if_pos rfl, finish_journal_toList h₆,
        hinject _ _ _ _ _ h₅, begin_journal_toList h₁]
      simp
    | false =>
      rw [hs] at h₄
      obtain ⟨a, s₃, D, h₅, hj₃⟩ := obtain_setOne_journal hobtain hinject h₄
      obtain ⟨u, s₄, h₆, h₇⟩ := Run.bind_ok h₅
      obtain ⟨u, s₅, h₈, h₉⟩ := Run.bind_ok h₇
      rw [Option.any_some, ← hst₁, hs, if_neg Bool.false_ne_true]
      refine ⟨D, ?_⟩
      rw [finish_journal_toList h₉, Context.entityCreated_keepsJournal _ _ _ h₈,
        Context.entityDiscarded_keepsJournal _ _ _ h₆, hj₃, Array.toList_push,
        begin_journal_toList h₁]
      simp

/-- A factory manager's read refused, the container it reads being neither an object nor null:
the call fails with the journal holding the manager's begin last and the store as it was. The
read thus comes after begin and before any other call of the manager. -/
theorem toOne_journal_read_error {st : Staged} (hun : st ≠ .unchanged)
    (hbegin : f.failBegin = false) (hobj : (Manager.container d s.store owner).object? = none)
    (hnull : (Manager.container d s.store owner).isNull = false) :
    ∃ err s', r.toOne (.journaled f serial d) ctx owner st s = .error err s' ∧
      s'.journal.toList = s.journal.toList ++ [Manager.entry f serial "begin"] ∧
      s'.store = s.store := by
  have hb : (Manager.journaled f serial d).begin ctx s =
      .ok () { s with journal := s.journal.push (Manager.entry f serial "begin") } := by
    simp [Manager.begin, hbegin, Run.note, modify, modifyGet, MonadStateOf.modifyGet,
      EStateM.modifyGet, bind, EStateM.bind, pure, EStateM.pure]
  -- the read sees the store begin left, which is the store the call started from
  obtain ⟨err, hg⟩ : ∃ err, (Manager.journaled f serial d).getOne ctx owner
      { s with journal := s.journal.push (Manager.entry f serial "begin") } =
        .error err { s with journal := s.journal.push (Manager.entry f serial "begin") } :=
    Manager.getOne_journaled_error rfl hobj hnull
  exact ⟨err, _, toOne_read_error hun hb hg, by simp, rfl⟩

/-- A factory manager journals the bracket of a to-one reconciliation: its begin first and its
end last, each once, and between them its one set unless the entity updated its live associate
in place, where obtaining and injecting journal nothing. -/
theorem toOne_journal (hm : (Manager.journaled f serial d).ToOneLaws owner live)
    (hL : live s.store = some x) (hobtain : ∀ e, Run.KeepsJournal (r.obtain ctx e))
    (hinject : ∀ e h, Run.KeepsJournal (r.inject ctx e h)) {st : Staged} (hun : st ≠ .unchanged)
    (hrun : r.toOne (.journaled f serial d) ctx owner st s = .ok () s') :
    ∃ mid : List String, s'.journal.toList = s.journal.toList ++
        Manager.entry f serial "begin" :: mid ++ [Manager.entry f serial "end"] ∧
      (mid = [] ∨ ∃ D, mid = [Manager.entry f serial ("set " ++ D)]) ∧
      (mid = [] ↔ ∃ t ps, st = .entity t ps ∧
        x.any ((Manager.journaled f serial d).isSame s.store · ⟨t, ps⟩) = true) := by
  cases st with
  | unchanged => exact absurd rfl hun
  | null =>
    obtain ⟨D, hj⟩ := toOne_journal_null hm hL hrun
    exact ⟨[Manager.entry f serial ("set " ++ D)], by simpa using hj, .inr ⟨D, rfl⟩, by simp⟩
  | entity t ps =>
    have hj := toOne_journal_entity hm hL hobtain hinject hrun
    by_cases hv : x.any ((Manager.journaled f serial d).isSame s.store · ⟨t, ps⟩) = true
    · rw [if_pos hv] at hj
      exact ⟨[], by simpa using hj, .inl rfl, iff_of_true rfl ⟨t, ps, rfl, hv⟩⟩
    · rw [if_neg hv] at hj
      obtain ⟨D, hj⟩ := hj
      refine ⟨[Manager.entry f serial ("set " ++ D)], by simpa using hj, .inr ⟨D, rfl⟩, ?_⟩
      simpa using hv
  | _ =>
    -- any other value fails once the associate is read
    obtain ⟨s₁, -, -, -, h₂⟩ := bracket_ok hm hL hrun
    cases h₂

end Journal

end Reconciler

-- ============================================================ an object field's associate

/-- The associate an object's field holds: none unless the owner is an object and the field
holds an object, or is null, which reads as no associate. -/
def fieldOne (n : String) (owner : Value) (st : Store) : Option (Option Handle) :=
  match owner with
  | .object o =>
    (st.instance? o).bind fun _ =>
      match st.field o n with
      | .object h => some (some h)
      | .scalar .null => some none
      | _ => none
  | _ => none

section FieldOne

variable {n : String} {owner : Value} {o : Handle} {st : Store} {inst : Instance}
  {x : Option Handle}

theorem fieldOne_cases (hl : fieldOne n owner st = some x) :
    ∃ o inst, owner = .object o ∧ st.instance? o = some inst ∧
      st.field o n = x.elim .null .object := by
  cases owner with
  | object o =>
    simp only [fieldOne] at hl
    cases hi : st.instance? o with
    | none => simp [hi] at hl
    | some inst =>
      simp only [hi, Option.bind_some] at hl
      refine ⟨o, inst, rfl, hi, ?_⟩
      split at hl
      · cases hl
        assumption
      · cases hl
        assumption
      · cases hl
  | _ => cases hl

/-- Writing an associate into the field of an object is what the field then holds. -/
theorem fieldOne_setField (hi : st.instance? o = some inst) (a : Option Handle) :
    fieldOne n (.object o) (st.setField o n (a.elim .null .object)) = some a := by
  cases a <;> simp [fieldOne, Store.instance?_setField hi, Store.field_setField_self hi,
    Value.null]

/-- A new object leaves the field of an older one as it was. -/
theorem fieldOne_newObject (hl : fieldOne n owner st = some x) (t : ModelType) :
    fieldOne n owner (st.newObject t).1 = some x := by
  obtain ⟨o, inst, rfl, hi, hf⟩ := fieldOne_cases hl
  have hco := Store.newObject_cell?_of_lt (t := t) (Store.lt_size_of_instance? hi)
  rw [← hl]
  simp only [fieldOne, Store.instance?_congr hco, Store.field_congr hco]

end FieldOne

namespace Manager

variable {n : String} {dt : DataType} {modes : AccessModes} {ids : List IdentityKey}
  {ctx : Context} {owner : Value} {s s' : RunState} {x : Option Handle}

theorem getOne_field (hr : modes.read = true) (hl : fieldOne n owner s.store = some x) :
    (field (.field n dt modes) ids).getOne ctx owner s = .ok x s := by
  obtain ⟨o, inst, rfl, hi, hf⟩ := fieldOne_cases hl
  cases x <;> simp [getOne, Run.access, Multi.get_field hr, hf, Value.isNull, Value.null, bind,
    EStateM.bind, pure, EStateM.pure]

theorem setOne_field (hw : modes.write = true) (hl : fieldOne n owner s.store = some x)
    {a : Option Handle} (hrun : (field (.field n dt modes) ids).setOne ctx owner a s = .ok () s') :
    fieldOne n owner s'.store = some a ∧ s'.notices = s.notices ∧
      s.store.size ≤ s'.store.size := by
  obtain ⟨o, inst, rfl, hi, -⟩ := fieldOne_cases hl
  obtain ⟨st, hx, rfl⟩ := Run.access_ok hrun
  have hst : st = s.store.setField o n (a.elim .null .object) := by
    cases a <;> (rw [Accessor.set_field_writable hw] at hx; cases hx; rfl)
  subst hst
  exact ⟨fieldOne_setField hi a, rfl, by rw [Store.size_setField]⟩

variable {f : ManagerFactory} {serial : Nat} {d : Descriptor}

theorem getOne_journaled (hd : d.name.isEmpty = false)
    (hl : fieldOne d.name owner s.store = some x) :
    (journaled f serial d).getOne ctx owner s = .ok x s := by
  obtain ⟨o, inst, rfl, hi, hf⟩ := fieldOne_cases hl
  cases x <;> simp [getOne, container, hd, hf, Run.store, Value.isNull, Value.null, bind,
    EStateM.bind, get, getThe, MonadStateOf.get, EStateM.get, pure, EStateM.pure]

theorem setOne_journaled_live (hl : fieldOne d.name owner s.store = some x) {a : Option Handle}
    (hrun : (journaled f serial d).setOne ctx owner a s = .ok () s') :
    fieldOne d.name owner s'.store = some a ∧ s'.notices = s.notices ∧
      s.store.size ≤ s'.store.size := by
  obtain ⟨o, inst, rfl, hi, -⟩ := fieldOne_cases hl
  obtain ⟨st, s₁, h₁, h₂⟩ := Run.bind_ok hrun
  cases h₁
  obtain ⟨u, s₂, h₃, h₄⟩ := Run.bind_ok h₂
  cases h₃
  have hst : s'.store = s.store.setField o d.name (a.elim .null .object) ∧
      s'.notices = s.notices := by
    cases a <;> (cases h₄; exact ⟨rfl, rfl⟩)
  rw [hst.1, hst.2]
  exact ⟨fieldOne_setField hi a, rfl, by rw [Store.size_setField]⟩

end Manager

/-- The engine's manager of a readable and writable object field keeps the to-one contract. -/
theorem toOneLaws_field {n : String} {dt : DataType} {modes : AccessModes}
    (hr : modes.read = true) (hw : modes.write = true) (ids : List IdentityKey) (owner : Value) :
    (Manager.field (.field n dt modes) ids).ToOneLaws owner (fieldOne n owner) where
  begin := Manager.begin_keeps _
  finish := Manager.finish_keeps _
  getOne hl := Manager.getOne_field hr hl
  setOne hl hrun := Manager.setOne_field hw hl hrun
  newObject t hl := fieldOne_newObject hl t

/-- A factory manager of a named association keeps the to-one contract over the owner's raw
field of that name. -/
theorem toOneLaws_journaled {f : ManagerFactory} {serial : Nat} {d : Descriptor}
    (hd : d.name.isEmpty = false) (owner : Value) :
    (Manager.journaled f serial d).ToOneLaws owner (fieldOne d.name owner) where
  begin := Manager.begin_keeps _
  finish := Manager.finish_keeps _
  getOne hl := Manager.getOne_journaled hd hl
  setOne hl hrun := Manager.setOne_journaled_live hl hrun
  newObject t hl := fieldOne_newObject hl t

-- ============================================================ a customer's address

namespace Sample

/-- Addresses, known by city. -/
def addressType : ModelType := { name := "Address", props := [.field "city" (.scalar .string)] }

/-- Customers with one address. -/
def customerType : ModelType := { name := "Customer", props := [.field "address" .object] }

/-- A customer, cell 0, whose address is the one in Oslo, cell 1. -/
def customerStore : Store :=
  let (st, c) := ({} : Store).newObject customerType
  let (st, a) := st.newObject addressType
  let st := st.setField a "city" (.scalar (.string "Oslo"))
  st.setField c "address" (.object a)

/-- A manager factory that knows addresses by city and journals its calls. -/
def addressFactory : ManagerFactory :=
  { id := 0, label := "m", capability := .toOne, support := .all, key := some "city",
    failBegin := false, failEnd := false, describe := false }

/-- The first manager of that factory, for a customer's address. -/
def addressManager : Manager := .journaled addressFactory 1 ⟨customerType, "address", addressType⟩

/-- The address of customer 0. -/
def address : Store → Option (Option Handle) := fieldOne "address" (.object 0)

def customerStart : RunState := { store := customerStore }

/-- An address in Bergen. -/
def bergen : Staged := .entity addressType [("city", .value (.string "Bergen"))]

end Sample

-- ============================================================ the whole reconciliation

namespace Reconciler

variable {m : Manager} {owner : Value} {live : Store → Option (Option Handle)}
  {ctx : Context} {r : Reconciler} {s : RunState} {x : Option Handle}

/-- Reconciling one associate, for every staged value, where the manager keeps the to-one
contract and injecting keeps the association and only appends to the notices. An unchanged
value changes nothing at all. A refused begin is the call's error. Null clears the association
and announces the previous associate discarded, if there was one. An entity updates the current
associate in place, telling nothing beyond what injecting it tells, when the manager judges it
the entity's; otherwise it gets a new or resolved associate, injected and set in the
association, and after what the injection told the previous one is announced discarded and then
the new one created. Any other value is a type mismatch once begin succeeds, with nothing
changed. Through a factory manager the journal shows begin first and end last, each once, and
one set between them unless the entity was updated in place. The read of the associate comes
right after begin, from any state: a refused read is the call's error in the state it leaves,
and a factory manager's refused read leaves its begin last in the journal. -/
theorem toOne_reconciles_one_associate (hm : m.ToOneLaws owner live) (hr : r.Framed live)
    (hL : live s.store = some x) :
    r.toOne m ctx owner .unchanged s = .ok () s ∧
    (∀ st err s₁, st ≠ .unchanged → m.begin ctx s = .error err s₁ →
      r.toOne m ctx owner st s = .error err s₁) ∧
    (∀ s₀ st s₁ err s₂, st ≠ .unchanged → m.begin ctx s₀ = .ok () s₁ →
      m.getOne ctx owner s₁ = .error err s₂ → r.toOne m ctx owner st s₀ = .error err s₂) ∧
    (∀ s', r.toOne m ctx owner .null s = .ok () s' →
      live s'.store = some none ∧ s'.notices = s.notices ++ x.toList.map .discarded) ∧
    (∀ t ps s', r.toOne m ctx owner (.entity t ps) s = .ok () s' →
      if x.any (m.isSame s.store · ⟨t, ps⟩) then live s'.store = some x ∧
        ∃ h told, x = some h ∧ r.Tells h told ∧ s'.notices = s.notices ++ told
      else ∃ a told, live s'.store = some (some a) ∧ r.Tells a told ∧
        s'.notices = s.notices ++ told ++ x.toList.map .discarded ++ [.created a] ∧
        (r.reference = false → s.store.size ≤ a)) ∧
    (∀ st s₁, st.entity? = none → st ≠ .null → st ≠ .unchanged → m.begin ctx s = .ok () s₁ →
      r.toOne m ctx owner st s = .error (ctx.error (.typeMismatch "object" st.shapeName)) s₁ ∧
        s₁.store = s.store ∧ s₁.notices = s.notices) ∧
    (∀ f serial d, m = .journaled f serial d → (∀ e, Run.KeepsJournal (r.obtain ctx e)) →
      (∀ e h, Run.KeepsJournal (r.inject ctx e h)) → ∀ st s', st ≠ .unchanged →
      r.toOne m ctx owner st s = .ok () s' →
      ∃ mid : List String, s'.journal.toList = s.journal.toList ++
          Manager.entry f serial "begin" :: mid ++ [Manager.entry f serial "end"] ∧
        (mid = [] ∨ ∃ D, mid = [Manager.entry f serial ("set " ++ D)]) ∧
        (mid = [] ↔ ∃ t ps, st = .entity t ps ∧ x.any (m.isSame s.store · ⟨t, ps⟩) = true)) ∧
    (∀ f serial d s₀, m = .journaled f serial d → f.failBegin = false →
      (Manager.container d s₀.store owner).object? = none →
      (Manager.container d s₀.store owner).isNull = false → ∀ st, st ≠ .unchanged →
      ∃ err s', r.toOne m ctx owner st s₀ = .error err s' ∧
        s'.journal.toList = s₀.journal.toList ++ [Manager.entry f serial "begin"] ∧
        s'.store = s₀.store) := by
  refine ⟨rfl, fun st err s₁ hun hb => toOne_begin_error hun hb,
    fun s₀ st s₁ err s₂ hun hb hg => toOne_read_error hun hb hg,
    fun s' hrun => toOne_null hm hL hrun, fun t ps s' hrun => toOne_entity hm hr hL hrun,
    fun st s₁ he hnull hun hb => toOne_mismatch hm hL he hnull hun hb, ?_, ?_⟩
  · rintro f serial d rfl hobtain hinject st s' hun hrun
    exact toOne_journal hm hL hobtain hinject hun hrun
  · rintro f serial d s₀ rfl hbegin hobj hnull st hun
    exact toOne_journal_read_error hun hbegin hobj hnull

/-- The customer's address through the factory manager: the contract holds over the raw field,
which holds the Oslo address, and reconciling it behaves as the shapes of the staged value say. -/
theorem toOne_customer_address :
    Sample.addressManager.ToOneLaws (.object 0) Sample.address ∧
    Sample.owned.Framed Sample.address ∧
    Sample.address Sample.customerStart.store = some (some 1) ∧
    Sample.owned.toOne Sample.addressManager {} (.object 0) .unchanged Sample.customerStart =
      .ok () Sample.customerStart ∧
    (∀ st err s₁, st ≠ .unchanged → Sample.addressManager.begin {} Sample.customerStart =
        .error err s₁ →
      Sample.owned.toOne Sample.addressManager {} (.object 0) st Sample.customerStart =
        .error err s₁) ∧
    (∀ s₀ st s₁ err s₂, st ≠ .unchanged → Sample.addressManager.begin {} s₀ = .ok () s₁ →
      Sample.addressManager.getOne {} (.object 0) s₁ = .error err s₂ →
      Sample.owned.toOne Sample.addressManager {} (.object 0) st s₀ = .error err s₂) ∧
    (∀ s', Sample.owned.toOne Sample.addressManager {} (.object 0) .null Sample.customerStart =
        .ok () s' →
      Sample.address s'.store = some none ∧
        s'.notices = Sample.customerStart.notices ++ (some 1).toList.map .discarded) ∧
    (∀ t ps s', Sample.owned.toOne Sample.addressManager {} (.object 0) (.entity t ps)
        Sample.customerStart = .ok () s' →
      if (some 1).any (Sample.addressManager.isSame Sample.customerStart.store · ⟨t, ps⟩) then
        Sample.address s'.store = some (some 1) ∧ ∃ h told, some 1 = some h ∧
          Sample.owned.Tells h told ∧ s'.notices = Sample.customerStart.notices ++ told
      else ∃ a told, Sample.address s'.store = some (some a) ∧ Sample.owned.Tells a told ∧
        s'.notices = Sample.customerStart.notices ++ told ++ (some 1).toList.map .discarded ++
          [.created a] ∧
        (Sample.owned.reference = false → Sample.customerStart.store.size ≤ a)) ∧
    (∀ st s₁, st.entity? = none → st ≠ .null → st ≠ .unchanged →
      Sample.addressManager.begin {} Sample.customerStart = .ok () s₁ →
      Sample.owned.toOne Sample.addressManager {} (.object 0) st Sample.customerStart =
          .error (Context.error {} (.typeMismatch "object" st.shapeName)) s₁ ∧
        s₁.store = Sample.customerStart.store ∧ s₁.notices = Sample.customerStart.notices) ∧
    (∀ f serial d, Sample.addressManager = .journaled f serial d →
      (∀ e, Run.KeepsJournal (Sample.owned.obtain {} e)) →
      (∀ e h, Run.KeepsJournal (Sample.owned.inject {} e h)) → ∀ st s', st ≠ .unchanged →
      Sample.owned.toOne Sample.addressManager {} (.object 0) st Sample.customerStart =
        .ok () s' →
      ∃ mid : List String, s'.journal.toList = Sample.customerStart.journal.toList ++
          Manager.entry f serial "begin" :: mid ++ [Manager.entry f serial "end"] ∧
        (mid = [] ∨ ∃ D, mid = [Manager.entry f serial ("set " ++ D)]) ∧
        (mid = [] ↔ ∃ t ps, st = .entity t ps ∧
          (some 1).any (Sample.addressManager.isSame Sample.customerStart.store · ⟨t, ps⟩) =
            true)) ∧
    (∀ f serial d s₀, Sample.addressManager = .journaled f serial d → f.failBegin = false →
      (Manager.container d s₀.store (.object 0)).object? = none →
      (Manager.container d s₀.store (.object 0)).isNull = false → ∀ st, st ≠ .unchanged →
      ∃ err s', Sample.owned.toOne Sample.addressManager {} (.object 0) st s₀ = .error err s' ∧
        s'.journal.toList = s₀.journal.toList ++ [Manager.entry f serial "begin"] ∧
        s'.store = s₀.store) := by
  have hm : Sample.addressManager.ToOneLaws (.object 0) Sample.address :=
    toOneLaws_journaled (by decide) _
  have hr : Sample.owned.Framed Sample.address := framed_of_pure false _
  have hL : Sample.address Sample.customerStart.store = some (some 1) := by cbv
  exact ⟨hm, hr, hL, toOne_reconciles_one_associate hm hr hL⟩

/-- The customer moving to Bergen: the Oslo address is not the Bergen one, so a new address is
made and set, Oslo is announced discarded and the new address created, and the factory manager
journals its begin, its set and its end. -/
example : match Sample.owned.toOne Sample.addressManager {} (.object 0) Sample.bergen
      Sample.customerStart with
    | .ok _ s => Sample.address s.store = some (some 2) ∧
        s.notices = [.discarded 1, .created 2] ∧
        s.journal = #["m begin #1", "m set null #1", "m end #1"]
    | .error _ _ => False := by
  cbv

end Reconciler

end GraphViews

import Mathlib
import GraphViews.Proofs.ReadOnlyGeneration
/-!
# Generation writes an object as one block of events per written node

Inside an object, generation runs the children of the node in order. A child that is no branch
writes its own events; a branch whose type the object's type is below writes the children of
the branch the same way, at any depth. `Node.emittedFor` lists the nodes that write, in order.
The events written for an object so fall into blocks, one for each of those nodes that writes
anything, and the first event of a block names its node: it carries the node's name and, unless
the node is a splice, the node's namespace (`Node.Heads`). `Generate.blocksAt` says so of every
run that ends well.

# How the proof goes

`Generate.Leads w P x` says that a run started from the writer `w` appends nothing, or events
whose first one `P` holds of; `emit_leads` proves it, with `Node.Heads`, of every node that is
no branch. `Generate.Blocks` says that the events a run appends fall into blocks of listed
nodes, each opened by its node. It is closed under binds and folds of runs that keep the store
(`Run.KeepsStore`), so the object keeps the type that generation tests the branches against.
`BlocksAt fuel` collects the statement for `child`, `body` and `emit`, and one induction on the
fuel proves it.
-/

namespace GraphViews

-- ============================================================ the nodes that write

namespace Node

/-- The nodes generation writes under a node for an object of type `t`: the children that are
no branch, and the same of every branch whose type `t` is below, at any depth. -/
def emittedFor : Node → ModelType → List Node
  | ⟨_, children, _⟩, t => emittedOf children t
where
  emittedOf : List Node → ModelType → List Node
    | [], _ => []
    | b :: cs, t =>
      (if b.kind == .subtype then
        if b.modelType.any (t.isSubtypeOf ·) then emittedFor b t else []
      else [b]) ++ emittedOf cs t

/-- What one child adds: itself, or for a branch whose type `t` is below, what is written under
the branch. -/
def emittedBy (b : Node) (t : ModelType) : List Node :=
  if b.kind == .subtype then
    if b.modelType.any (t.isSubtypeOf ·) then b.emittedFor t else []
  else [b]

theorem emittedFor_eq (c : Node) (t : ModelType) :
    c.emittedFor t = c.children.flatMap (·.emittedBy t) := by
  obtain ⟨info, children, sp⟩ := c
  simp only [emittedFor]
  induction children with
  | nil => rfl
  | cons b cs ih =>
    simp only [emittedFor.emittedOf, List.flatMap_cons, ih]
    rfl

theorem mem_emittedBy {b m : Node} {t : ModelType} :
    m ∈ b.emittedBy t ↔ (b.kind ≠ .subtype ∧ m = b) ∨
      (b.kind = .subtype ∧ ∃ B, b.modelType = some B ∧ t.isSubtypeOf B = true ∧
        m ∈ b.emittedFor t) := by
  unfold emittedBy
  by_cases hk : b.kind = .subtype
  · cases hB : b.modelType with
    | none => simp [hk]
    | some B => by_cases hsub : t.isSubtypeOf B = true <;> simp [hk, hsub]
  · simp [hk]

theorem mem_emittedFor {c m : Node} {t : ModelType} :
    m ∈ c.emittedFor t ↔ ∃ b ∈ c.children, m ∈ b.emittedBy t := by
  rw [emittedFor_eq, List.mem_flatMap]


/-- The first event a node writes names it: the event carries the node's name and, unless the
node is a splice, whose first event is the spliced view's, the node's namespace. -/
def Heads (n : Node) (e : Event) : Prop :=
  e.name = n.name ∧ (n.kind = .splice ∨ e.ns = n.info.ns)

theorem heads_nodeEvent (n : Node) (k : EventKind) (v : Option Scalar) :
    n.Heads (Generate.nodeEvent n k v) :=
  ⟨rfl, .inr rfl⟩

end Node

theorem Run.KeepsStore.store_of_ok {α : Type} {x : Run α} (hx : Run.KeepsStore x)
    {s s' : RunState} {a : α} (h : x s = .ok a s') : s'.store = s.store := by
  have hs := hx s
  simp only [Run.after, h] at hs
  exact hs

namespace Generate

variable {ctx : Context}

theorem push_ok_events {w w' : Writer} {e : Event} {s s' : RunState}
    (h : Generate.push ctx w e s = .ok w' s') : w'.events.toList = w.events.toList ++ [e] := by
  unfold Generate.push at h
  obtain ⟨hp, -⟩ := stream_ok h
  rw [Writer.push_events hp, Array.toList_push]

-- ============================================================ the first event of a node

/-- Started from `w`, a run that ends well appends nothing, or events whose first one `P` holds
of. -/
def Leads (w : Writer) (P : Event → Prop) (x : Run Writer) : Prop :=
  ∀ s w' s', x s = .ok w' s' →
    ∃ new, w'.events.toList = w.events.toList ++ new ∧ ∀ e ∈ new.head?, P e

namespace Leads

variable {w : Writer} {P : Event → Prop}

theorem pure : Leads w P (Pure.pure w) := by
  intro s w' s' h
  cases h
  exact ⟨[], by simp, by simp⟩

theorem fail (ctx : Context) (k : ViewErrorKind) : Leads w P (Run.fail ctx k) := by
  intro s w' s' h
  cases h

/-- Computations before the writing part do not matter. -/
theorem bind {α : Type} {x : Run α} {k : α → Run Writer} (hk : ∀ a, Leads w P (k a)) :
    Leads w P (x >>= k) := by
  intro s w' s' h
  obtain ⟨a, s₁, -, h₂⟩ := Run.bind_ok h
  exact hk a _ _ _ h₂

theorem or_pure {c : Prop} [Decidable c] {x : Run Writer} (hx : Leads w P x) :
    Leads w P (if c then Pure.pure w else x) := by
  split
  · exact Leads.pure
  · exact hx

theorem mono {Q : Event → Prop} {x : Run Writer} (hx : Leads w P x) (hPQ : ∀ e, P e → Q e) :
    Leads w Q x := by
  intro s w' s' h
  obtain ⟨new, hnew, hhead⟩ := hx s w' s' h
  exact ⟨new, hnew, fun e he => hPQ e (hhead e he)⟩

theorem push {e : Event} (he : P e) : Leads w P (Generate.push ctx w e) := by
  intro s w' s' h
  exact ⟨[e], push_ok_events h, by simpa using he⟩

/-- An event `P` holds of, then anything that appends. -/
theorem push_seq {e : Event} {k : Writer → Run Writer} (he : P e)
    (hk : ∀ w', Appends w' (k w')) : Leads w P (Generate.push ctx w e >>= k) := by
  intro s w'' s'' h
  obtain ⟨w₁, s₁, h₁, h₂⟩ := Run.bind_ok h
  obtain ⟨rest, hrest⟩ := hk w₁ _ _ _ h₂
  refine ⟨e :: rest, ?_, by simpa using he⟩
  rw [← hrest, push_ok_events h₁, List.append_assoc, List.singleton_append]

end Leads

/-- The events of a spliced view with the first one renamed start with the new name. -/
theorem renamed_leads (name : Option String) (w : Writer) :
    ∀ l : List Event, Leads w (fun e => e.name = name) (l.zipIdx.foldlM
      (fun w (x : Event × Nat) =>
        Generate.push ctx w (if x.2 == 0 then { x.1 with name := name } else x.1)) w)
  | [] => Leads.pure
  | e :: rest => by
    rw [List.zipIdx_cons, List.foldlM_cons]
    exact Leads.push_seq (by simp) fun _ => Appends.foldlM (fun _ _ => Appends.push _ _) _ _

variable {fuel : Nat}

/-- An associate starts with its begin event or its null, under its name and the node's
namespace. -/
theorem associate_leads (n : Node) (name : Option String) (v : Value) (w : Writer) :
    ∀ fuel, Leads w (fun e => e.name = name ∧ e.ns = n.info.ns)
      (associate fuel ctx n name v w)
  | 0 => by
    simp only [associate]
    exact Leads.fail _ _
  | fuel + 1 => by
    simp only [associate]
    split
    · exact Leads.push_seq ⟨rfl, rfl⟩ fun _ =>
        Appends.seq ((appendsAt fuel).body _ _ _ _) fun _ _ => Appends.push _ _
    · split
      · exact Leads.push ⟨rfl, rfl⟩
      · exact Leads.fail _ _

/-- Every node that is no branch opens what it writes with an event that names it. -/
theorem emit_leads (ih : AppendsAt fuel) {n : Node} (hk : n.kind ≠ .subtype) (owner : Value)
    (w : Writer) : Leads w n.Heads (emit (fuel + 1) ctx n owner w) := by
  simp only [emit]
  split
  case h_1 =>
    refine Leads.bind fun _ => Leads.bind fun raw => ?_
    split
    · split
      · exact Leads.bind fun _ => Leads.or_pure (Leads.push (n.heads_nodeEvent _ _))
      · exact Leads.bind fun _ => Leads.or_pure (Leads.push (n.heads_nodeEvent _ _))
    · exact Leads.fail _ _
  case h_2 | h_3 =>
    exact Leads.bind fun _ => Leads.bind fun _ =>
      (associate_leads n _ _ w fuel).mono fun e he => ⟨he.1, .inr he.2⟩
  case h_4 | h_5 =>
    refine Leads.bind fun _ => Leads.bind fun current => ?_
    split
    · exact Leads.push (n.heads_nodeEvent _ _)
    · exact Leads.bind fun _ => Leads.bind fun _ => Leads.push_seq (n.heads_nodeEvent _ _)
        fun _ => Appends.seq (Appends.foldlM (fun _ _ => ih.element _ _ _ _ _) _ _)
          fun _ _ => Appends.push _ _
  case h_6 | h_7 =>
    refine Leads.bind fun _ => Leads.bind fun current => ?_
    split
    · exact Leads.push (n.heads_nodeEvent _ _)
    · refine Leads.bind fun _ => Leads.bind fun _ => ?_
      split
      · exact Leads.push_seq (n.heads_nodeEvent _ _) fun _ =>
          Appends.seq (Appends.foldlM (fun _ _ => Appends.bind fun _ => ih.element _ _ _ _ _) _ _)
            fun _ _ => Appends.push _ _
      · refine Leads.push_seq (n.heads_nodeEvent _ _) fun _ =>
          Appends.seq (Appends.foldlM (fun _ _ => ?_) _ _) fun _ _ => Appends.push _ _
        refine Appends.bind fun _ => Appends.seq (Appends.push _ _) fun _ _ => ?_
        refine Appends.seq (Appends.push _ _) fun _ _ => ?_
        exact Appends.seq (ih.element _ _ _ _ _) fun _ _ => Appends.push _ _
  case h_8 =>
    exact Leads.push_seq (n.heads_nodeEvent _ _) fun _ =>
      Appends.seq (ih.body _ _ _ _) fun _ _ => Appends.push _ _
  case h_9 hsub => exact absurd hsub hk
  case h_10 =>
    split
    · exact Leads.bind fun _ => Leads.push (n.heads_nodeEvent _ _)
    · exact Leads.pure
  case h_11 =>
    split
    · exact Leads.bind fun _ => Leads.bind fun _ => Leads.push (n.heads_nodeEvent _ _)
    · exact Leads.pure
  case h_12 hsplice =>
    -- a splice: the spliced view with its first event renamed after the node
    split
    · refine Leads.bind fun target => ?_
      split
      all_goals exact Leads.bind fun view =>
        (renamed_leads n.name w view.toList).mono fun e he => ⟨he, .inl hsplice⟩
    · exact Leads.pure

-- ============================================================ the blocks of an object

/-- The events written for one node: the node, the first event, and the events after it. -/
structure Block where
  node : Node
  head : Event
  rest : List Event

def Block.events (b : Block) : List Event := b.head :: b.rest

/-- Started from `w`, on the object `h` of type `t`, a run that ends well appends blocks of the
listed nodes, each opened by its node. -/
def Blocks (t : ModelType) (h : Handle) (nodes : List Node) (w : Writer) (x : Run Writer) :
    Prop :=
  ∀ s w' s', s.store.typeOf h = t → x s = .ok w' s' →
    ∃ bs : List Block, w'.events.toList = w.events.toList ++ bs.flatMap Block.events ∧
      ∀ b ∈ bs, b.node ∈ nodes ∧ b.node.Heads b.head

namespace Blocks

variable {t : ModelType} {h : Handle} {nodes : List Node} {w : Writer}

theorem pure : Blocks t h nodes w (Pure.pure w) := by
  intro s w' s' _ hx
  cases hx
  exact ⟨[], by simp, by simp⟩

theorem mono {nodes' : List Node} {x : Run Writer} (hx : Blocks t h nodes w x)
    (hsub : nodes ⊆ nodes') : Blocks t h nodes' w x := by
  intro s w' s' hs hrun
  obtain ⟨bs, hev, hbs⟩ := hx s w' s' hs hrun
  exact ⟨bs, hev, fun b hb => ⟨hsub (hbs b hb).1, (hbs b hb).2⟩⟩

/-- What a listed node writes, opened by the node, is one block or none. -/
theorem of_leads {n : Node} {x : Run Writer} (hn : n ∈ nodes) (hx : Leads w n.Heads x) :
    Blocks t h nodes w x := by
  intro s w' s' _ hrun
  obtain ⟨new, hnew, hhead⟩ := hx s w' s' hrun
  cases new with
  | nil => exact ⟨[], by simpa using hnew, by simp⟩
  | cons e rest =>
    refine ⟨[⟨n, e, rest⟩], by simpa [Block.events] using hnew, ?_⟩
    simp only [List.mem_singleton, forall_eq]
    exact ⟨hn, hhead e rfl⟩

/-- A computation that keeps the store, then a writing part. -/
theorem bind {α : Type} {x : Run α} {k : α → Run Writer} (hx : Run.KeepsStore x)
    (hk : ∀ a, Blocks t h nodes w (k a)) : Blocks t h nodes w (x >>= k) := by
  intro s w' s' hs hrun
  obtain ⟨a, s₁, h₁, h₂⟩ := Run.bind_ok hrun
  exact hk a s₁ w' s' (by rw [hx.store_of_ok h₁, hs]) h₂

/-- Two writing parts in a row, the first keeping the store. -/
theorem seq {x : Run Writer} {k : Writer → Run Writer} (hx : Blocks t h nodes w x)
    (hxs : Run.KeepsStore x) (hk : ∀ w', Blocks t h nodes w' (k w')) :
    Blocks t h nodes w (x >>= k) := by
  intro s w'' s'' hs hrun
  obtain ⟨w₁, s₁, h₁, h₂⟩ := Run.bind_ok hrun
  obtain ⟨bs₁, hev₁, hbs₁⟩ := hx s w₁ s₁ hs h₁
  obtain ⟨bs₂, hev₂, hbs₂⟩ := hk w₁ s₁ w'' s'' (by rw [hxs.store_of_ok h₁, hs]) h₂
  refine ⟨bs₁ ++ bs₂, by rw [hev₂, hev₁, List.flatMap_append, List.append_assoc], ?_⟩
  intro b hb
  rcases List.mem_append.1 hb with hb | hb
  · exact hbs₁ b hb
  · exact hbs₂ b hb

/-- A fold over some elements, each step writing blocks of the listed nodes and keeping the
store. -/
theorem foldlM {β : Type} {f : Writer → β → Run Writer} :
    ∀ (l : List β), (∀ b ∈ l, ∀ w, Blocks t h nodes w (f w b)) →
      (∀ b w, Run.KeepsStore (f w b)) → ∀ w, Blocks t h nodes w (l.foldlM f w)
  | [], _, _, w => by
    simp only [List.foldlM_nil]
    exact Blocks.pure
  | b :: l, hf, hkeep, w => by
    simp only [List.foldlM_cons]
    exact Blocks.seq (hf b (List.mem_cons_self ..) w) (hkeep b w)
      fun w' => foldlM l (fun b hb => hf b (List.mem_cons_of_mem _ hb)) hkeep w'

end Blocks

-- ============================================================ every function at every fuel

/-- The statement for the functions that write an object's properties, at one fuel. -/
structure BlocksAt (fuel : Nat) : Prop where
  child : ∀ ctx n t h w, Blocks t h (n.emittedBy t) w (child fuel ctx n (.object h) w)
  body : ∀ ctx n t h w, Blocks t h (n.emittedFor t) w (body fuel ctx n (.object h) w)
  emit : ∀ ctx n t h w, Blocks t h (n.emittedBy t) w (emit fuel ctx n (.object h) w)

theorem child_blocks (ih : BlocksAt fuel) (ctx : Context) (n : Node) (t : ModelType) (h : Handle)
    (w : Writer) :
    Blocks t h (n.emittedBy t) w (child (fuel + 1) ctx n (.object h) w) := by
  simp only [child]
  refine Blocks.bind (Context.shouldVisit_keeps _ _) fun visit => ?_
  split
  · exact Blocks.pure
  · split
    · exact Blocks.pure
    · exact Blocks.seq (ih.emit _ _ _ _ _) ((keepsAt fuel).emit _ _ _ _) fun _ =>
        Blocks.bind (Context.nodeVisited_keeps _ _) fun _ => Blocks.pure

theorem body_blocks (ih : BlocksAt fuel) (ctx : Context) (c : Node) (t : ModelType) (h : Handle)
    (w : Writer) :
    Blocks t h (c.emittedFor t) w (body (fuel + 1) ctx c (.object h) w) := by
  simp only [body]
  refine Blocks.foldlM _ (fun b hb w => ?_) (fun b w => (keepsAt fuel).child _ _ _ _) w
  exact (ih.child _ _ _ _ _).mono fun m hm => Node.mem_emittedFor.2 ⟨b, hb, hm⟩

theorem emit_blocks (ih : BlocksAt fuel) (ctx : Context) (n : Node) (t : ModelType) (h : Handle)
    (w : Writer) :
    Blocks t h (n.emittedBy t) w (emit (fuel + 1) ctx n (.object h) w) := by
  by_cases hk : n.kind = .subtype
  · -- a branch writes the blocks of its own children, when the object is of its type
    simp only [emit, hk]
    cases hB : n.modelType with
    | none => exact Blocks.pure
    | some B =>
      intro s w' s' hs hrun
      obtain ⟨st, s₁, hst, hrun⟩ := Run.bind_ok hrun
      cases hst
      split at hrun
      · rename_i hinst
        obtain ⟨bs, hev, hbs⟩ := ih.body ctx n t h w s w' s' hs hrun
        have htB : t.isSubtypeOf B = true := by rwa [← hs]
        exact ⟨bs, hev, fun b hb =>
          ⟨Node.mem_emittedBy.2 (.inr ⟨hk, B, hB, htB, (hbs b hb).1⟩), (hbs b hb).2⟩⟩
      · cases hrun
        exact ⟨[], by simp, by simp⟩
  · exact Blocks.of_leads (Node.mem_emittedBy.2 (.inl ⟨hk, rfl⟩))
      (emit_leads (appendsAt fuel) hk _ _)

/-- The properties of an object fall into blocks, one for each node that writes, at every
fuel. -/
theorem blocksAt : ∀ fuel, BlocksAt fuel
  | 0 => by
    refine ⟨?_, ?_, ?_⟩ <;> intros <;> simp only [child, body, emit] <;>
      exact fun _ _ _ _ h => by cases h
  | fuel + 1 =>
    have ih := blocksAt fuel
    ⟨child_blocks ih, body_blocks ih, emit_blocks ih⟩

end Generate

end GraphViews

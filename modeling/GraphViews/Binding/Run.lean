import GraphViews.Binding.Context
/-!
The state a run threads, and the effects of the collaborators.

A run changes the store, and what it does is observed through its collaborators: the
recorder's log, the journal of manager and resolver calls, the counters of managers made per
factory and of objects created and discarded per counting listener, and the labels objects
are known by. `Run` is a state computation over all of it whose errors keep the state, so
what was changed before an error stays visible.

Every listener hears of the same objects created and discarded, in the same order; the state
keeps that sequence of notices too, whichever listeners there are, so that what a run tells its
listeners can be stated on its own.

Labels: the recorder names an object it is told was created `new1`, `new2`, …, and an object
without a label that it is told was discarded `x1`, `x2`, ….
-/

namespace GraphViews

/-- The names objects are known by, with a counter per prefix of generated names. -/
structure Labels where
  names : List (Handle × String) := []
  counters : List (String × Nat) := []
deriving Inhabited

namespace Labels

def find? (l : Labels) (h : Handle) : Option String := (l.names.find? (·.1 == h)).map (·.2)

/-- The first object with a label. -/
def handle? (l : Labels) (name : String) : Option Handle := (l.names.find? (·.2 == name)).map (·.1)

def set (l : Labels) (h : Handle) (name : String) : Labels := { l with names := l.names ++ [(h, name)] }

/-- The next generated name with a prefix. -/
def fresh (l : Labels) (pre : String) : String × Labels :=
  let n := ((l.counters.find? (·.1 == pre)).map (·.2)).getD 0 + 1
  (pre ++ toString n, { l with counters := (pre, n) :: l.counters.filter (·.1 != pre) })

/-- The label of an object, giving it the next generated name with the prefix if it has
none. -/
def ensure (l : Labels) (h : Handle) (pre : String) : String × Labels :=
  match l.find? h with
  | some s => (s, l)
  | none => let (s, l) := l.fresh pre; (s, l.set h s)

end Labels

/-- What the recorder logs. -/
inductive LogEntry where
  | vetoed (path : String)
  | visited (path kind : String)
  | created (path type label : String)
  | discarded (path type label : String)
deriving Inhabited

/-- What every listener is told about an object. -/
inductive Notice where
  | created (h : Handle)
  | discarded (h : Handle)
deriving DecidableEq, Inhabited

/-- The state of a run. -/
structure RunState where
  store : Store := {}
  labels : Labels := {}
  log : Array LogEntry := #[]
  journal : Array String := #[]
  /-- managers made, per factory identity -/
  serials : List (Nat × Nat) := []
  /-- objects created and discarded, per counting listener -/
  counts : List (Nat × Nat × Nat) := []
  /-- the next free identity of a factory or counter -/
  nextId : Nat := 0
  /-- the notices the listeners were given, oldest first -/
  notices : List Notice := []
deriving Inhabited

namespace RunState

/-- A fresh identity for a factory or a counter. -/
def freshId (s : RunState) : Nat × RunState := (s.nextId, { s with nextId := s.nextId + 1 })

def counts? (s : RunState) (id : Nat) : Nat × Nat := ((s.counts.find? (·.1 == id)).map (·.2)).getD (0, 0)

def setCounts (s : RunState) (id : Nat) (c : Nat × Nat) : RunState :=
  { s with counts := (id, c) :: s.counts.filter (·.1 != id) }

end RunState

/-- A run: state effects that can fail with a view error. -/
abbrev Run := EStateM ViewError RunState

namespace Run

def store : Run Store := return (← get).store

def modifyStore (f : Store → Store) : Run Unit := modify fun s => { s with store := f s.store }

def note (entry : String) : Run Unit := modify fun s => { s with journal := s.journal.push entry }

def record (e : LogEntry) : Run Unit := modify fun s => { s with log := s.log.push e }

def fail {α : Type} (ctx : Context) (k : ViewErrorKind) : Run α := throw (ctx.error k)

/-- Lifts a result whose error is placed at the current frame. -/
def lift {α : Type} (ctx : Context) : Except ViewErrorKind α → Run α
  | .ok a => pure a
  | .error k => fail ctx k

/-- Runs store access; an access error is placed at the current frame. -/
def access {α : Type} (ctx : Context) (m : Access α) : Run α := fun s =>
  match m s.store with
  | .ok a st => .ok a { s with store := st }
  | .error e st => .error (ctx.error (.access e)) { s with store := st }

/-- Lifts a conversion. -/
def convert {α : Type} (ctx : Context) (r : Except ConversionError α) : Run α :=
  lift ctx (r.mapError .conversion)

/-- Lifts a stream step. -/
def stream {α : Type} (ctx : Context) (r : Except StreamError α) : Run α :=
  lift ctx (r.mapError .stream)

end Run

namespace Context

/-- Asks every listener whether to visit a node; the recorder refuses vetoed names and logs
the refusal. The first refusal ends the asking. -/
def shouldVisit (ctx : Context) (n : Node) : Run Bool :=
  ctx.listeners.allM fun
    | .recorder r =>
      if (n.name.map r.veto.contains).getD false then do
        Run.record (.vetoed ctx.viewPath)
        pure false
      else pure true
    | _ => pure true

/-- Tells every listener a node was visited. -/
def nodeVisited (ctx : Context) (n : Node) : Run Unit :=
  ctx.listeners.forM fun
    | .recorder r => if r.visits then Run.record (.visited ctx.viewPath n.kind.debugText) else pure ()
    | _ => pure ()

/-- Tells every listener an object was created. -/
def entityCreated (ctx : Context) (h : Handle) : Run Unit := do
  modify fun s => { s with notices := s.notices ++ [.created h] }
  ctx.listeners.forM fun
    | .counter id => modify fun s => let (c, d) := s.counts? id; s.setCounts id (c + 1, d)
    | .recorder _ => do
      let s ← get
      let (label, labels) := s.labels.ensure h "new"
      set { s with labels }
      Run.record (.created ctx.viewPath (s.store.typeOf h).name label)
    | .plain => pure ()

/-- Tells every listener an object was discarded. -/
def entityDiscarded (ctx : Context) (h : Handle) : Run Unit := do
  modify fun s => { s with notices := s.notices ++ [.discarded h] }
  ctx.listeners.forM fun
    | .counter id => modify fun s => let (c, d) := s.counts? id; s.setCounts id (c, d + 1)
    | .recorder _ => do
      let s ← get
      let (label, labels) := s.labels.ensure h "x"
      set { s with labels }
      Run.record (.discarded ctx.viewPath (s.store.typeOf h).name label)
    | .plain => pure ()

/-- A new object of a type: made by the first factory for its name, else a fresh instance
unless the type is abstract. -/
def newInstance (ctx : Context) (t : ModelType) : Run Handle := do
  match ctx.factories.find? (·.typeName == t.name) with
  | some f =>
    match f.make with
    | some u => modifyGet fun s => let (st, h) := s.store.newObject u; (h, { s with store := st })
    | none => Run.fail ctx (.instantiation t.name "factory refused")
  | none =>
    if t.isAbstract then Run.fail ctx (.instantiation t.name "type is abstract")
    else modifyGet fun s => let (st, h) := s.store.newObject t; (h, { s with store := st })

end Context

/-- The description of an entity in the journal: its properties, then its size. -/
def Entity.describe : Entity → String
  | ⟨_, props⟩ => "[" ++ ",".intercalate (describeProps props) ++ "]\x7blen=" ++
      toString props.length ++ " empty=" ++ toString props.isEmpty ++ "\x7d"
where
  describeProps : List (String × Staged) → List String
    | [] => []
    | (n, v) :: ps => (n ++ "=" ++ describeOne v) :: describeProps ps
  describeOne : Staged → String
    | .value s => "value:" ++ s.text
    | .entity t ps => "object:" ++ t.name ++ Entity.describe ⟨t, ps⟩
    | v => v.shapeName

namespace Registry

/-- The registered object whose key property holds the entity's key scalar. -/
def lookup (r : Registry) (s : Store) (e : Entity) : Option Handle :=
  match e.scalar? r.key with
  | none => none
  | some k => r.objects.find? fun h => s.fieldScalar h r.key == k

end Registry

/-- Resolves a reference through the first resolver for the type. -/
def Context.resolveReference (ctx : Context) (t : ModelType) (e : Entity) : Run Handle := do
  let some r := ctx.resolvers.find? (t.isSubtypeOf ·.type)
    | Run.fail ctx (.noReferenceResolver t.name)
  if r.probe then
    Run.note ("probe " ++ t.name ++ " " ++ e.type.name ++ e.describe)
    if r.refuse then Run.fail ctx (.handler "resolver refused")
  match r.lookup (← Run.store) e with
  | some h => pure h
  | none => Run.fail ctx (.unresolvedReference t.name)

end GraphViews

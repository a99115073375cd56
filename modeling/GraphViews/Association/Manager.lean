import GraphViews.Binding.Run
/-!
Association managers.

A manager reads and changes one association of an owner, with the capability its
reconciliation needs: one associate (to-one), an ordered list (indexed), a membership
collection (unordered) or a keyed map (keyed). It also decides whether a live object is the
associate a staged entity stands for.

The managers of a node come from the factory pinned on the node, else from the first factory
of the context that supports the association, else from the node itself: its accessor for a
single associate, its collection access for the others. Factory managers journal every call;
they work on the owner's raw property named by the association, or on the owner itself when
it is no object or the name is empty.
-/

namespace GraphViews

/-- A live object matches an entity by its type and the identity properties; without
identity properties, `single` decides. -/
def identityMatches (s : Store) (keys : List IdentityKey) (live : Handle) (e : Entity)
    (single : Bool) : Bool :=
  if !s.isInstanceOf live e.type then false
  else if keys.isEmpty then single
  else keys.all fun k =>
    match e.scalar? k.name, (k.accessor.get (.object live)).run s with
    | some expected, .ok (.scalar actual) _ => actual == expected
    | _, _ => false

/-- An association manager. -/
inductive Manager where
  /-- a single associate through the node's accessor -/
  | field (a : Accessor) (identity : List IdentityKey)
  /-- associates through the node's collection access -/
  | collection (capability : ManagerCapability) (m : Multi) (identity : List IdentityKey)
  /-- made by a factory, the `serial`-th of that factory, for an association -/
  | journaled (f : ManagerFactory) (serial : Nat) (d : Descriptor)
deriving Inhabited

namespace Manager

def capability : Manager → ManagerCapability
  | field .. => .toOne
  | collection c .. => c
  | journaled f .. => f.capability

def debugText (m : Manager) : String := "Manager(" ++ m.capability.text ++ ")"

/-- The live object is the associate the entity stands for. -/
def isSame (m : Manager) (s : Store) (live : Handle) (e : Entity) : Bool :=
  match m with
  | field _ ids => identityMatches s ids live e true
  | collection c _ ids => identityMatches s ids live e (c == .keyed)
  | journaled f .. =>
    match f.key with
    | some k => e.scalar? k == some (s.fieldScalar live k)
    | none => s.isInstanceOf live e.type

/-- How a journal entry names a value. -/
def describe (f : ManagerFactory) (s : Store) (v : Value) : String :=
  match f.key, v with
  | some k, .object h => (s.fieldScalar h k).text
  | none, .object h => (s.typeOf h).name
  | _, v => v.shapeName

/-- The journal entry of a call, with the manager's label and serial. -/
def entry (f : ManagerFactory) (serial : Nat) (what : String) : String :=
  f.label ++ " " ++ what ++ " #" ++ toString serial

/-- The value a factory manager works on. -/
def container (d : Descriptor) (s : Store) (owner : Value) : Value :=
  match owner with
  | .object h => if d.name.isEmpty then owner else s.field h d.name
  | _ => owner

def begin (m : Manager) (ctx : Context) : Run Unit :=
  match m with
  | journaled f serial _ => do
    Run.note (entry f serial "begin")
    if f.failBegin then Run.fail ctx (.handler "begin refused")
  | _ => pure ()

def finish (m : Manager) (ctx : Context) : Run Unit :=
  match m with
  | journaled f serial _ => do
    Run.note (entry f serial "end")
    if f.failEnd then Run.fail ctx (.handler "end refused")
  | _ => pure ()

def wrongShape {α : Type} (ctx : Context) (d : Descriptor) (expected : String) (v : Value) : Run α :=
  Run.fail ctx (.access (.wrongShape d.name expected v.shapeName))

/-- The list a factory manager works on. -/
def listOf (ctx : Context) (d : Descriptor) (owner : Value) : Run Handle := do
  match container d (← Run.store) owner with
  | .list h => pure h
  | v => wrongShape ctx d "list" v

/-- The map a factory manager works on. -/
def mapOf (ctx : Context) (d : Descriptor) (owner : Value) : Run Handle := do
  match container d (← Run.store) owner with
  | .map h => pure h
  | v => wrongShape ctx d "map" v

-- ------------------------------------------------------------ to-one

/-- The current associate. -/
def getOne (m : Manager) (ctx : Context) (owner : Value) : Run (Option Handle) := do
  let v ← match m with
    | field a _ => Run.access ctx (a.get owner)
    | collection _ mm _ => Run.access ctx (mm.accessor.get owner)
    | journaled _ _ d => pure (container d (← Run.store) owner)
  match v with
  | .object h => pure (some h)
  | v =>
    if v.isNull then pure none
    else match m with
      | journaled _ _ d => wrongShape ctx d "object" v
      | field a _ => Run.fail ctx (.access (.wrongShape a.name "object" v.shapeName))
      | collection _ mm _ => Run.fail ctx (.access (.wrongShape mm.name "object" v.shapeName))

/-- Sets the associate, or clears it. -/
def setOne (m : Manager) (ctx : Context) (owner : Value) (a : Option Handle) : Run Unit := do
  let v : Value := match a with
    | some h => .object h
    | none => .null
  match m with
  | field acc _ => Run.access ctx (acc.set owner v)
  | collection _ mm _ => Run.access ctx (mm.accessor.set owner v)
  | journaled f serial d =>
    let s ← Run.store
    Run.note (entry f serial ("set " ++ (if a.isSome then describe f s v else "null")))
    match owner with
    | .object h => Run.modifyStore (·.setField h d.name v)
    | o => wrongShape ctx d "object" o

-- ------------------------------------------------------------ indexed

def size (m : Manager) (ctx : Context) (owner : Value) : Run Nat := do
  match m with
  | collection _ mm _ => Run.access ctx (mm.size owner)
  | journaled _ _ d => return ((← Run.store).items (← listOf ctx d owner)).length
  | field .. => pure 0

def getAt (m : Manager) (ctx : Context) (owner : Value) (i : Nat) : Run Value := do
  match m with
  | collection _ mm _ => Run.access ctx (mm.getAt owner i)
  | journaled _ _ d =>
    let xs := (← Run.store).items (← listOf ctx d owner)
    match xs[i]? with
    | some v => pure v
    | none => Run.fail ctx (.access (.indexOutOfBounds d.name i xs.length))
  | field .. => pure .null

/-- Inserts an associate before an index. -/
def addAt (m : Manager) (ctx : Context) (owner : Value) (i : Nat) (v : Value) : Run Unit := do
  match m with
  | collection _ mm _ => Run.access ctx (mm.insertAt owner i v)
  | journaled f serial d =>
    let h ← listOf ctx d owner
    let s ← Run.store
    let xs := s.items h
    unless i ≤ xs.length do Run.fail ctx (.access (.indexOutOfBounds d.name i xs.length))
    Run.note (entry f serial ("add " ++ toString i ++ " " ++ describe f s v))
    Run.modifyStore (·.setItems h (xs.insertIdx i v))
  | field .. => pure ()

/-- Removes the associate at an index and returns it. -/
def removeAt (m : Manager) (ctx : Context) (owner : Value) (i : Nat) : Run Value := do
  match m with
  | collection _ mm _ => Run.access ctx (mm.removeAt owner i)
  | journaled f serial d =>
    let h ← listOf ctx d owner
    let s ← Run.store
    let xs := s.items h
    match xs[i]? with
    | none => Run.fail ctx (.access (.indexOutOfBounds d.name i xs.length))
    | some v =>
      Run.note (entry f serial ("remove " ++ toString i ++ " " ++ describe f s v))
      Run.modifyStore (·.setItems h (xs.eraseIdx i))
      pure v
  | field .. => pure .null

-- ------------------------------------------------------------ unordered

def iterate (m : Manager) (ctx : Context) (owner : Value) : Run (List Value) := do
  match m with
  | collection _ mm _ => Run.access ctx (mm.iterate owner)
  | journaled _ _ d =>
    let s ← Run.store
    match container d s owner with
    | .list h | .set h => pure (s.items h)
    | v => wrongShape ctx d "collection" v
  | field .. => pure []

def add (m : Manager) (ctx : Context) (owner v : Value) : Run Unit := do
  match m with
  | collection _ mm _ => Run.access ctx (mm.add owner v)
  | journaled f serial d =>
    let s ← Run.store
    Run.note (entry f serial ("add " ++ describe f s v))
    match container d s owner with
    | .list h => Run.modifyStore fun s => s.setItems h (s.items h ++ [v])
    | .set h => Run.modifyStore fun s => (s.setInsert h v).1
    | c => wrongShape ctx d "collection" c
  | field .. => pure ()

def remove (m : Manager) (ctx : Context) (owner v : Value) : Run Bool := do
  match m with
  | collection _ mm _ => Run.access ctx (mm.remove owner v)
  | journaled f serial d =>
    let s ← Run.store
    Run.note (entry f serial ("remove " ++ describe f s v))
    match container d s owner with
    | .list h =>
      let xs := s.items h
      match xs.findIdx? (·.isSame v) with
      | some i => Run.modifyStore (·.setItems h (xs.eraseIdx i)); pure true
      | none => pure false
    | .set h => modifyGet fun st => let (store, b) := st.store.setRemove h v; (b, { st with store })
    | c => wrongShape ctx d "collection" c
  | field .. => pure false

-- ------------------------------------------------------------ keyed

def entries (m : Manager) (ctx : Context) (owner : Value) : Run (List (Scalar × Value)) := do
  match m with
  | collection _ mm _ => Run.access ctx (mm.entries owner)
  | journaled _ _ d => return (← Run.store).entries (← mapOf ctx d owner)
  | field .. => pure []

def getKey (m : Manager) (ctx : Context) (owner : Value) (k : Scalar) : Run (Option Value) := do
  match m with
  | collection _ mm _ => Run.access ctx (mm.getKey owner k)
  | journaled _ _ d => return (← Run.store).mapGet? (← mapOf ctx d owner) k
  | field .. => pure none

def put (m : Manager) (ctx : Context) (owner : Value) (k : Scalar) (v : Value) : Run Unit := do
  match m with
  | collection _ mm _ => let _ ← Run.access ctx (mm.put owner k v)
  | journaled f serial d =>
    let h ← mapOf ctx d owner
    let s ← Run.store
    Run.note (entry f serial ("put " ++ k.text ++ " " ++ describe f s v))
    Run.modifyStore fun s => (s.mapPut h k v).1
  | field .. => pure ()

def removeKey (m : Manager) (ctx : Context) (owner : Value) (k : Scalar) : Run Unit := do
  match m with
  | collection _ mm _ => let _ ← Run.access ctx (mm.removeKey owner k)
  | journaled f serial d =>
    let h ← mapOf ctx d owner
    Run.note (entry f serial ("remove " ++ k.text))
    Run.modifyStore fun s => (s.mapRemove h k).1
  | field .. => pure ()

end Manager

/-- A manager from a factory: the factory's next serial, journaled. -/
def ManagerFactory.create (f : ManagerFactory) (d : Descriptor) : Run Manager := do
  let serial ← modifyGet fun s =>
    let n := ((s.serials.find? (·.1 == f.id)).map (·.2)).getD 0 + 1
    (n, { s with serials := (f.id, n) :: s.serials.filter (·.1 != f.id) })
  Run.note (f.label ++ " create #" ++ toString serial ++ " " ++ d.text)
  let m := Manager.journaled f serial d
  if f.describe then
    Run.note (f.label ++ " describe " ++ m.debugText ++ " " ++ f.capability.text ++ " owner=" ++
      d.owner.name ++ " associate=" ++ d.associate.debugText)
  pure m

/-- The manager of a node for an association. -/
def Node.manager (n : Node) (ctx : Context) (d : Descriptor) : Run Manager := do
  if let some f := n.info.manager then
    unless f.supports d do Run.fail ctx (.unsupportedAssociation d.text)
    return ← f.create d
  if let some f := ctx.managers.find? (·.supports d) then
    return ← f.create d
  let missing : Run Manager := Run.fail ctx (.unsupportedAssociation (n.name.getD "<root>"))
  match n.kind with
  | .object | .reference =>
    match n.accessor with
    | some a => pure (.field a n.info.identity)
    | none => missing
  | .arrayOfObjects =>
    match n.multi with
    | some m => match m.capability with
      | .ordered => pure (.collection .indexed m n.info.identity)
      | .unordered => pure (.collection .unordered m n.info.identity)
      | .keyed => missing
    | none => missing
  | .mapOfObjects =>
    match n.multi with
    | some m => pure (.collection .keyed m n.info.identity)
    | none => missing
  | _ => missing

end GraphViews

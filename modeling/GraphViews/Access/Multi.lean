import GraphViews.Access.Accessor
/-!
Collection access: the elements of a list, fixed array, set or map held by a property.

A `Multi` wraps the accessor of the property. A property that holds null reads as an empty
collection; a write to it first stores a fresh container (lists, sets and maps) or writes the
edited array back (arrays, which are held by value). Operations a shape does not have fail
with `unsupported` before anything is read.
-/

namespace GraphViews

/-- What a collection offers: order, membership, or keys. -/
inductive Capability where
  | ordered
  | unordered
  | keyed
deriving DecidableEq, Inhabited

def Capability.text : Capability → String
  | .ordered => "ordered"
  | .unordered => "unordered"
  | .keyed => "keyed"

/-- Access to the elements of a collection property. -/
inductive Multi where
  | list (a : Accessor)
  | array (a : Accessor)
  | set (a : Accessor)
  | map (a : Accessor)
deriving Inhabited

namespace Multi

def accessor : Multi → Accessor
  | list a | array a | set a | map a => a

def name (m : Multi) : String := m.accessor.name

def modes (m : Multi) : AccessModes := m.accessor.modes

def capability : Multi → Capability
  | list _ | array _ => .ordered
  | set _ => .unordered
  | map _ => .keyed

/-- The debug text: the wrapper around its accessor's debug text. -/
def debugText : Multi → String
  | list a => "ListAccessor \x7b delegate: " ++ a.debugText ++ " \x7d"
  | array a => "ArrayAccessor \x7b delegate: " ++ a.debugText ++ " \x7d"
  | set a => "SetAccessor \x7b delegate: " ++ a.debugText ++ " \x7d"
  | map a => "MapAccessor \x7b delegate: " ++ a.debugText ++ " \x7d"

/-- The failure of an operation a shape does not have. -/
def unsupported {α : Type} (m : Multi) (operation : String) : Access α :=
  throw (.unsupported m.name operation)

/-- Fails unless the index is below the size. -/
def checkIndex (name : String) (i n : Nat) : Access Unit :=
  unless i < n do throw (.indexOutOfBounds name i n)

/-- The shared container a property holds, none for null. -/
def readCell (a : Accessor) (shape : String) (owner : Value) : Access (Option Handle) := do
  match ← a.get owner with
  | .list h => if shape == "list" then return some h else throw (.wrongShape a.name shape "list")
  | .set h => if shape == "set" then return some h else throw (.wrongShape a.name shape "set")
  | .map h => if shape == "map" then return some h else throw (.wrongShape a.name shape "map")
  | v => if v.isNull then return none else throw (.wrongShape a.name shape v.shapeName)

/-- The shared container a property holds; for null a fresh empty one is stored first. -/
def writeCell (a : Accessor) (shape : String) (owner : Value) : Access Handle := do
  match ← readCell a shape owner with
  | some h => pure h
  | none =>
    let (cell, wrap) : Cell × (Handle → Value) :=
      if shape == "list" then (.list [], .list) else if shape == "set" then (.set [], .set)
      else (.map [], .map)
    let h ← Access.step (·.alloc cell)
    a.set owner (wrap h)
    pure h

/-- The elements of an array property; null reads as none. -/
def readArray (a : Accessor) (owner : Value) : Access (List Value) := do
  match ← a.get owner with
  | .array xs => pure xs
  | v => if v.isNull then pure [] else throw (.wrongShape a.name "array" v.shapeName)

/-- Edits the elements of an array property and writes the array back. -/
def editArray {α : Type} (a : Accessor) (owner : Value)
    (edit : List Value → Access (List Value × α)) : Access α := do
  let (xs, out) ← edit (← readArray a owner)
  a.set owner (.array xs)
  pure out

def items (h : Handle) : Access (List Value) := return (← getThe Store).items h

def setItems (h : Handle) (xs : List Value) : Access Unit := modify fun s => s.setItems h xs

/-- The elements, in order; for a map its values. -/
def iterate (m : Multi) (owner : Value) : Access (List Value) := do
  match m with
  | list a | set a =>
    match ← readCell a (if m.capability == .ordered then "list" else "set") owner with
    | some h => items h
    | none => pure []
  | array a => readArray a owner
  | map a =>
    match ← readCell a "map" owner with
    | some h => return ((← getThe Store).entries h).map (·.2)
    | none => pure []

/-- The number of elements. -/
def size (m : Multi) (owner : Value) : Access Nat := do
  match m with
  | map a =>
    match ← readCell a "map" owner with
    | some h => return ((← getThe Store).entries h).length
    | none => pure 0
  | _ => return (← m.iterate owner).length

/-- Adds an element: at the end of a list or array, into a set unless it is there. -/
def add (m : Multi) (owner v : Value) : Access Unit := do
  match m with
  | list a =>
    let h ← writeCell a "list" owner
    setItems h ((← items h) ++ [v])
  | array a => editArray a owner fun xs => pure (xs ++ [v], ())
  | set a =>
    let h ← writeCell a "set" owner
    modify fun s => (s.setInsert h v).1
  | map _ => m.unsupported "add without key"

/-- Removes the first element that is the same value; says whether one was. -/
def remove (m : Multi) (owner v : Value) : Access Bool := do
  match m with
  | list a =>
    let some h ← readCell a "list" owner | return false
    let xs ← items h
    match xs.findIdx? (·.isSame v) with
    | some i => setItems h (xs.eraseIdx i); return true
    | none => return false
  | array a =>
    editArray a owner fun xs =>
      match xs.findIdx? (·.isSame v) with
      | some i => pure (xs.eraseIdx i, true)
      | none => pure (xs, false)
  | set a =>
    let some h ← readCell a "set" owner | return false
    Access.step (·.setRemove h v)
  | map a =>
    let some h ← readCell a "map" owner | return false
    match ((← getThe Store).entries h).find? (·.2.isSame v) with
    | some (k, _) =>
      return (← Access.step (·.mapRemove h k)).isSome
    | none => return false

/-- Removes every element. -/
def clear (m : Multi) (owner : Value) : Access Unit := do
  match m with
  | list a => if let some h ← readCell a "list" owner then setItems h []
  | set a => if let some h ← readCell a "set" owner then setItems h []
  | array a => editArray a owner fun _ => pure ([], ())
  | map a =>
    if let some h ← readCell a "map" owner then modify fun s => s.setEntries h []

/-- The element at an index. -/
def getAt (m : Multi) (owner : Value) (i : Nat) : Access Value := do
  match m with
  | list a =>
    let xs ← match ← readCell a "list" owner with
      | some h => items h
      | none => pure []
    match xs[i]? with
    | some v => pure v
    | none => throw (.indexOutOfBounds m.name i xs.length)
  | array a =>
    let xs ← readArray a owner
    checkIndex m.name i xs.length
    pure (xs[i]?.getD .null)
  | _ => m.unsupported "indexed get"

/-- Replaces the element at an index. -/
def setAt (m : Multi) (owner : Value) (i : Nat) (v : Value) : Access Unit := do
  match m with
  | list a =>
    let h ← writeCell a "list" owner
    let xs ← items h
    checkIndex m.name i xs.length
    setItems h (xs.set i v)
  | array a =>
    editArray a owner fun xs => do
      checkIndex m.name i xs.length
      pure (xs.set i v, ())
  | _ => m.unsupported "indexed set"

/-- Inserts an element before an index; the index may be the size. -/
def insertAt (m : Multi) (owner : Value) (i : Nat) (v : Value) : Access Unit := do
  match m with
  | list a =>
    let h ← writeCell a "list" owner
    let xs ← items h
    checkIndex m.name i (xs.length + 1)
    setItems h (xs.insertIdx i v)
  | array a =>
    editArray a owner fun xs => do
      checkIndex m.name i (xs.length + 1)
      pure (xs.insertIdx i v, ())
  | _ => m.unsupported "indexed insert"

/-- Removes the element at an index and returns it. -/
def removeAt (m : Multi) (owner : Value) (i : Nat) : Access Value := do
  match m with
  | list a =>
    let h ← writeCell a "list" owner
    let xs ← items h
    checkIndex m.name i xs.length
    setItems h (xs.eraseIdx i)
    pure (xs[i]?.getD .null)
  | array a =>
    editArray a owner fun xs => do
      checkIndex m.name i xs.length
      pure (xs.eraseIdx i, xs[i]?.getD .null)
  | _ => m.unsupported "indexed remove"

/-- The index of the first element that is the same value. -/
def indexOf (m : Multi) (owner v : Value) : Access (Option Nat) := do
  return (← m.iterate owner).findIdx? (·.isSame v)

/-- The entries of a map, in order. -/
def entries (m : Multi) (owner : Value) : Access (List (Scalar × Value)) := do
  match m with
  | map a =>
    match ← readCell a "map" owner with
    | some h => return (← getThe Store).entries h
    | none => pure []
  | _ => m.unsupported "entry iteration"

/-- The value under a key. -/
def getKey (m : Multi) (owner : Value) (k : Scalar) : Access (Option Value) := do
  match m with
  | map a =>
    match ← readCell a "map" owner with
    | some h => return (← getThe Store).mapGet? h k
    | none => pure none
  | _ => m.unsupported "keyed get"

/-- Puts a value under a key; returns the value it replaced. -/
def put (m : Multi) (owner : Value) (k : Scalar) (v : Value) : Access (Option Value) := do
  match m with
  | map a =>
    let h ← writeCell a "map" owner
    Access.step (·.mapPut h k v)
  | _ => m.unsupported "keyed put"

/-- Removes a key; returns its value. -/
def removeKey (m : Multi) (owner : Value) (k : Scalar) : Access (Option Value) := do
  match m with
  | map a =>
    match ← readCell a "map" owner with
    | some h =>
      Access.step (·.mapRemove h k)
    | none => pure none
  | _ => m.unsupported "keyed remove"

end Multi

end GraphViews

import GraphViews.Model.Type
/-!
Model values and the store that holds the shared ones.

A value is a scalar, an array held by value, or a handle to a shared cell: an object, a
list, a set or a map. Copying a value copies the handle, so two places that hold one handle
see each other's writes; `Value.isSame` compares handles, not contents.

A store is the array of cells, a handle its index. Objects keep their slots in the order the
slots were made: first the declared fields of their type, then any other name written to.
Sets keep insertion order and remove by moving the last element into the hole; maps keep
insertion order, a replaced key keeping its place.
-/

namespace GraphViews

/-- An index into the store. -/
abbrev Handle := Nat

/-- A value a property can hold. -/
inductive Value where
  | scalar (s : Scalar)
  | object (h : Handle)
  | list (h : Handle)
  | set (h : Handle)
  | array (items : List Value)
  | map (h : Handle)
deriving Inhabited

namespace Value

def null : Value := .scalar .null

def isNull : Value → Bool
  | scalar .null => true
  | _ => false

def scalar? : Value → Option Scalar
  | scalar s => some s
  | _ => none

def object? : Value → Option Handle
  | object h => some h
  | _ => none

/-- The name of a value's shape, as diagnostics write it. -/
def shapeName : Value → String
  | scalar .null => "null"
  | scalar _ => "scalar"
  | object _ => "object"
  | list _ => "list"
  | set _ => "set"
  | array _ => "array"
  | map _ => "map"

/-- Identity: handles by index, scalars by equality, arrays element by element. -/
def isSame : Value → Value → Bool
  | object a, object b => a == b
  | list a, list b => a == b
  | set a, set b => a == b
  | map a, map b => a == b
  | scalar a, scalar b => a == b
  | array xs, array ys => sameItems xs ys
  | _, _ => false
where
  sameItems : List Value → List Value → Bool
    | [], [] => true
    | x :: xs, y :: ys => isSame x y && sameItems xs ys
    | _, _ => false

end Value

/-- An object: its type and its slots. -/
structure Instance where
  type : ModelType
  slots : List (String × Value)
deriving Inhabited

/-- A shared cell of the store. -/
inductive Cell where
  | object (o : Instance)
  | list (items : List Value)
  | set (items : List Value)
  | map (entries : List (Scalar × Value))
deriving Inhabited

/-- The shared cells of a model graph. -/
structure Store where
  cells : Array Cell := #[]
deriving Inhabited

/-- Writes a slot: an existing one in place, a new one at the end. -/
def writeSlot (slots : List (String × Value)) (name : String) (v : Value) :
    List (String × Value) :=
  if slots.any (·.1 == name) then slots.map (fun p => if p.1 == name then (name, v) else p)
  else slots ++ [(name, v)]

/-- Writes a map entry: an equal key in place, a new key at the end. Returns the value it
replaced. -/
def writeEntry (entries : List (Scalar × Value)) (k : Scalar) (v : Value) :
    List (Scalar × Value) × Option Value :=
  match entries.find? (·.1 == k) with
  | some (_, old) => (entries.map (fun p => if p.1 == k then (p.1, v) else p), some old)
  | none => (entries ++ [(k, v)], none)

/-- Removes the first element that satisfies `p`, moving the last element into its place. -/
def swapRemove (xs : List Value) (p : Value → Bool) : Option (List Value) :=
  match xs.findIdx? p with
  | none => none
  | some i =>
    if i + 1 = xs.length then some xs.dropLast
    else some ((xs.dropLast).set i (xs.getLast?.getD .null))

namespace Store

/-- The number of cells. -/
def size (s : Store) : Nat := s.cells.size

def cell? (s : Store) (h : Handle) : Option Cell := s.cells[h]?

/-- Adds a cell and returns its handle. -/
def alloc (s : Store) (c : Cell) : Store × Handle := (⟨s.cells.push c⟩, s.cells.size)

/-- Replaces a cell; a handle outside the store changes nothing. -/
def put (s : Store) (h : Handle) (c : Cell) : Store := ⟨s.cells.set! h c⟩

/-- The value a declared field starts with: an empty container for the container shapes,
null otherwise. -/
def emptyOf (s : Store) : DataType → Store × Value
  | .list => let (s, h) := s.alloc (.list []); (s, .list h)
  | .set => let (s, h) := s.alloc (.set []); (s, .set h)
  | .map _ => let (s, h) := s.alloc (.map []); (s, .map h)
  | .array => (s, .array [])
  | _ => (s, .null)

/-- A fresh instance of a type: one slot per visible field, each empty. -/
def newObject (s : Store) (t : ModelType) : Store × Handle :=
  let step (acc : Store × List (String × Value)) (d : PropertyDecl) :=
    let (s, slots) := acc
    if d.isField then let (s, v) := s.emptyOf d.dataType; (s, slots ++ [(d.name, v)])
    else (s, slots)
  let (s, slots) := t.properties.foldl step (s, [])
  s.alloc (.object ⟨t, slots⟩)

def instance? (s : Store) (h : Handle) : Option Instance :=
  match s.cell? h with
  | some (.object o) => some o
  | _ => none

/-- The type of an object. -/
def typeOf (s : Store) (h : Handle) : ModelType :=
  (s.instance? h).map (·.type) |>.getD default

/-- The object is an instance of the type or of one of its subtypes. -/
def isInstanceOf (s : Store) (h : Handle) (t : ModelType) : Bool :=
  (s.typeOf h).isSubtypeOf t

/-- The slot of that name, if the object has one. -/
def slot? (s : Store) (h : Handle) (name : String) : Option Value :=
  (s.instance? h).bind fun o => (o.slots.find? (·.1 == name)).map (·.2)

/-- A raw field: missing fields read as null. -/
def field (s : Store) (h : Handle) (name : String) : Value := (s.slot? h name).getD .null

/-- The scalar of a raw field, null when it holds anything else. -/
def fieldScalar (s : Store) (h : Handle) (name : String) : Scalar :=
  match s.field h name with
  | .scalar x => x
  | _ => .null

/-- Writes a raw field. -/
def setField (s : Store) (h : Handle) (name : String) (v : Value) : Store :=
  match s.instance? h with
  | some o => s.put h (.object { o with slots := writeSlot o.slots name v })
  | none => s

/-- The elements of a list or set cell. -/
def items (s : Store) (h : Handle) : List Value :=
  match s.cell? h with
  | some (.list xs) => xs
  | some (.set xs) => xs
  | _ => []

def entries (s : Store) (h : Handle) : List (Scalar × Value) :=
  match s.cell? h with
  | some (.map es) => es
  | _ => []

def setItems (s : Store) (h : Handle) (xs : List Value) : Store :=
  match s.cell? h with
  | some (.list _) => s.put h (.list xs)
  | some (.set _) => s.put h (.set xs)
  | _ => s

def setEntries (s : Store) (h : Handle) (es : List (Scalar × Value)) : Store :=
  match s.cell? h with
  | some (.map _) => s.put h (.map es)
  | _ => s

/-- A new list with these elements. -/
def newList (s : Store) (xs : List Value) : Store × Value :=
  let (s, h) := s.alloc (.list xs); (s, .list h)

/-- Adds a value to a set unless an element is the same value; says whether it added. -/
def setInsert (s : Store) (h : Handle) (v : Value) : Store × Bool :=
  let xs := s.items h
  if xs.any (·.isSame v) then (s, false) else (s.setItems h (xs ++ [v]), true)

/-- Removes the element that is the same value, the last element taking its place. -/
def setRemove (s : Store) (h : Handle) (v : Value) : Store × Bool :=
  match swapRemove (s.items h) (·.isSame v) with
  | some xs => (s.setItems h xs, true)
  | none => (s, false)

/-- A new set of these values, later values that are the same as an earlier one dropped. -/
def newSet (s : Store) (xs : List Value) : Store × Value :=
  let (s, h) := s.alloc (.set [])
  (xs.foldl (fun s v => (s.setInsert h v).1) s, .set h)

/-- Puts a map entry; returns the value it replaced. -/
def mapPut (s : Store) (h : Handle) (k : Scalar) (v : Value) : Store × Option Value :=
  let (es, old) := writeEntry (s.entries h) k v
  (s.setEntries h es, old)

def mapGet? (s : Store) (h : Handle) (k : Scalar) : Option Value :=
  ((s.entries h).find? (·.1 == k)).map (·.2)

/-- Removes a map entry; returns its value. -/
def mapRemove (s : Store) (h : Handle) (k : Scalar) : Store × Option Value :=
  let es := s.entries h
  match es.findIdx? (·.1 == k) with
  | some i => (s.setEntries h (es.eraseIdx i), (es[i]?).map (·.2))
  | none => (s, none)

/-- A new map of these entries, a later equal key replacing the value in place. -/
def newMap (s : Store) (es : List (Scalar × Value)) : Store × Value :=
  let (s, h) := s.alloc (.map [])
  (es.foldl (fun s (k, v) => (s.mapPut h k v).1) s, .map h)

/-- The number of elements of a container value; none for other shapes. -/
def length? (s : Store) : Value → Option Nat
  | .list h | .set h => some (s.items h).length
  | .map h => some (s.entries h).length
  | .array xs => some xs.length
  | _ => none

end Store

end GraphViews

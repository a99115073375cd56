import GraphViews.Scalar.Basic
/-!
Documents.

Scripted requests and their answers are trees of a small document type: null, booleans,
numbers, texts, arrays, and objects with text keys in the order they were written. A number
written without a fraction or an exponent is an integer of any size; any other number is a
decimal kept exactly, sign included, so that `-0.0` and `1e16` read as doubles.

Scalars travel in documents as follows: null, booleans and texts as themselves, integers in
the 64-bit range as numbers, doubles as `{"float": text}` (a number or a text in the reading
grammar on the way in, the plain display text on the way out) and instants as
`{"date": micros}`.
-/

namespace GraphViews.Script

/-- A document tree. -/
inductive Doc where
  | null
  | bool (b : Bool)
  /-- a number written as an integer -/
  | int (i : Int)
  /-- a number written with a fraction or an exponent: `±digits × 10^exponent` -/
  | real (negative : Bool) (digits : Nat) (exponent : Int)
  | str (s : String)
  | arr (items : List Doc)
  | obj (fields : List (String × Doc))
deriving Inhabited

namespace Doc

/-- A natural number document. -/
def nat (n : Nat) : Doc := .int n

/-- A text list document. -/
def strs (xs : List String) : Doc := .arr (xs.map .str)

/-- An optional document: null when absent. -/
def opt : Option Doc → Doc
  | some d => d
  | none => .null

/-- The field of an object document. -/
def get? (d : Doc) (key : String) : Option Doc :=
  match d with
  | .obj fields => fields.lookup key
  | _ => none

/-- A field, null when absent or when the document is no object. -/
def field (d : Doc) (key : String) : Doc := (d.get? key).getD .null

/-- A text field. -/
def str? (d : Doc) (key : String) : Option String :=
  match d.get? key with
  | some (.str s) => some s
  | _ => none

/-- A boolean field; absent or not a boolean is false. -/
def flag (d : Doc) (key : String) : Bool :=
  match d.get? key with
  | some (.bool b) => b
  | _ => false

/-- The items of an array document; anything else has none. -/
def items : Doc → List Doc
  | .arr xs => xs
  | _ => []

/-- The item at a position of an array document. -/
def at? (d : Doc) (i : Nat) : Option Doc := d.items[i]?

/-- The text of a text document. -/
def asStr? : Doc → Option String
  | .str s => some s
  | _ => none

/-- The integer of a number written as an integer. -/
def asInt? : Doc → Option Int
  | .int i => some i
  | _ => none

/-- The natural number of a non-negative whole number document. -/
def asNat? (d : Doc) : Option Nat :=
  match d.asInt? with
  | some i => if i ≥ 0 then some i.toNat else none
  | none => none

/-- The object fields with an added field. -/
def withField (d : Doc) (key : String) (v : Doc) : Doc :=
  match d with
  | .obj fields => .obj (fields ++ [(key, v)])
  | other => other

/-- The nesting depth of a document. -/
def depth : Doc → Nat
  | arr items => 1 + depthItems items
  | obj fields => 1 + depthFields fields
  | _ => 0
where
  depthItems : List Doc → Nat
    | [] => 0
    | d :: ds => max (depth d) (depthItems ds)
  depthFields : List (String × Doc) → Nat
    | [] => 0
    | (_, d) :: fs => max (depth d) (depthFields fs)

/-- Fields of two object documents together. -/
def merge (a b : Doc) : Doc :=
  match a, b with
  | .obj xs, .obj ys => .obj (xs ++ ys)
  | a, _ => a

end Doc

/-- The double nearest to a number document; a non-number is zero. -/
def Doc.toFloat : Doc → Float
  | .int i => Number.nearest (i < 0) i.natAbs 0
  | .real negative digits exponent => Number.nearest negative digits exponent
  | _ => 0

/-- The document of a scalar. -/
def scalarDoc : Scalar → Doc
  | .null => .null
  | .bool b => .bool b
  | .int i => .int i.toInt
  | .float x => .obj [("float", .str (Number.FloatStyle.plain.render x))]
  | .string s => .str s
  | .date m => .obj [("date", .int m.toInt)]

/-- The document of an optional scalar: null when absent. -/
def scalarOptDoc : Option Scalar → Doc
  | some s => scalarDoc s
  | none => .null

end GraphViews.Script

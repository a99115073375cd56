import GraphViews.Model.Equality
/-!
Debug text of model values.

A value prints as its shape around its contents: `Scalar(Int(5))`, `Array([...])`, and
the shared containers with the cell they live in, `List(ListRef(RefCell { value: [...] }))`.
An object prints as its type name and its slots sorted by name, `Item { qty: ..., sku: ... }`;
an object without slots is its type name alone, and an object met again while it is being
printed is `Item(<cycle>)`.
-/

namespace GraphViews

/-- Joins texts with a comma and a blank. -/
def commaList (xs : List String) : String := ", ".intercalate xs

/-- The names sorted in code point order. -/
def sortNames (xs : List String) : List String := xs.mergeSort (fun a b => decide (a ≤ b))

namespace Store

/-- Debug text under a list of objects being printed. -/
def debugWith (s : Store) : Nat → List Handle → Value → String
  | 0, _, _ => ".."
  | n + 1, printing, v =>
    match v with
    | .scalar x => "Scalar(" ++ x.debugText ++ ")"
    | .object h => "Object(" ++ objectText n printing h ++ ")"
    | .list h => "List(ListRef(RefCell \x7b value: [" ++ items n printing (s.items h) ++ "] \x7d))"
    | .set h => "Set(SetRef(RefCell \x7b value: [" ++ items n printing (s.items h) ++ "] \x7d))"
    | .map h =>
      "Map(MapRef(RefCell \x7b value: [" ++
        commaList ((s.entries h).map fun (k, x) =>
          "(" ++ k.debugText ++ ", " ++ s.debugWith n printing x ++ ")") ++ "] \x7d))"
    | .array xs => "Array([" ++ items n printing xs ++ "])"
where
  items (n : Nat) (printing : List Handle) (xs : List Value) : String :=
    commaList (xs.map (s.debugWith n printing))
  objectText (n : Nat) (printing : List Handle) (h : Handle) : String :=
    match s.instance? h with
    | none => "ObjectRef(<borrowed>)"
    | some o =>
      if printing.contains h then o.type.name ++ "(<cycle>)"
      else
        let names := sortNames (o.slots.map (·.1))
        if names.isEmpty then o.type.name
        else
          o.type.name ++ " \x7b " ++
            commaList (names.map fun name =>
              name ++ ": " ++ s.debugWith n (h :: printing) (s.field h name)) ++ " \x7d"

/-- The debug text of a value. -/
def debugText (s : Store) (v : Value) : String := s.debugWith (s.equalBound v v) [] v

/-- The debug text of an object handle. -/
def objectDebugText (s : Store) (h : Handle) : String :=
  debugWith.objectText s (s.equalBound (.object h) (.object h)) [] h

end Store

end GraphViews

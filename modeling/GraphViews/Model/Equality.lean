import GraphViews.Model.Store
/-!
Structural equality of model values.

Two values are equal when they have the same shape and equal contents: scalars by scalar
equality, lists and arrays element by element, sets by equal length and every element of the
first equal to some element of the second, maps the same way on entries, objects by one
handle, or by equal type names and equal slot tables (the same names, equal values).

Object graphs may be cyclic. A pair of objects met again while it is still being compared
counts as equal, so the comparison of a cyclic graph ends: `Store.equal` computes the
greatest relation on objects that the rules above close under.

The recursion carries fuel. `Store.equalBound` is enough for every graph whose cycles pass
through an object: each object level adds a pair to the pairs under comparison, and between
two object levels the nesting is bounded by the containers and the array nodes of the store.
-/

namespace GraphViews

namespace Value

/-- The number of constructors of a value, arrays counted element by element. -/
def weight : Value → Nat
  | array xs => 1 + weightAll xs
  | _ => 1
where
  weightAll : List Value → Nat
    | [] => 0
    | x :: xs => weight x + weightAll xs

end Value

namespace Store

/-- The weight of every value held in the store. -/
def weight (s : Store) : Nat :=
  let cellWeight : Cell → Nat
    | .object o => (o.slots.map (·.2.weight)).foldr (· + ·) 0
    | .list xs | .set xs => (xs.map Value.weight).foldr (· + ·) 0
    | .map es => (es.map (·.2.weight)).foldr (· + ·) 0
  (s.cells.toList.map cellWeight).foldr (· + ·) 0

/-- Fuel that bounds the nesting of a comparison of `a` and `b`. -/
def equalBound (s : Store) (a b : Value) : Nat :=
  (s.size * s.size + 1) * (s.size + s.weight + a.weight + b.weight + 2)

/-- Structural equality under a list of object pairs already being compared. -/
def equalWith (s : Store) : Nat → List (Handle × Handle) → Value → Value → Bool
  | 0, _, _, _ => false
  | n + 1, seen, a, b =>
    match a, b with
    | .scalar x, .scalar y => x == y
    | .object h, .object k =>
      h == k || seen.contains (h, k) ||
        match s.instance? h, s.instance? k with
        | some o, some p =>
          o.type.name == p.type.name && o.slots.length == p.slots.length &&
            o.slots.all fun (name, v) =>
              match p.slots.find? (·.1 == name) with
              | some (_, w) => s.equalWith n ((h, k) :: seen) v w
              | none => false
        | _, _ => false
    | .list h, .list k => pointwise (s.equalWith n seen) (s.items h) (s.items k)
    | .array xs, .array ys => pointwise (s.equalWith n seen) xs ys
    | .set h, .set k =>
      let xs := s.items h
      let ys := s.items k
      xs.length == ys.length && xs.all fun x => ys.any fun y => s.equalWith n seen x y
    | .map h, .map k =>
      let xs := s.entries h
      let ys := s.entries k
      xs.length == ys.length &&
        xs.all fun (kx, x) => ys.any fun (ky, y) => kx == ky && s.equalWith n seen x y
    | _, _ => false
where
  /-- Equal lengths and related elements at every position. -/
  pointwise (r : Value → Value → Bool) : List Value → List Value → Bool
    | [], [] => true
    | x :: xs, y :: ys => r x y && pointwise r xs ys
    | _, _ => false

/-- Structural equality of two values of a store. -/
def equal (s : Store) (a b : Value) : Bool := s.equalWith (s.equalBound a b) [] a b

end Store

end GraphViews

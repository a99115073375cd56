/-!
Shortest decimals of binary64 values.

A finite double stands for the interval of reals that round to it. The decimal chosen for it is
the one with the fewest significant digits inside that interval, and of two such decimals the
nearer one; an exact tie goes to the larger. Everything is computed in exact `Nat` arithmetic:
no float operation takes part in choosing the digits.

Main definitions: `Binary.ofBits` (the value of a bit pattern), `Binary.readsBack` (the interval
test), `Binary.shortest` (the search).
-/

namespace GraphViews.Number

/-- A finite non-negative binary64 magnitude, `m * 2^q`. -/
structure Binary where
  m : Nat
  q : Int
  /-- the gap to the value below is half the gap to the value above -/
  narrowBelow : Bool
deriving Repr, DecidableEq

/-- The magnitude of the bits of a finite value; the sign bit is ignored. NaN and the
infinities are no such value, so callers test for them first. -/
def Binary.ofBits (b : UInt64) : Binary :=
  let e := ((b >>> 52) &&& 0x7FF).toNat
  let f := (b &&& 0xFFFFFFFFFFFFF).toNat
  if e == 0 then ⟨f, -1074, false⟩ else ⟨Nat.pow 2 52 + f, (e : Int) - 1075, f == 0 && e > 1⟩

/-- A decimal `digits * 10^exp`. -/
structure Decimal where
  digits : Nat
  exp : Int
deriving Repr, DecidableEq

/-- Compares `a * 10^i` with `n * 2^j`, exactly. -/
def cmpScaled (a : Nat) (i : Int) (n : Nat) (j : Int) : Ordering :=
  compare (a * Nat.pow 10 i.toNat * Nat.pow 2 (-j).toNat)
    (n * Nat.pow 2 j.toNat * Nat.pow 10 (-i).toNat)

/-- The decimal lies among the reals that round to `x` (to nearest, ties to even): strictly
inside the interval between the midpoints to the two neighbours, the midpoints included exactly
when the significand is even. -/
def Binary.readsBack (x : Binary) (d : Decimal) : Bool :=
  let lo := if x.narrowBelow then 4 * x.m - 1 else 4 * x.m - 2
  let hi := 4 * x.m + 2
  let incl := x.m % 2 == 0
  let cl := cmpScaled d.digits d.exp lo (x.q - 2)
  let ch := cmpScaled d.digits d.exp hi (x.q - 2)
  (cl == .gt || (incl && cl == .eq)) && (ch == .lt || (incl && ch == .eq))

/-- Compares `x` with `10^k`. -/
def Binary.cmpPow (x : Binary) (k : Int) : Ordering :=
  (cmpScaled 1 k x.m x.q).swap

/-- Moves an estimate of the scale to the least `k` with `x < 10^k`, one step at a time. -/
def Binary.settle (x : Binary) : Nat → Int → Int
  | 0, k => k
  | n + 1, k =>
    if x.cmpPow k != .lt then x.settle n (k + 1)
    else if x.cmpPow (k - 1) == .lt then x.settle n (k - 1)
    else k

/-- The least `k` with `x < 10^k`, for a non-zero `x`: estimated from the binary length and
corrected by exact comparisons. -/
def Binary.scale (x : Binary) : Int :=
  let e := (Nat.log2 x.m : Int) + 1 + x.q
  x.settle 8 (Int.fdiv (e * 30103) 100000)

/-- `⌊x / 10^g⌋`. -/
def Binary.floorOn (x : Binary) (g : Int) : Nat :=
  (x.m * Nat.pow 2 x.q.toNat * Nat.pow 10 (-g).toNat) /
    (Nat.pow 2 (-x.q).toNat * Nat.pow 10 g.toNat)

/-- The neighbours of `x` on the grid `10^g` that read back; of two, the nearer, and the upper
one on an exact tie. -/
def Binary.pick (x : Binary) (g : Int) : Option Decimal :=
  let a := x.floorOn g
  let lo : Decimal := ⟨a, g⟩
  let hi : Decimal := ⟨a + 1, g⟩
  match x.readsBack lo, x.readsBack hi with
  | true, true => if cmpScaled (2 * a + 1) g (2 * x.m) x.q == .gt then some lo else some hi
  | true, false => some lo
  | false, true => some hi
  | false, false => none

/-- Strips trailing zeros of the digits into the exponent. -/
def Decimal.trim (d : Decimal) : Decimal :=
  if h : d.digits ≠ 0 ∧ d.digits % 10 = 0 then
    Decimal.trim ⟨d.digits / 10, d.exp + 1⟩
  else d
termination_by d.digits
decreasing_by omega

/-- The exact decimal value of `x`. -/
def Binary.exact (x : Binary) : Decimal :=
  if x.q ≥ 0 then ⟨x.m * Nat.pow 2 x.q.toNat, 0⟩ else ⟨x.m * Nat.pow 5 (-x.q).toNat, x.q⟩

/-- The shortest decimal that reads back as `x`, searched on the grids of one to seventeen
significant digits; seventeen always suffice, and the exact value stands behind the search. -/
def Binary.shortest (x : Binary) : Decimal :=
  let k := x.scale
  match (List.range 17).findSome? (fun (n : Nat) => x.pick (k - ((n : Int) + 1))) with
  | some d => d.trim
  | none => x.exact.trim

end GraphViews.Number

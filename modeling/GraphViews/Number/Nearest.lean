import GraphViews.Number.Shortest
/-!
Reading decimals into binary64.

`nearestBits n e` is the bit pattern of the double nearest to `n * 10^e`, ties to the even
significand, with overflow to infinity and gradual underflow through the subnormals. The
quotient is taken once, in exact `Nat` arithmetic, so there is a single rounding.
-/

namespace GraphViews.Number

/-- The number of decimal digits of `n` (one for zero). -/
def decimalLength (n : Nat) : Nat := (Nat.toDigits 10 n).length

/-- Compares `n * 10^e` with `2^t`. -/
def cmpPow2 (n : Nat) (e : Int) (t : Int) : Ordering :=
  cmpScaled n e 1 t

/-- The binary exponent `t` with `2^t ≤ n * 10^e < 2^(t+1)`, for `n ≠ 0`: estimated from the
lengths and corrected by exact comparisons. -/
def binaryExponent (n : Nat) (e : Int) : Int :=
  let est : Int := (Nat.log2 n : Int) + Int.fdiv (e * 33219) 10000
  let rec fix : Nat → Int → Int
    | 0, t => t
    | k + 1, t =>
      if cmpPow2 n e t == .lt then fix k (t - 1)
      else if cmpPow2 n e (t + 1) != .lt then fix k (t + 1)
      else t
  fix 12 est

/-- `⌊n * 10^e * 2^s⌋` together with the comparison of the remainder with one half. -/
def scaledQuotient (n : Nat) (e : Int) (s : Int) : Nat × Ordering :=
  let num := n * Nat.pow 10 e.toNat * Nat.pow 2 s.toNat
  let den := Nat.pow 10 (-e).toNat * Nat.pow 2 (-s).toNat
  (num / den, compare (2 * (num % den)) den)

/-- The positive infinity of binary64. -/
def infinityBits : UInt64 := 0x7FF0000000000000

/-- The bits of the double nearest to `n * 10^e`, rounding half to even. -/
def nearestBits (n : Nat) (e : Int) : UInt64 :=
  if n = 0 then 0
  else if e + decimalLength n > 310 then infinityBits
  else if e + decimalLength n < -326 then 0
  else
    let t := binaryExponent n e
    -- normal values carry 53 significant bits; below 2^-1022 the grid is fixed at 2^-1074
    let s : Int := if t ≥ -1022 then 52 - t else 1074
    let (q, half) := scaledQuotient n e s
    let q := if half == .gt || (half == .eq && q % 2 == 1) then q + 1 else q
    if t ≥ -1022 then
      let (q, t) := if q = Nat.pow 2 53 then (Nat.pow 2 52, t + 1) else (q, t)
      if t + 1023 ≥ 2047 then infinityBits
      else UInt64.ofNat (((t + 1023).toNat <<< 52) ||| (q - Nat.pow 2 52))
    else UInt64.ofNat q

/-- The double nearest to `n * 10^e`, negated when `negative`. -/
def nearest (negative : Bool) (n : Nat) (e : Int) : Float :=
  let b := nearestBits n e
  Float.ofBits (if negative then b ||| 0x8000000000000000 else b)

end GraphViews.Number

import GraphViews.Number.Nearest
/-!
Texts of numbers.

A double is written from its shortest decimal (`Binary.shortest`) under a `FloatStyle`: the
style says which magnitudes are written with a point and which with an exponent, and how many
fraction digits a whole number shows. Two styles are used by the library: `FloatStyle.plain`
(never an exponent, no fraction on whole numbers: `1`, `-0`, `1000000000000000000000`) and
`FloatStyle.detailed` (a fraction always, an exponent outside `[1e-4, 1e16)`: `1.0`, `1e16`,
`2.5e-7`).

Reading goes the other way: `readFloat` accepts the decimal grammar with an optional sign,
point and exponent, and the words `inf`, `infinity` and `nan` in any case; `readInt64`
accepts an optional sign and decimal digits within the 64-bit range.
-/

namespace GraphViews.Number

/-- How a double is written. -/
structure FloatStyle where
  /-- fraction digits shown on a whole number written with a point -/
  minFraction : Nat
  /-- the decimal exponents `p` (value in `[10^(p-1), 10^p)`) written positionally; zero is
  always positional -/
  positional : Int → Bool

/-- Never an exponent, and whole numbers without a fraction. -/
def FloatStyle.plain : FloatStyle := ⟨0, fun _ => true⟩

/-- A fraction always, and an exponent below `1e-4` and from `1e16` on. -/
def FloatStyle.detailed : FloatStyle := ⟨1, fun p => -3 ≤ p && p ≤ 16⟩

/-- The decimal digits of a natural number. -/
def digitText (n : Nat) : String := String.ofList (Nat.toDigits 10 n)

/-- The text of an integer, with a minus sign when negative. -/
def intText (i : Int) : String :=
  if i < 0 then "-" ++ digitText i.natAbs else digitText i.natAbs

/-- `n` zeros. -/
def zeros (n : Nat) : String := String.ofList (List.replicate n '0')

/-- Positional text of `0.d₁…dₙ × 10^p`, with at least `minFraction` fraction digits. -/
def positionalText (ds : List Char) (p : Int) (minFraction : Nat) : String :=
  let n := ds.length
  if p ≤ 0 then
    "0." ++ zeros p.natAbs ++ String.ofList ds
  else if p.toNat < n then
    String.ofList (ds.take p.toNat) ++ "." ++ String.ofList (ds.drop p.toNat)
  else
    String.ofList ds ++ zeros (p.toNat - n) ++
      (if minFraction > 0 then "." ++ zeros minFraction else "")

/-- Exponent text of `0.d₁…dₙ × 10^p`: `d₁.d₂…dₙ e (p-1)`. -/
def exponentText (ds : List Char) (p : Int) : String :=
  match ds with
  | [] => "0e0"
  | [d] => String.singleton d ++ "e" ++ intText (p - 1)
  | d :: rest => String.singleton d ++ "." ++ String.ofList rest ++ "e" ++ intText (p - 1)

/-- The text of a double under a style. NaN is `NaN`; infinities are `inf` and `-inf`; the
sign of a negative value, negative zero included, is a leading minus. -/
def FloatStyle.render (style : FloatStyle) (x : Float) : String :=
  if x.isNaN then "NaN"
  else
    let bits := x.toBits
    let sign := if bits >>> 63 == 1 then "-" else ""
    if x.isInf then sign ++ "inf"
    else
      let b := Binary.ofBits bits
      if b.m = 0 then
        sign ++ "0" ++ (if style.minFraction > 0 then "." ++ zeros style.minFraction else "")
      else
        let d := b.shortest
        let ds := Nat.toDigits 10 d.digits
        let p := d.exp + ds.length
        if style.positional p then sign ++ positionalText ds p style.minFraction
        else sign ++ exponentText ds p

-- ============================================================ reading

/-- The value of a list of ASCII digits. -/
def digitsValue (cs : List Char) : Nat :=
  cs.foldl (fun n c => 10 * n + (c.toNat - '0'.toNat)) 0

/-- Splits off the longest prefix of ASCII digits. -/
def spanDigits (cs : List Char) : List Char × List Char :=
  (cs.takeWhile Char.isDigit, cs.dropWhile Char.isDigit)

/-- An optional leading sign: whether it is a minus, and the rest. -/
def splitSign (cs : List Char) : Bool × List Char :=
  match cs with
  | '-' :: rest => (true, rest)
  | '+' :: rest => (false, rest)
  | _ => (false, cs)

/-- ASCII lowercase of a character list. -/
def lowerAscii (cs : List Char) : List Char := cs.map Char.toLower

/-- The exponent part after the mantissa: empty, or `e`/`E`, an optional sign and digits. -/
def readExponent (cs : List Char) : Option Int :=
  match cs with
  | [] => some 0
  | c :: rest =>
    if c == 'e' || c == 'E' then
      let (neg, rest) := splitSign rest
      if !rest.isEmpty && rest.all Char.isDigit then
        let v : Int := digitsValue rest
        some (if neg then -v else v)
      else none
    else none

/-- Reads a decimal float: an optional sign, then `inf`, `infinity` or `nan` in any case, or
digits with an optional point (at least one digit on either side) and an optional exponent. -/
def readFloat (s : String) : Option Float :=
  let (neg, rest) := splitSign s.toList
  let word := lowerAscii rest
  if word == "inf".toList || word == "infinity".toList then
    some (if neg then -(1.0 / 0.0) else 1.0 / 0.0)
  else if word == "nan".toList then some (0.0 / 0.0)
  else
    let (whole, rest) := spanDigits rest
    let (frac, rest) := match rest with
      | '.' :: more => spanDigits more
      | _ => ([], rest)
    if whole.isEmpty && frac.isEmpty then none
    else match readExponent rest with
      | none => none
      | some e => some (nearest neg (digitsValue (whole ++ frac)) (e - frac.length))

/-- The range of 64-bit signed integers. -/
def int64Min : Int := -9223372036854775808
def int64Max : Int := 9223372036854775807

/-- Reads a 64-bit signed integer: an optional sign and at least one ASCII digit, in range. -/
def readInt64 (s : String) : Option Int64 :=
  let (neg, rest) := splitSign s.toList
  if rest.isEmpty || !rest.all Char.isDigit then none
  else
    let v : Int := digitsValue rest
    let v := if neg then -v else v
    if int64Min ≤ v && v ≤ int64Max then some (Int64.ofInt v) else none

end GraphViews.Number

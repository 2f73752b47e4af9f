/-!
# Binary floating point numbers

Numbers with a mantissa of 53 bits, as a JSON text that is no integer is read, in exact arithmetic
on natural numbers.

* `Binary64`: a sign, a mantissa and a power of two;
* `Binary64.ofRatio`: the nearest number to a quotient, of two nearest the one with an even
  mantissa;
* **`Binary64.ofDecimal`**: significant digits and a power of ten as a number;
* `Binary64.shortest`: the fewest digits that read back; **`Binary64.text`**: their written form.
-/

namespace VersionedTypes

/-- The number `mantissa * 2 ^ exponent`, or its negative. -/
structure Binary64 where
  negative : Bool
  mantissa : Nat
  exponent : Int
  deriving DecidableEq, Repr

namespace Binary64

/-- The exponent of the smallest numbers. -/
def minExponent : Int := -1074

/-- The exponent of the largest numbers. -/
def maxExponent : Int := 971

/-- `2 ^ e * num / den` as a fraction of natural numbers. -/
def scale (num den base : Nat) (e : Int) : Nat × Nat :=
  if e < 0 then (num, den * base.pow e.natAbs) else (num * base.pow e.natAbs, den)

/-- The integer nearest to `num / den`; a half goes to the even neighbour. -/
def roundHalfEven (num den : Nat) : Nat :=
  let q := num / den
  let r := num % den
  if 2 * r < den then q
  else if den < 2 * r then q + 1
  else if q % 2 = 0 then q else q + 1

/-- The number nearest to `num / den`; none if that is too large. -/
def ofRatio (negative : Bool) (num den : Nat) : Option Binary64 :=
  if num = 0 then some ⟨negative, 0, minExponent⟩
  else
    let guess : Int := max ((num.log2 : Int) - (den.log2 : Int) - 53) minExponent
    let quotient (e : Int) : Nat × Nat := scale num den 2 (-e)
    let floor (e : Int) : Nat := (quotient e).1 / (quotient e).2
    let e := if floor guess < Nat.pow 2 53 then guess else guess + 1
    let m := roundHalfEven (quotient e).1 (quotient e).2
    let (m, e) := if m = Nat.pow 2 53 then (Nat.pow 2 52, e + 1) else (m, e)
    if maxExponent < e then none else some ⟨negative, m, e⟩

/-- The magnitude as a fraction. -/
def ratio (x : Binary64) : Nat × Nat := scale x.mantissa 1 2 x.exponent

/-- The product or the quotient of a number and a power of ten that is itself rounded first. -/
def timesTenTo (x : Binary64) (e : Int) : Option Binary64 := do
  let power ← ofRatio false (Nat.pow 10 e.natAbs) 1
  let (a, b) := x.ratio
  let (c, d) := power.ratio
  if e < 0 then ofRatio x.negative (a * d) (b * c) else ofRatio x.negative (a * c) (b * d)

/-- The largest power of ten that a number is scaled by at once. -/
def largestPower : Nat := 308

/-- `x * 10 ^ e`; none if that is too large. A larger negative power is split into several, and the
number is zero after a few of them. -/
def scaleByTen (x : Binary64) (e : Int) : (splits : Nat) → Option Binary64
  | 0 => some x
  | splits + 1 =>
    if e.natAbs ≤ largestPower then x.timesTenTo e
    else if x.mantissa = 0 then some x
    else if 0 ≤ e then none
    else do (← x.timesTenTo (-largestPower)).scaleByTen (e + largestPower) splits

/-- `significand * 10 ^ e`; none if that is too large. -/
def ofDecimal (negative : Bool) (significand : Nat) (e : Int) : Option Binary64 := do
  (← ofRatio negative significand 1).scaleByTen e 4

/-! ## Shortest decimal form -/

/-- The exponent of the leading decimal digit of `num / den`, which is not zero. -/
def leadingExponent (num den : Nat) : Int :=
  if den ≤ num then ((Nat.toDigits 10 (num / den)).length : Int) - 1
  else -((Nat.toDigits 10 ((den - 1) / num)).length : Int)

/-- The decimal `c * 10 ^ k` is read back as `x`: it lies between the halfway points to the
neighbours of `x`, which themselves count when the mantissa is even. -/
def readsBackFrom (x : Binary64) (c : Nat) (k : Int) : Bool :=
  let (num, den) := scale c 1 10 k
  let (unitNum, unitDen) := scale 1 1 2 (x.exponent - 2)
  let value := num * unitDen
  let unit := den * unitNum
  let low := 4 * x.mantissa -
    (if x.mantissa = Nat.pow 2 52 ∧ minExponent < x.exponent then 1 else 2)
  let high := 4 * x.mantissa + 2
  if x.mantissa % 2 = 0 then low * unit ≤ value && value ≤ high * unit
  else low * unit < value && value < high * unit

/-- The digits of a number that is not zero and the exponent of the first of them, at the given
number of digits or at the first larger one that reads back. -/
def shortestFrom (x : Binary64) (lead : Int) : (fuel digits : Nat) → Nat × Int
  | 0, _ => (x.mantissa, 0)
  | fuel + 1, digits =>
    let k := lead - digits + 1
    let (num, den) := scale x.ratio.1 x.ratio.2 10 (-k)
    let below := num / den
    let nearest := roundHalfEven num den
    let other := if nearest = below then below + 1 else below
    if x.readsBackFrom nearest k then (nearest, k)
    else if x.readsBackFrom other k then (other, k)
    else shortestFrom x lead fuel (digits + 1)

/-- Drop zeros at the end of a list of digits. -/
def dropTrailingZeros (ds : List Char) : List Char := (ds.reverse.dropWhile (· = '0')).reverse

/-- The fewest digits that read back as `x`, and the exponent of the first of them. -/
def shortest (x : Binary64) : List Char × Int :=
  let (num, den) := x.ratio
  let (c, k) := x.shortestFrom (leadingExponent num den) 17 1
  let ds := Nat.toDigits 10 c
  (dropTrailingZeros ds, (ds.length : Int) - 1 + k)

/-- The exponent with its sign. -/
def exponentText (e : Int) : String :=
  (if e < 0 then "e-" else "e+") ++ toString e.natAbs

/-- Digits with a point in front of the one that stands for tenths, or in front of an exponent
where the number is below a hundred thousandth or has more than sixteen integral digits. -/
def place (ds : List Char) (e : Int) : String :=
  let zeros (n : Nat) : List Char := List.replicate n '0'
  if e < -5 ∨ 16 ≤ e then
    let rest := ds.drop 1
    String.ofList (ds.take 1 ++ (if rest.isEmpty then [] else '.' :: rest)) ++ exponentText e
  else if e < 0 then String.ofList ('0' :: '.' :: zeros (e.natAbs - 1) ++ ds)
  else
    let whole := ds.take (e.natAbs + 1)
    let rest := ds.drop (e.natAbs + 1)
    String.ofList (whole ++ zeros (e.natAbs + 1 - whole.length) ++ '.' ::
      if rest.isEmpty then ['0'] else rest)

/-- The written form of a number. -/
def text (x : Binary64) : String :=
  (if x.negative then "-" else "") ++
    if x.mantissa = 0 then "0.0" else place x.shortest.1 x.shortest.2

end Binary64

end VersionedTypes

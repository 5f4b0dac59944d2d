import JobSearch.Text.Basic

/-!
# Binary floating-point numbers of 64 bits

A finite number is a sign, a significand below 2^53 and a power of two. Products and quotients are
the exact results rounded to the nearest number, ties to the even significand, so the arithmetic
is ordinary arithmetic on natural numbers. A number is written with the fewest decimal digits that
read back to it.
-/

namespace JobSearch

/-- A finite binary number: the significand times a power of two, with a sign. -/
structure Binary64 where
  /-- The number has a minus sign, which zero may also have. -/
  negative : Bool
  /-- The significand, below 2^53. -/
  significand : Nat
  /-- The power of two, at least -1074. -/
  exponent : Int
  deriving DecidableEq, Repr

namespace Binary64

/-- Zero without a sign. -/
def zero : Binary64 := ⟨false, 0, 0⟩

/-- The number is zero, of either sign. -/
def isZero (x : Binary64) : Bool := x.significand == 0

/-- The same number with the sign turned. -/
def neg (x : Binary64) : Binary64 := { x with negative := !x.negative }

/-- `2^k` as the numerator of a ratio. -/
def twoUp (k : Int) : Nat := Nat.pow 2 k.toNat

/-- `2^-k` as the denominator of a ratio. -/
def twoDown (k : Int) : Nat := Nat.pow 2 (-k).toNat

/-- The quotient rounded to the nearest natural number, ties to the even one. -/
def roundDiv (num den : Nat) : Nat :=
  let q := num / den
  let twice := 2 * (num % den)
  if twice < den then q else if den < twice then q + 1 else if q % 2 = 0 then q else q + 1

/-- The power of two at which a positive ratio has a significand of 53 bits, or the least power. -/
def scaleOf (num den : Nat) : Int :=
  let low : Int := (num.log2 : Int) - den.log2 - 53
  let fits := num * twoDown low < Nat.pow 2 53 * (den * twoUp low)
  max (if fits then low else low + 1) (-1074)

/-- The nearest number to a positive ratio; too large a ratio has none. -/
def ofRatio? (num den : Nat) : Option Binary64 :=
  if num = 0 then some zero
  else
    let e := scaleOf num den
    let m := roundDiv (num * twoDown e) (den * twoUp e)
    let (m, e) := if m = Nat.pow 2 53 then (Nat.pow 2 52, e + 1) else (m, e)
    if 971 < e then none else some ⟨false, m, if m = 0 then 0 else e⟩

/-- The nearest number to a natural number. -/
def ofNat? (n : Nat) : Option Binary64 := ofRatio? n 1

/-- The product of two numbers without regard to sign, rounded. -/
def mul? (x y : Binary64) : Option Binary64 :=
  let e := x.exponent + y.exponent
  ofRatio? (x.significand * y.significand * twoUp e) (twoDown e)

/-- The quotient of two numbers without regard to sign, rounded. -/
def div? (x y : Binary64) : Option Binary64 :=
  let e := x.exponent - y.exponent
  ofRatio? (x.significand * twoUp e) (y.significand * twoDown e)

/-- The largest power of ten with a number near it. -/
def maxPower : Nat := 308

/-- The number nearest to a power of ten up to `10^308`. -/
def tenTo (k : Nat) : Binary64 := (ofNat? (Nat.pow 10 k)).getD zero

/-- Divides by a power of ten, in steps of `10^308`. -/
def shrink (x : Binary64) (k : Nat) : Binary64 :=
  if k ≤ maxPower then (x.div? (tenTo k)).getD zero
  else if x.isZero then x
  else shrink ((x.div? (tenTo maxPower)).getD zero) (k - maxPower)
termination_by k
decreasing_by simp only [maxPower] at *; omega

/-- The number read from decimal digits `n` and an exponent of ten: the digits are rounded first,
then the product or quotient with the power. Too large a number has no value. -/
def ofDecimal? (n : Nat) (exponent : Int) : Option Binary64 :=
  let x := (ofNat? n).getD zero
  if 0 ≤ exponent then
    if exponent.toNat ≤ maxPower then x.mul? (tenTo exponent.toNat)
    else if x.isZero then some x else none
  else some (x.shrink (-exponent).toNat)

/-- The numerator and denominator of the absolute value. -/
def ratio (x : Binary64) : Nat × Nat := (x.significand * twoUp x.exponent, twoDown x.exponent)

/-- The decimal `digits * 10^k` reads back to the number: it lies no further than halfway to either
neighbour, and on a halfway point only if the significand is even. -/
def readsBack (x : Binary64) (digits : Nat) (k : Int) : Bool :=
  let narrow := x.significand == Nat.pow 2 52 && x.exponent != -1074
  -- Units of a quarter of the last place, times the power of ten if it is negative.
  let (num, den) := (4 * digits * Nat.pow 10 k.toNat * twoDown x.exponent,
    twoUp x.exponent * Nat.pow 10 (-k).toNat)
  let low := (4 * x.significand - (if narrow then 1 else 2)) * den
  let high := (4 * x.significand + 2) * den
  if x.significand % 2 = 0 then low ≤ num && num ≤ high else low < num && num < high

/-- The least power of ten above the absolute value. -/
def decimalScale (x : Binary64) : Int :=
  let (num, den) := x.ratio
  let above (k : Int) : Bool := num * Nat.pow 10 (-k).toNat < den * Nat.pow 10 k.toNat
  let start : Int := ((num.log2 : Int) - den.log2) * 30103 / 100000 - 2
  ((List.range 6).map fun (i : Nat) => start + Int.ofNat i).find? above |>.getD start

/-- The closest decimal with this many digits that reads back, if there is one. -/
def atLength? (x : Binary64) (count : Nat) : Option (Nat × Int) :=
  let k := x.decimalScale - count
  let (num, den) := x.ratio
  let (num, den) := (num * Nat.pow 10 (-k).toNat, den * Nat.pow 10 k.toNat)
  let q := num / den
  let below := x.readsBack q k
  let above := x.readsBack (q + 1) k
  let nearBelow := 2 * num < (2 * q + 1) * den || (2 * num == (2 * q + 1) * den && q % 2 == 0)
  if below && (nearBelow || !above) then some (q, k)
  else if above then some (q + 1, k)
  else none

/-- Drops the zeros at the end of the digits. -/
def stripZeros : Nat → Nat → Int → Nat × Int
  | 0, digits, k => (digits, k)
  | fuel + 1, digits, k =>
    if digits % 10 = 0 && digits != 0 then stripZeros fuel (digits / 10) (k + 1) else (digits, k)

/-- The fewest digits that read back, with their power of ten. -/
def shortest (x : Binary64) : Nat × Int :=
  let (digits, k) := ((List.range 17).findSome? fun i => x.atLength? (i + 1)).getD (x.ratio.1, 0)
  stripZeros 20 digits k

/-- The number as text: positional from `0.00001` to below `10^16`, always with a point, otherwise
with a signed exponent. -/
def toText (x : Binary64) : Text :=
  let sign : Text := if x.negative then ['-'] else []
  if x.isZero then sign ++ "0.0".toList
  else
    let (digits, k) := x.shortest
    let ds := Text.ofNat digits
    let point : Int := ds.length + k
    let body : Text :=
      if 0 < point && point ≤ 16 then
        if 0 ≤ k then ds ++ List.replicate k.toNat '0' ++ ".0".toList
        else ds.take point.toNat ++ '.' :: ds.drop point.toNat
      else if -5 < point && point ≤ 0 then
        "0.".toList ++ List.replicate (-point).toNat '0' ++ ds
      else
        let tail : Text := if ds.length ≤ 1 then [] else '.' :: ds.drop 1
        let e := point - 1
        ds.take 1 ++ tail ++ 'e' :: (if e < 0 then '-' else '+') :: Text.ofNat e.natAbs
    sign ++ body

end Binary64

end JobSearch

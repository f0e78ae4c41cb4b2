/-!
# Double precision numbers

Finite numbers of double precision without a sign, as a mantissa of at most 53 bits times a power
of two. All arithmetic is exact arithmetic of natural numbers followed by one rounding to the
nearest double, ties to the even mantissa.
-/

namespace UnionView

/-- The number `mantissa · 2 ^ exponent`. -/
structure Double where
  mantissa : Nat
  exponent : Int
deriving DecidableEq, Repr

namespace Double

/-- The smallest exponent, that of the subnormal numbers. -/
def minExponent : Int := -1074

/-- The largest exponent of a finite number. -/
def maxExponent : Int := 971

/-- A quotient of natural numbers times a power of two, as a quotient. -/
def scaled (num den : Nat) (exponent : Int) : Nat × Nat :=
  if 0 ≤ exponent then (num * Nat.pow 2 exponent.toNat, den)
  else (num, den * Nat.pow 2 (-exponent).toNat)

/-- The natural number nearest to a quotient; of two the even one. -/
def roundRatio (num den : Nat) : Nat :=
  let floor := num / den
  let rest := 2 * (num % den)
  if rest < den then floor
  else if den < rest then floor + 1
  else if floor % 2 = 0 then floor else floor + 1

/-- The double nearest to a quotient, if there is a finite one. -/
def ofRatio? (num den : Nat) : Option Double :=
  if num = 0 then some { mantissa := 0, exponent := minExponent }
  else
    let guess : Int := (num.log2 : Int) - den.log2 - 53
    let (n, d) := scaled num den (-guess)
    let exponent := max (if n / d < Nat.pow 2 53 then guess else guess + 1) minExponent
    let (n, d) := scaled num den (-exponent)
    let mantissa := roundRatio n d
    let (mantissa, exponent) :=
      if mantissa = Nat.pow 2 53 then (Nat.pow 2 52, exponent + 1) else (mantissa, exponent)
    if exponent ≤ maxExponent then some { mantissa, exponent } else none

/-- The quotient that a double is. -/
def toRatio (x : Double) : Nat × Nat :=
  scaled x.mantissa 1 x.exponent

def isZero (x : Double) : Bool :=
  x.mantissa = 0

/-- The product, rounded. -/
def mul? (x y : Double) : Option Double :=
  let (a, b) := x.toRatio
  let (c, d) := y.toRatio
  ofRatio? (a * c) (b * d)

/-- The quotient, rounded. -/
def div? (x y : Double) : Option Double :=
  let (a, b) := x.toRatio
  let (c, d) := y.toRatio
  ofRatio? (a * d) (b * c)

/-- The power of ten nearest to `10 ^ n`. -/
def powerOfTen? (n : Nat) : Option Double :=
  ofRatio? (Nat.pow 10 n) 1

/-- The significand, rounded, times a power of ten, rounded and applied in one step if it is a
double and in steps otherwise. There is no result if it is too large. -/
def ofDecimal? (significand : Nat) (exponent : Int) : Option Double :=
  (ofRatio? significand 1).bind (go 8 exponent)
where
  /-- Applies what is left of the power. A number that has become zero stays so. -/
  go : Nat → Int → Double → Option Double
    | 0, _, x => some x
    | fuel + 1, exponent, x =>
      if exponent.natAbs ≤ 308 then
        (powerOfTen? exponent.natAbs).bind fun power =>
          if 0 ≤ exponent then x.mul? power else x.div? power
      else if x.isZero then some x
      else if 0 ≤ exponent then none
      else (powerOfTen? 308).bind fun power => (x.div? power).bind (go fuel (exponent + 308))

end Double

end UnionView

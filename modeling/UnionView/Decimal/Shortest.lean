import UnionView.Decimal.Double

/-!
# The shortest decimal

`Double.shortest` finds the decimal with the fewest digits that is nearer to a double than to any
other one; of several with as few digits it is the nearest. `Double.text` writes it: positionally
from `1e-5` up to `1e16`, otherwise with an exponent.
-/

namespace UnionView.Double

/-- The number of digits before the point, or minus the number of zeros behind it. -/
def magnitude (num den : Nat) : Int :=
  if den ≤ num then ((Nat.toDigits 10 (num / den)).length : Int) else -(leadingZeros 400 0)
where
  /-- How often a number below one can be multiplied by ten and stay below a tenth. -/
  leadingZeros : Nat → Nat → Nat
    | 0, n => n
    | fuel + 1, n => if den ≤ num * Nat.pow 10 (n + 1) then n else leadingZeros fuel (n + 1)

/-- A quotient divided by a power of ten. -/
def perPowerOfTen (num den : Nat) (exponent : Int) : Nat × Nat :=
  if 0 ≤ exponent then (num, den * Nat.pow 10 exponent.toNat)
  else (num * Nat.pow 10 (-exponent).toNat, den)

/-- The natural number inside an interval that is nearest to a value in it, if there is one. All
of them are over the same denominator. -/
def nearestInside? (low value high den : Nat) (closed : Bool) : Option Nat :=
  let inside (n : Nat) : Bool :=
    if closed then low ≤ n * den && n * den ≤ high else low < n * den && n * den < high
  let below := value / den
  let above := below + 1
  match inside below, inside above with
  | true, true => some (if 2 * (value % den) ≤ den then below else above)
  | true, false => some below
  | false, true => some above
  | false, false => none

/-- The digits and the power of ten of the shortest decimal, with trailing zeros taken off. -/
def shortest (x : Double) : Nat × Int :=
  let gap := if x.mantissa = Nat.pow 2 52 && minExponent < x.exponent then 1 else 2
  let (num, den) := scaled 1 4 x.exponent
  let value := 4 * x.mantissa * num
  let places := magnitude value den
  let found := (List.range 17).findSome? fun (n : Nat) =>
    let exponent := places - (n + 1 : Int)
    let (unit, grid) := perPowerOfTen num den exponent
    (nearestInside? ((4 * x.mantissa - gap) * unit) (4 * x.mantissa * unit)
      ((4 * x.mantissa + 2) * unit) grid (x.mantissa % 2 = 0)).map fun digits => (digits, exponent)
  match found with
  | some (digits, exponent) => strip 20 digits exponent
  | none => (0, 0)
where
  /-- Takes trailing zeros off. -/
  strip : Nat → Nat → Int → Nat × Int
    | 0, digits, exponent => (digits, exponent)
    | fuel + 1, digits, exponent =>
      if digits ≠ 0 && digits % 10 = 0 then strip fuel (digits / 10) (exponent + 1)
      else (digits, exponent)

def text (x : Double) : String :=
  if x.isZero then "0.0"
  else
    let (value, exponent) := x.shortest
    let digits := Nat.toDigits 10 value
    let length : Int := digits.length
    let point := length + exponent
    let zeros (n : Int) : List Char := List.replicate n.toNat '0'
    String.ofList <|
      if 0 ≤ exponent && point ≤ 16 then digits ++ zeros exponent ++ ['.', '0']
      else if 0 < point && point ≤ 16 then
        digits.take point.toNat ++ ['.'] ++ digits.drop point.toNat
      else if -5 < point && point ≤ 0 then ['0', '.'] ++ zeros (-point) ++ digits
      else if length = 1 then digits ++ ['e'] ++ (toString (point - 1)).toList
      else digits.take 1 ++ ['.'] ++ digits.drop 1 ++ ['e'] ++ (toString (point - 1)).toList

end UnionView.Double

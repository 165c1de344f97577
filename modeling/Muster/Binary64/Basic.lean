/-
Double-precision numbers as exact values `significand · 2^exponent`, with the rounding of exact
quotients and the two operations that reading a decimal needs. All arithmetic is on whole numbers.
-/
namespace Muster

/-- A finite double. The significand is below `2^53`; it is at least `2^52` unless the exponent is
the least one. -/
structure Binary64 where
  negative : Bool
  significand : Nat
  exponent : Int
deriving DecidableEq, Repr

namespace Binary64

def minExponent : Int := -1074
def maxExponent : Int := 971

def zero (negative : Bool) : Binary64 := ⟨negative, 0, minExponent⟩

def isZero (x : Binary64) : Bool := x.significand == 0

/-- `num / den · 2^(-e)`, rounded down, with the remainder and the divisor it is to be compared
with. -/
def scaledQuotient (num den : Nat) (e : Int) : Nat × Nat × Nat :=
  let n := num * Nat.pow 2 (-e).toNat
  let d := den * Nat.pow 2 e.toNat
  (n / d, n % d, d)

/-- The exponent at which `num / den` has 53 significant bits, but no less than the least one. -/
def exponentOf (num den : Nat) : Int :=
  let e : Int := (num.log2 : Int) - den.log2 - 52
  let e := if (scaledQuotient num den e).1 < Nat.pow 2 52 then e - 1 else e
  max e minExponent

/-- The double nearest to `num / den`, ties to the even significand; `none` when it is too large. -/
def round? (negative : Bool) (num den : Nat) : Option Binary64 :=
  if num = 0 then some (zero negative)
  else
    let e := exponentOf num den
    let (q, r, d) := scaledQuotient num den e
    let m := if 2 * r > d ∨ (2 * r = d ∧ q % 2 = 1) then q + 1 else q
    let (m, e) := if m = Nat.pow 2 53 then (Nat.pow 2 52, e + 1) else (m, e)
    if e > maxExponent then none else some ⟨negative, m, e⟩

/-- A whole number below the largest double. -/
def ofNat (n : Nat) : Binary64 := (round? false n 1).getD (zero false)

/-- The double nearest to a power of ten; exact up to `10^22`. -/
def pow10 (k : Nat) : Binary64 := ofNat (Nat.pow 10 k)

def mul? (x y : Binary64) : Option Binary64 :=
  let e := x.exponent + y.exponent
  round? (x.negative != y.negative) (x.significand * y.significand * Nat.pow 2 e.toNat)
    (Nat.pow 2 (-e).toNat)

/-- The quotient; `y` is not zero. -/
def div? (x y : Binary64) : Option Binary64 :=
  let e := x.exponent - y.exponent
  round? (x.negative != y.negative) (x.significand * Nat.pow 2 e.toNat)
    (y.significand * Nat.pow 2 (-e).toNat)

def neg (x : Binary64) : Binary64 := { x with negative := !x.negative }

/-- `significand · 10^exponent` by one rounding of the significand and one rounded product or
quotient with a power of ten, or several when the exponent is below the least such power. `none`
when a product is too large. -/
def scale? : (fuel : Nat) → Binary64 → Int → Option Binary64
  | 0, f, _ => some f
  | fuel + 1, f, e =>
    if e.natAbs ≤ 308 then
      if 0 ≤ e then mul? f (pow10 e.natAbs) else div? f (pow10 e.natAbs)
    else if f.isZero then some f
    else if 0 ≤ e then none
    else do scale? fuel (← div? f (pow10 308)) (e + 308)

/-- The double that reading a decimal gives. Dividing a double by `10^308` four times gives zero,
which ends the scaling. -/
def ofDecimal? (negative : Bool) (significand : Nat) (exponent : Int) : Option Binary64 :=
  (scale? 8 (ofNat significand) exponent).map fun f => if negative then neg f else f

end Binary64
end Muster

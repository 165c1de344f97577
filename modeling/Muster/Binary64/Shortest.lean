/-
The shortest decimal that reads back as a double, and its layout. Of the decimals with the fewest
digits in the rounding interval the one nearest to the value is taken, an even last digit on a tie.
-/
import Muster.Binary64.Basic
import Muster.Text.Digits

namespace Muster.Binary64

/-! ## The rounding interval -/

/-- The ends of the interval that rounds to a positive double, in units of a quarter of its last
place. Below a power of two the neighbour is half as far. -/
def intervalEnds (x : Binary64) : Nat × Nat :=
  let below := if x.significand = Nat.pow 2 52 ∧ minExponent < x.exponent then 1 else 2
  (4 * x.significand - below, 4 * x.significand + 2)

/-- Compares `a · 10^p` with `b · 2^e`. -/
def compareDecimal (a : Nat) (p : Int) (b : Nat) (e : Int) : Ordering :=
  compare (a * Nat.pow 10 p.toNat * Nat.pow 2 (-e).toNat)
    (b * Nat.pow 2 e.toNat * Nat.pow 10 (-p).toNat)

/-- `c · 10^p` rounds to `x`: it lies inside the interval, ends included for an even
significand. -/
def inInterval (x : Binary64) (c : Nat) (p : Int) : Bool :=
  let (lo, hi) := intervalEnds x
  let e := x.exponent - 2
  let closed := x.significand % 2 == 0
  (match compareDecimal c p lo e with
    | .lt => false
    | .eq => closed
    | .gt => true)
  && (match compareDecimal c p hi e with
    | .lt => true
    | .eq => closed
    | .gt => false)

/-! ## The digits -/

/-- The whole part of the value in units of `10^p`. -/
def wholeUnits (x : Binary64) (p : Int) : Nat :=
  (x.significand * Nat.pow 2 x.exponent.toNat * Nat.pow 10 (-p).toNat)
    / (Nat.pow 2 (-x.exponent).toNat * Nat.pow 10 p.toNat)

/-- Of two neighbours on a grid the one nearer to the value; the even one on a tie. -/
def nearer (x : Binary64) (c : Nat) (p : Int) : Nat :=
  match compareDecimal (20 * c + 10) (p - 1) (2 * x.significand) x.exponent with
  | .lt => c + 1
  | .gt => c
  | .eq => if c % 2 = 0 then c else c + 1

/-- The point of the grid of step `10^p` that reads back as the value, if there is one. -/
def pickOnGrid (x : Binary64) (p : Int) : Option Nat :=
  let c := wholeUnits x p
  match inInterval x c p, inInterval x (c + 1) p with
  | true, true => some (nearer x c p)
  | true, false => some c
  | false, true => some (c + 1)
  | false, false => none

/-- The first grid with a hit, from coarse to fine. -/
def search (x : Binary64) : (fuel : Nat) → (p : Int) → Nat × Int
  | 0, p => (wholeUnits x p, p)
  | fuel + 1, p =>
    match pickOnGrid x p with
    | some c => (c, p)
    | none => search x fuel (p - 1)

/-- The power of ten of the first digit of a positive double. -/
def leadingPower (x : Binary64) : Int :=
  let guess : Int := ((x.significand.log2 : Int) + x.exponent) * 30103 / 100000
  if wholeUnits x (guess + 1) ≠ 0 then guess + 1 else guess

/-- The digits without trailing zeros, and the power of ten of the first one. -/
def shortest (x : Binary64) : List Char × Int :=
  let (c, p) := search x 17 (leadingPower x)
  let digits := Digits.write c
  (((digits.reverse.dropWhile (· == '0')).reverse), p + (digits.length - 1 : Nat))

/-! ## Layout -/

/-- How a double is laid out. -/
structure Layout where
  /-- The least power of ten of the first digit that is written without exponent. -/
  leastPositional : Int
  /-- The first power of ten that is written with exponent. -/
  firstExponential : Int
  /-- What follows the digits of a whole number in positional notation. -/
  wholeSuffix : List Char
  exponentMark : Char
  positiveExponentSign : List Char

/-- Positional from `0.00001` to below `10^16`, always with a fraction; else `1.5e+16`. -/
def jsonLayout : Layout :=
  { leastPositional := -5, firstExponential := 16, wholeSuffix := ['.', '0'],
    exponentMark := 'e', positiveExponentSign := ['+'] }

def writeExponent (l : Layout) (e : Int) : List Char :=
  l.exponentMark ::
    (if e < 0 then '-' :: Digits.write e.natAbs
     else l.positiveExponentSign ++ Digits.write e.natAbs)

/-- Digits `d₁d₂…` with `d₁` at the power of ten `e`. -/
def layOut (l : Layout) (digits : List Char) (e : Int) : List Char :=
  if l.leastPositional ≤ e ∧ e < l.firstExponential then
    if e < 0 then '0' :: '.' :: List.replicate (-e - 1).toNat '0' ++ digits
    else
      let whole := e.toNat + 1
      if digits.length ≤ whole then
        digits ++ List.replicate (whole - digits.length) '0' ++ l.wholeSuffix
      else digits.take whole ++ '.' :: digits.drop whole
  else
    match digits with
    | [] => []
    | [d] => d :: writeExponent l e
    | d :: ds => d :: '.' :: ds ++ writeExponent l e

def write (l : Layout) (x : Binary64) : List Char :=
  let body := if x.isZero then '0' :: l.wholeSuffix
    else let (digits, e) := shortest x; layOut l digits e
  if x.negative then '-' :: body else body

end Muster.Binary64

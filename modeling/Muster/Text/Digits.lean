/-
Whole numbers in decimal: writing, padding and reading.
-/
namespace Muster.Digits

/-- The character of a digit. -/
def digitChar (d : Nat) : Char := Char.ofNat (48 + d % 10)

/-- The value of a digit character. -/
def value? (c : Char) : Option Nat :=
  if 48 ≤ c.toNat ∧ c.toNat ≤ 57 then some (c.toNat - 48) else none

def isDigit (c : Char) : Bool := (value? c).isSome

/-- The decimal digits, most significant first; zero is the one digit `0`. -/
def write (n : Nat) : List Char :=
  if n < 10 then [digitChar n] else write (n / 10) ++ [digitChar n]
termination_by n

/-- The last `width` decimal digits, with leading zeros. -/
def padded : (width n : Nat) → List Char
  | 0, _ => []
  | width + 1, n => padded width (n / 10) ++ [digitChar n]

/-- Reads digits into an accumulator; `none` at the first character that is none. -/
def readFrom : (acc : Nat) → List Char → Option Nat
  | acc, [] => some acc
  | acc, c :: cs =>
    match value? c with
    | some d => readFrom (acc * 10 + d) cs
    | none => none

/-- The number that at least one digit, and nothing else, writes. -/
def read? : List Char → Option Nat
  | [] => none
  | cs => readFrom 0 cs

/-- The value of a hexadecimal digit in either case. -/
def hexValue? (c : Char) : Option Nat :=
  let n := c.toNat
  if 48 ≤ n ∧ n ≤ 57 then some (n - 48)
  else if 65 ≤ n ∧ n ≤ 70 then some (n - 55)
  else if 97 ≤ n ∧ n ≤ 102 then some (n - 87)
  else none

/-- The lower-case character of a hexadecimal digit. -/
def hexChar (d : Nat) : Char :=
  if d < 10 then Char.ofNat (48 + d) else Char.ofNat (87 + d)

/-- The hexadecimal digits, most significant first, without leading zeros. -/
def writeHex (n : Nat) : List Char :=
  if n < 16 then [hexChar n] else writeHex (n / 16) ++ [hexChar (n % 16)]
termination_by n

/-- A number in decimal as a text. -/
def text (n : Nat) : String := String.ofList (write n)

end Muster.Digits

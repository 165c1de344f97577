/-
Percent encoding: bytes spelled as a percent sign and two hexadecimal digits, and forms, which are
pairs of names and values spelled so.
-/
import Muster.Text.Digits
import Muster.Text.Utf8

namespace Muster.Http

/-- The upper-case character of a hexadecimal digit. -/
def hexDigit (d : Nat) : Char :=
  if d < 10 then Char.ofNat (48 + d) else Char.ofNat (55 + d)

/-- A byte as a percent sign and two digits. -/
def percentByte (b : UInt8) : List Char := ['%', hexDigit (b.toNat / 16), hexDigit (b.toNat % 16)]

/-- The characters of a text, with those that are not ASCII, the controls, and a set of others
spelled as their bytes. -/
def percentEncode (others : List Char) (cs : List Char) : List Char :=
  cs.flatMap fun c =>
    if c.toNat < 0x20 || 0x7E < c.toNat || others.contains c then
      (Utf8.encodeChar c).flatMap percentByte
    else [c]

/-- The bytes that a text spells: a percent sign with two digits behind it is one byte, and every
other character is its own bytes. -/
def percentDecode : List Char → List UInt8
  | [] => []
  | '%' :: a :: b :: cs =>
    match Digits.hexValue? a, Digits.hexValue? b with
    | some x, some y => (x * 16 + y).toUInt8 :: percentDecode cs
    | _, _ => 0x25 :: percentDecode (a :: b :: cs)
  | c :: cs => Utf8.encodeChar c ++ percentDecode cs

/-! ## Forms -/

/-- Characters that stand for themselves in a form. -/
def isFormChar (c : Char) : Bool := c.isAlphanum || c == '*' || c == '-' || c == '.' || c == '_'

/-- A name or a value in a form; a space is written as a plus sign. -/
def formEncode (s : String) : List Char :=
  s.toList.flatMap fun c =>
    if c = ' ' then ['+']
    else if isFormChar c then [c]
    else (Utf8.encodeChar c).flatMap percentByte

/-- Pairs of names and values, joined by ampersands. -/
def form (pairs : List (String × String)) : String :=
  String.ofList (List.intercalate ['&']
    (pairs.map fun (name, value) => formEncode name ++ '=' :: formEncode value))

end Muster.Http

/-
The compact text of a JSON value: no spaces, members in the order the value holds them, and in
strings only quotes, backslashes and controls escaped.
-/
import Muster.Json.Value
import Muster.Binary64.Shortest
import Muster.Text.Digits

namespace Muster.Json

/-! ## Strings -/

/-- Two lower-case hexadecimal digits. -/
def hexByte (n : Nat) : List Char :=
  [Digits.hexChar (n / 16 % 16), Digits.hexChar (n % 16)]

/-- One character inside a string. -/
def escapeChar (c : Char) : List Char :=
  if c = '"' then ['\\', '"']
  else if c = '\\' then ['\\', '\\']
  else if c.toNat < 0x20 then
    if c = '\x08' then ['\\', 'b']
    else if c = '\t' then ['\\', 't']
    else if c = '\n' then ['\\', 'n']
    else if c = '\x0c' then ['\\', 'f']
    else if c = '\r' then ['\\', 'r']
    else ['\\', 'u', '0', '0'] ++ hexByte c.toNat
  else [c]

def writeText (s : String) : List Char :=
  '"' :: s.toList.flatMap escapeChar ++ ['"']

/-! ## Values -/

def Number.write : Number → List Char
  | .whole n => Digits.write n
  | .negative n => '-' :: Digits.write n
  | .real x => x.write Binary64.jsonLayout

mutual
def Value.write : Value → List Char
  | .null => ['n', 'u', 'l', 'l']
  | .bool true => ['t', 'r', 'u', 'e']
  | .bool false => ['f', 'a', 'l', 's', 'e']
  | .number n => n.write
  | .text s => writeText s
  | .array [] => ['[', ']']
  | .array (v :: vs) => '[' :: v.write ++ writeItems vs
  | .object [] => ['\x7b', '\x7d']
  | .object ((k, v) :: ms) => '\x7b' :: writeText k ++ ':' :: v.write ++ writeMembers ms

/-- The items after the first one, and the closing bracket. -/
def writeItems : List Value → List Char
  | [] => [']']
  | v :: vs => ',' :: v.write ++ writeItems vs

/-- The members after the first one, and the closing brace. -/
def writeMembers : List (String × Value) → List Char
  | [] => ['\x7d']
  | (k, v) :: ms => ',' :: writeText k ++ ':' :: v.write ++ writeMembers ms
end

/-- The compact text of a value. -/
def Value.render (v : Value) : String := String.ofList v.write

end Muster.Json

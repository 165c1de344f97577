/-
The text of a JSON value for readers: one item or member a line, two spaces deeper for each level.
-/
import Muster.Json.Write

namespace Muster.Json

/-- A line break and the spaces of a level. -/
def lineBreak (level : Nat) : List Char := '\n' :: List.replicate (2 * level) ' '

mutual
def Value.writePretty (level : Nat) : Value → List Char
  | .array (v :: vs) =>
    '[' :: lineBreak (level + 1) ++ v.writePretty (level + 1) ++ prettyItems level vs
  | .object ((k, v) :: ms) =>
    '\x7b' :: lineBreak (level + 1) ++ writeText k ++ [':', ' '] ++ v.writePretty (level + 1)
      ++ prettyMembers level ms
  | .null => Value.null.write
  | .bool b => (Value.bool b).write
  | .number n => n.write
  | .text s => writeText s
  | .array [] => ['[', ']']
  | .object [] => ['\x7b', '\x7d']

/-- The items after the first one, and the closing bracket. -/
def prettyItems (level : Nat) : List Value → List Char
  | [] => lineBreak level ++ [']']
  | v :: vs => ',' :: lineBreak (level + 1) ++ v.writePretty (level + 1) ++ prettyItems level vs

/-- The members after the first one, and the closing brace. -/
def prettyMembers (level : Nat) : List (String × Value) → List Char
  | [] => lineBreak level ++ ['\x7d']
  | (k, v) :: ms =>
    ',' :: lineBreak (level + 1) ++ writeText k ++ [':', ' '] ++ v.writePretty (level + 1)
      ++ prettyMembers level ms
end

/-- The text of a value for readers. -/
def Value.pretty (v : Value) : String := String.ofList (v.writePretty 0)

end Muster.Json

/-
What can be wrong with a JSON text that should hold a value of a known shape. A text that breaks
the grammar is malformed; any other fault names what was found and what was wanted.
-/
import Muster.Binary64.Shortest
import Muster.Json.Value
import Muster.Text.Quoted

namespace Muster.Json

/-- The kind of value found where another kind was wanted. -/
inductive Found where
  | null
  | bool (b : Bool)
  | number (n : Number)
  | text (s : String)
  | sequence
  | map
deriving DecidableEq, Repr

inductive Fault where
  | malformed
  | missingField (name : String)
  | duplicateField (name : String)
  | invalidType (found : Found) (wanted : String)
  | invalidValue (found : Found) (wanted : String)
  | invalidLength (length : Nat) (wanted : String)
  | unknownVariant (name : String) (known : List String)
deriving DecidableEq, Repr

namespace Fault

/-- A text between grave accents. -/
def marked (s : String) : String := "\x60" ++ s ++ "\x60"

def numberText : Number → String
  | .whole n => "integer " ++ marked (Digits.text n)
  | .negative n => "integer " ++ marked ("-" ++ Digits.text n)
  | .real x => "floating point " ++ marked (String.ofList (x.write Binary64.jsonLayout))

def foundText : Found → String
  | .null => "null"
  | .bool true => "boolean " ++ marked "true"
  | .bool false => "boolean " ++ marked "false"
  | .number n => numberText n
  | .text s => "string " ++ Text.quoted s
  | .sequence => "sequence"
  | .map => "map"

/-- The names a variant may have: two are joined by `or`, more are listed. -/
def knownText : List String → String
  | [] => "there are no variants"
  | [a] => "expected " ++ marked a
  | [a, b] => "expected " ++ marked a ++ " or " ++ marked b
  | names => "expected one of " ++ String.intercalate ", " (names.map marked)

/-- The wording of a fault. A malformed text has one wording, wherever it breaks off. -/
def message : Fault → String
  | .malformed => "<syntax>"
  | .missingField name => "missing field " ++ marked name
  | .duplicateField name => "duplicate field " ++ marked name
  | .invalidType found wanted => "invalid type: " ++ foundText found ++ ", expected " ++ wanted
  | .invalidValue found wanted => "invalid value: " ++ foundText found ++ ", expected " ++ wanted
  | .invalidLength n wanted =>
    "invalid length " ++ Digits.text n ++ ", expected " ++ wanted
  | .unknownVariant name known =>
    "unknown variant " ++ marked name ++ ", " ++ knownText known

end Fault
end Muster.Json

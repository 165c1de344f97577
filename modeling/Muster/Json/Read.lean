/-
Readers of JSON text that know the shape they want. A reader takes its value off the front of the
text, so the first fault in reading order decides; it is given the room, the number of arrays and
objects that may still be opened.
-/
import Muster.Json.Fault
import Muster.Json.Scan

namespace Muster.Json

/-- Takes a value of one shape off the front of a text. -/
abbrev Reader (α : Type) := (room : Nat) → Cursor → Except Fault (α × Cursor)

/-- Arrays and objects that may be open at once. -/
def maxRoom : Nat := 127

/-- A token, or the fault of a text that does not have it. -/
def orMalformed {α : Type} : Option α → Except Fault α
  | some a => .ok a
  | none => .error .malformed

/-! ## Containers -/

/-- The items of an array whose bracket has been taken, up to the closing bracket. `first` tells
that none has been read. -/
def readItems {α : Type} (item : Cursor → Except Fault (α × Cursor)) :
    (fuel : Cursor) → (first : Bool) → Cursor → Except Fault (List α × Cursor)
  | [], _, _ => .error .malformed
  | _ :: fuel, first, cs =>
    match skipSpace cs with
    | .char ']' :: cs => .ok ([], cs)
    | cs => do
      let cs ← if first then pure cs else orMalformed (takeWord [','] cs)
      let (a, cs) ← item cs
      let (as, cs) ← readItems item fuel false cs
      .ok (a :: as, cs)

/-- The key of the next member and the text behind it, or `none` at the closing brace. -/
def nextKey (first : Bool) (cs : Cursor) : Except Fault (Option String × Cursor) :=
  match skipSpace cs with
  | .char '\x7d' :: cs => .ok (none, cs)
  | cs => do
    let cs ← if first then pure cs else orMalformed (takeWord [','] cs)
    let cs ← orMalformed (takeWord ['"'] (skipSpace cs))
    let (key, cs) ← orMalformed (takeText cs)
    .ok (some key, cs)

def takeColon (cs : Cursor) : Except Fault Cursor :=
  match skipSpace cs with
  | .char ':' :: cs => .ok cs
  | _ => .error .malformed

/-- The members of an object whose brace has been taken, up to the closing brace. -/
def readMembers {α : Type} (item : Cursor → Except Fault (α × Cursor)) :
    (fuel : Cursor) → (first : Bool) → Cursor → Except Fault (List (String × α) × Cursor)
  | [], _, _ => .error .malformed
  | _ :: fuel, first, cs => do
    match ← nextKey first cs with
    | (none, cs) => .ok ([], cs)
    | (some key, cs) =>
      let cs ← takeColon cs
      let (a, cs) ← item cs
      let (ms, cs) ← readMembers item fuel false cs
      .ok ((key, a) :: ms, cs)

/-! ## Any value -/

/-- A value of any shape. -/
def readValue (room : Nat) (cs : Cursor) : Except Fault (Value × Cursor) :=
  match skipSpace cs with
  | .char 'n' :: cs => do
    let cs ← orMalformed (takeWord ['u', 'l', 'l'] cs)
    .ok (.null, cs)
  | .char 't' :: cs => do
    let cs ← orMalformed (takeWord ['r', 'u', 'e'] cs)
    .ok (.bool true, cs)
  | .char 'f' :: cs => do
    let cs ← orMalformed (takeWord ['a', 'l', 's', 'e'] cs)
    .ok (.bool false, cs)
  | .char '"' :: cs => do
    let (s, cs) ← orMalformed (takeText cs)
    .ok (.text s, cs)
  | .char '[' :: cs =>
    match room with
    | 0 => .error .malformed
    | room + 1 => do
      let (items, cs) ← readItems (readValue room) (bound cs) true cs
      .ok (.array items, cs)
  | .char '\x7b' :: cs =>
    match room with
    | 0 => .error .malformed
    | room + 1 => do
      let (members, cs) ← readMembers (readValue room) (bound cs) true cs
      .ok (Value.ofMembers members, cs)
  | cs => do
    let (n, cs) ← orMalformed (takeNumber cs)
    .ok (.number n, cs)

/-! ## Passing over a value -/

/-- An array or an object that is open. -/
inductive Enclosure where
  | array
  | object
deriving DecidableEq, Repr

def Enclosure.closing : Enclosure → Char
  | array => ']'
  | object => '\x7d'

/-- Passes over what stands before the next value of an enclosure: in an object, a key. -/
def passKey : Enclosure → Cursor → Option Cursor
  | .array, cs => some cs
  | .object, cs => do
    let cs ← takeWord ['"'] (skipSpace cs)
    let cs ← passText (bound cs) cs
    takeWord [':'] (skipSpace cs)

/-- The text behind an enclosure that closes at once, if it does. -/
def closed? (e : Enclosure) (cs : Cursor) : Option Cursor :=
  match skipSpace cs with
  | .char c :: cs => if c = e.closing then some cs else none
  | _ => none

/-- Passes over a value that holds no others. -/
def passScalar : Cursor → Option Cursor
  | .char 'n' :: cs => takeWord ['u', 'l', 'l'] cs
  | .char 't' :: cs => takeWord ['r', 'u', 'e'] cs
  | .char 'f' :: cs => takeWord ['a', 'l', 's', 'e'] cs
  | .char '"' :: cs => passText (bound cs) cs
  | cs => passNumber cs

/-- The enclosure that a value opens, and the text behind its bracket. -/
def opens? : Cursor → Option (Enclosure × Cursor)
  | .char '[' :: cs => some (.array, cs)
  | .char '\x7b' :: cs => some (.object, cs)
  | _ => none

/-- Passes over what is left of a value: first a value, if one is due, and then the rest of the
enclosures that are open, the innermost first. -/
def passRest : (fuel : Cursor) → (due : Bool) → List Enclosure → Cursor → Option Cursor
  | [], _, _, _ => none
  | _ :: fuel, true, around, cs =>
    let cs := skipSpace cs
    match opens? cs with
    | none =>
      match passScalar cs with
      | none => none
      | some cs => passRest fuel false around cs
    | some (e, cs) =>
      match closed? e cs with
      | some cs => passRest fuel false around cs
      | none =>
        match passKey e cs with
        | none => none
        | some cs => passRest fuel true (e :: around) cs
  | _ :: _, false, [], cs => some cs
  | _ :: fuel, false, e :: around, cs =>
    match closed? e cs with
    | some cs => passRest fuel false around cs
    | none =>
      match (takeWord [','] (skipSpace cs)).bind (passKey e) with
      | none => none
      | some cs => passRest fuel true (e :: around) cs

/-- Passes over a value of any shape. Nesting is not limited. -/
def passValue (cs : Cursor) : Except Fault Cursor :=
  orMalformed (passRest (bound cs) true [] cs)

/-! ## Whole texts -/

/-- Reads a text that holds one value and nothing else but blanks. -/
def readWhole {α : Type} (reader : Reader α) (cs : Cursor) : Except Fault α := do
  let (a, rest) ← reader maxRoom cs
  match skipSpace rest with
  | [] => .ok a
  | _ => .error .malformed

/-- Reads the text of any value. -/
def parse (s : String) : Except Fault Value :=
  readWhole readValue (Utf8.pieces s.toList)

end Muster.Json

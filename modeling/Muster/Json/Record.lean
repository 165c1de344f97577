/-
Readers for values of a known shape: texts, words, flags, lists, named variants, and records. A
record is an object with named members, or an array of its members in order. Members of an object
may come in any order; one that is not known is passed over, one that comes twice is refused at
its second key, and what is missing is looked for, in the order of the fields, when the object
closes.
-/
import Muster.Json.Read

namespace Muster.Json

/-! ## Scalars -/

/-- The fault of a value of another kind than the wanted one. Scalars are read first, so that a
malformed one is reported as such. -/
def mismatch (wanted : String) (cs : Cursor) : Fault :=
  let found : Except Fault Found := match skipSpace cs with
    | .char 'n' :: cs => do let _ ← orMalformed (takeWord ['u', 'l', 'l'] cs); .ok .null
    | .char 't' :: cs => do let _ ← orMalformed (takeWord ['r', 'u', 'e'] cs); .ok (.bool true)
    | .char 'f' :: cs => do
      let _ ← orMalformed (takeWord ['a', 'l', 's', 'e'] cs)
      .ok (.bool false)
    | .char '"' :: cs => do let (s, _) ← orMalformed (takeText cs); .ok (.text s)
    | .char '[' :: _ => .ok .sequence
    | .char '\x7b' :: _ => .ok .map
    | cs => do let (n, _) ← orMalformed (takeNumber cs); .ok (.number n)
  match found with
  | .ok f => .invalidType f wanted
  | .error e => e

def readText : Reader String := fun _ cs =>
  match skipSpace cs with
  | .char '"' :: cs => orMalformed (takeText cs)
  | cs => .error (mismatch "a string" cs)

def readFlag : Reader Bool := fun _ cs =>
  match skipSpace cs with
  | .char 't' :: cs => do .ok (true, ← orMalformed (takeWord ['r', 'u', 'e'] cs))
  | .char 'f' :: cs => do .ok (false, ← orMalformed (takeWord ['a', 'l', 's', 'e'] cs))
  | cs => .error (mismatch "a boolean" cs)

/-- The text begins with a number. -/
def atNumber : Cursor → Bool
  | .char c :: _ => c == '-' || Digits.isDigit c
  | _ => false

/-- A whole number from `0` to `limit`. -/
def readWord (wanted : String) (limit : Nat) : Reader Nat := fun _ cs =>
  let cs := skipSpace cs
  if atNumber cs then do
    let (n, cs) ← orMalformed (takeNumber cs)
    match n with
    | .whole m => if m ≤ limit then .ok (m, cs) else .error (.invalidValue (.number n) wanted)
    | .negative _ => .error (.invalidValue (.number n) wanted)
    | .real _ => .error (.invalidType (.number n) wanted)
  else .error (mismatch wanted cs)

def readWord64 : Reader Nat := readWord "u64" (Nat.pow 2 64 - 1)
def readWord32 : Reader Nat := readWord "u32" (Nat.pow 2 32 - 1)

/-- `null` or a value. -/
def readOptional {α : Type} (reader : Reader α) : Reader (Option α) := fun room cs =>
  match skipSpace cs with
  | .char 'n' :: cs => do .ok (none, ← orMalformed (takeWord ['u', 'l', 'l'] cs))
  | cs => do
    let (a, cs) ← reader room cs
    .ok (some a, cs)

/-- A list whose items one reader reads. The room is what its items have. -/
def readList {α : Type} (item : Cursor → Except Fault (α × Cursor)) :
    Cursor → Except Fault (List α × Cursor) := fun cs =>
  match skipSpace cs with
  | .char '[' :: cs => readItems item (bound cs) true cs
  | cs => .error (mismatch "a sequence" cs)

/-! ## Variants -/

def findVariant {α : Type} (variants : List (String × α)) (name : String) : Except Fault α :=
  match variants.lookup name with
  | some a => .ok a
  | none => .error (.unknownVariant name (variants.map (·.1)))

/-- One of several named values: its name, or an object with its name as the only key and `null`
as the value. -/
def readVariant {α : Type} (variants : List (String × α)) : Reader α := fun room cs =>
  match skipSpace cs with
  | .char '"' :: cs => do
    let (name, cs) ← orMalformed (takeText cs)
    let a ← findVariant variants name
    .ok (a, cs)
  | .char '\x7b' :: cs =>
    match room with
    | 0 => .error .malformed
    | _ + 1 => do
      match skipSpace cs with
      | .char '"' :: cs =>
        let (name, cs) ← orMalformed (takeText cs)
        let a ← findVariant variants name
        let cs ← takeColon cs
        match skipSpace cs with
        | .char 'n' :: cs =>
          let cs ← orMalformed (takeWord ['u', 'l', 'l'] cs)
          let cs ← orMalformed (takeWord ['\x7d'] (skipSpace cs))
          .ok (a, cs)
        | cs => .error (mismatch "unit" cs)
      | cs => .error (mismatch "variant identifier" cs)
  | _ => .error .malformed

/-! ## Records -/

/-- When a field may be absent: never, in an object only, or everywhere. -/
inductive Presence where
  | required
  | optionalMember
  | optional
deriving DecidableEq, Repr

/-- A field of a record that is being read: `σ` holds what has been read so far. -/
structure Field (σ : Type) where
  name : String
  presence : Presence
  filled : σ → Bool
  read : Reader (σ → σ)

/-- A field whose value goes into one place of the record. -/
def Field.of {σ α : Type} (name : String) (presence : Presence) (reader : Reader α)
    (get : σ → Option α) (set : α → σ → σ) : Field σ where
  name := name
  presence := presence
  filled s := (get s).isSome
  read room cs := do
    let (a, cs) ← reader room cs
    .ok (set a, cs)

/-- A record: what it is called in messages, its fields in order, and the value of a complete
reading. -/
structure Schema (σ α : Type) where
  title : String
  fields : List (Field σ)
  start : σ
  finish : σ → Option α

namespace Schema

/-- The members of an object, up to the closing brace. -/
def readObject {σ : Type} (fields : List (Field σ)) (room : Nat) :
    (fuel : Cursor) → (first : Bool) → σ → Cursor → Except Fault (σ × Cursor)
  | [], _, _, _ => .error .malformed
  | _ :: fuel, first, s, cs => do
    match ← nextKey first cs with
    | (none, cs) => .ok (s, cs)
    | (some key, cs) =>
      match fields.find? (·.name == key) with
      | some field =>
        if field.filled s then .error (.duplicateField key)
        else
          let cs ← takeColon cs
          let (set, cs) ← field.read room cs
          readObject fields room fuel false (set s) cs
      | none =>
        let cs ← takeColon cs
        let cs ← passValue cs
        readObject fields room fuel false s cs

/-- Fails with the first field that an object must have and has not. -/
def checkMissing {σ : Type} (s : σ) : List (Field σ) → Except Fault Unit
  | [] => .ok ()
  | f :: fs =>
    if f.presence = .required ∧ !f.filled s then .error (.missingField f.name)
    else checkMissing s fs

/-- The items of an array of fields: each field takes one, and where items run out the rest of the
fields must be optional. -/
def readArray {σ : Type} (wanted : String) (room : Nat) :
    (index : Nat) → List (Field σ) → σ → Cursor → Except Fault (σ × Cursor)
  | _, [], s, cs => do .ok (s, ← orMalformed (takeWord [']'] (skipSpace cs)))
  | index, f :: fs, s, cs =>
    match skipSpace cs with
    | .char ']' :: rest =>
      if f.presence = .optional then readArray wanted room (index + 1) fs s (.char ']' :: rest)
      else .error (.invalidLength index wanted)
    | cs => do
      let cs ← if index = 0 then pure cs else orMalformed (takeWord [','] cs)
      let (set, cs) ← f.read room cs
      readArray wanted room (index + 1) fs (set s) cs

def wanted {σ α : Type} (schema : Schema σ α) : String := "struct " ++ schema.title

/-- What is said of an array that is too short. -/
def wantedLength {σ α : Type} (schema : Schema σ α) : String :=
  schema.wanted ++ " with " ++ Digits.text schema.fields.length ++ " elements"

/-- A record in either form. -/
def read {σ α : Type} (schema : Schema σ α) : Reader α := fun room cs =>
  match skipSpace cs with
  | .char '[' :: cs =>
    match room with
    | 0 => .error .malformed
    | room + 1 => do
      let (s, cs) ← readArray schema.wantedLength room 0 schema.fields schema.start cs
      .ok (← orMalformed (schema.finish s), cs)
  | .char '\x7b' :: cs =>
    match room with
    | 0 => .error .malformed
    | room + 1 => do
      let (s, cs) ← readObject schema.fields room (bound cs) true schema.start cs
      checkMissing s schema.fields
      .ok (← orMalformed (schema.finish s), cs)
  | cs => .error (mismatch schema.wanted cs)

end Schema
end Muster.Json

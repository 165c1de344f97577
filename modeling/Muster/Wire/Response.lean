/-
The response record: a result, or a failure with a text and possibly a code that keeps the kinds
of failure apart which a caller must tell from the rest.
-/
import Muster.Fault
import Muster.Json.Record
import Muster.Json.Write

namespace Muster.Wire

/-- The kinds of failure that survive the way to the caller. -/
inductive Code where
  | capacity
  | shutdown
  | internal
deriving DecidableEq, Repr

namespace Code

def name : Code → String
  | capacity => "capacity"
  | shutdown => "shutdown"
  | internal => "internal"

/-- The code as a word for a reader. -/
def label : Code → String
  | capacity => "Capacity"
  | shutdown => "Shutdown"
  | internal => "Internal"

def all : List (String × Code) :=
  [("capacity", capacity), ("shutdown", shutdown), ("internal", internal)]

def ofFault : Fault → Code
  | .capacity => capacity
  | .shutdown => shutdown
  | _ => internal

end Code

structure Response where
  id : Nat
  result : Option Json.Value := none
  error : Option String := none
  success : Bool
  code : Option Code := none
deriving Repr

namespace Response

def ofResult (id : Nat) (result : Json.Value) : Response :=
  { id, result := some result, success := true }

/-- A failure without code. -/
def ofText (id : Nat) (error : String) : Response :=
  { id, error := some error, success := false }

def ofFault (id : Nat) (fault : Fault) : Response :=
  { ofText id fault.message with code := some (Code.ofFault fault) }

/-- What the response tells its caller. -/
def outcome (r : Response) : Except Fault Json.Value :=
  if r.success then
    match r.result with
    | some v => .ok v
    | none => .error (.invalidResponse "success without result")
  else
    match r.code with
    | some .capacity => .error .capacity
    | some .shutdown => .error .shutdown
    | _ => .error (.remote (r.error.getD "unknown error"))

/-! ## JSON -/

/-- Members in the order of the record; a code only when there is one. -/
def toJson (r : Response) : Json.Value :=
  .object ([("id", .number (.whole r.id)), ("result", r.result.getD .null),
      ("error", match r.error with
        | some e => .text e
        | none => .null),
      ("success", .bool r.success)]
    ++ match r.code with
      | some c => [("code", .text c.name)]
      | none => [])

/-- What has been read of a response. -/
structure Draft where
  id : Option Nat := none
  result : Option (Option Json.Value) := none
  error : Option (Option String) := none
  success : Option Bool := none
  code : Option (Option Code) := none

def Draft.finish (d : Draft) : Option Response := do
  some { id := ← d.id, result := d.result.getD none, error := d.error.getD none,
         success := ← d.success, code := d.code.getD none }

open Json in
/-- A result of `null` is no result. -/
def schema : Schema Draft Response where
  title := "Response"
  start := {}
  finish := Draft.finish
  fields := [
    .of "id" .required readWord64 Draft.id fun v d => { d with id := some v },
    .of "result" .optionalMember (readOptional readValue) Draft.result
      fun v d => { d with result := some v },
    .of "error" .optionalMember (readOptional readText) Draft.error
      fun v d => { d with error := some v },
    .of "success" .required readFlag Draft.success fun v d => { d with success := some v },
    .of "code" .optional (readOptional (readVariant Code.all)) Draft.code
      fun v d => { d with code := some v }]

/-- The frame that carries a response. -/
def encode (r : Response) : List UInt8 := Utf8.encode r.toJson.write

/-- The response that a frame carries. -/
def decode (frame : List UInt8) : Except Fault Response :=
  match Json.readWhole schema.read (Utf8.read frame) with
  | .ok r => .ok r
  | .error e => .error (.json e)

end Response
end Muster.Wire

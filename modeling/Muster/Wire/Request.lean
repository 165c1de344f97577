/-
The request record: a call of a method with JSON arguments, under an id that the response repeats.
-/
import Muster.Fault
import Muster.Json.Record
import Muster.Json.Write

namespace Muster.Wire

structure Request where
  id : Nat
  method : String
  args : Json.Value
  timeoutMs : Option Nat := none
deriving Repr

namespace Request

/-- The request's own deadline, or the given one. -/
def timeoutOr (r : Request) (default : Nat) : Nat := r.timeoutMs.getD default

/-- The same request, member by member. -/
def same (a b : Request) : Bool :=
  a.id == b.id && a.method == b.method && a.args == b.args && a.timeoutMs == b.timeoutMs

/-- Members in the order of the record; a deadline only when there is one. -/
def toJson (r : Request) : Json.Value :=
  .object ([("id", .number (.whole r.id)), ("method", .text r.method), ("args", r.args)]
    ++ match r.timeoutMs with
      | some ms => [("timeout_ms", .number (.whole ms))]
      | none => [])

/-- What has been read of a request. -/
structure Draft where
  id : Option Nat := none
  method : Option String := none
  args : Option Json.Value := none
  timeoutMs : Option (Option Nat) := none

def Draft.finish (d : Draft) : Option Request := do
  some { id := ← d.id, method := ← d.method, args := ← d.args,
         timeoutMs := d.timeoutMs.getD none }

open Json in
def schema : Schema Draft Request where
  title := "Request"
  start := {}
  finish := Draft.finish
  fields := [
    .of "id" .required readWord64 Draft.id fun v d => { d with id := some v },
    .of "method" .required readText Draft.method fun v d => { d with method := some v },
    .of "args" .required readValue Draft.args fun v d => { d with args := some v },
    .of "timeout_ms" .optional (readOptional readWord64) Draft.timeoutMs
      fun v d => { d with timeoutMs := some v }]

/-- The frame that carries a request. -/
def encode (r : Request) : List UInt8 := Utf8.encode r.toJson.write

/-- The request that a frame carries. -/
def decode (frame : List UInt8) : Except Fault Request :=
  match Json.readWhole schema.read (Utf8.read frame) with
  | .ok r => .ok r
  | .error e => .error (.json e)

end Request
end Muster.Wire

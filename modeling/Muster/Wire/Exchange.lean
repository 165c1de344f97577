/-
One exchange over a stream: a request goes out, and the frame that comes back must hold a response
with the same id. The id zero is that of a response to a request that could not be read.
-/
import Muster.Net.Network
import Muster.Wire.Request
import Muster.Wire.Response

namespace Muster.Wire

def foreignId (response request : Nat) : Fault :=
  .invalidResponse ("response id " ++ Digits.text response ++ " does not match request id "
    ++ Digits.text request)

/-- The response to a request that a frame holds. -/
def Request.accept (r : Request) (payload : List UInt8) : Except Fault Response :=
  match Response.decode payload with
  | .error e => .error e
  | .ok response =>
    if response.id ≠ r.id ∧ response.id ≠ 0 then .error (foreignId response.id r.id)
    else .ok response

/-- Sends a request and waits for its response. -/
def exchange {ω ς : Type} (net : Network ω ς) (stream : ς) (r : Request) (within : Nat) (w : ω) :
    Except Fault Response × ω :=
  match net.send stream r.encode w with
  | (.error e, w) => (.error e, w)
  | (.ok (), w) =>
    match net.receive stream within w with
    | (.error e, w) => (.error e, w)
    | (.ok payload, w) => (r.accept payload, w)

end Muster.Wire

/-
The serving side of a connection: every whole frame is answered with one response, in order, until
the peer hangs up or announces a frame above the limit.
-/
import Muster.Wire.Frame
import Muster.Wire.Request
import Muster.Wire.Response

namespace Muster.Wire.Server

/-- What a service makes of a request, in a state of its own. -/
abbrev Handler (σ : Type) := Request → σ → Except Fault Response × σ

/-- The response to a payload. One that holds no request is answered without asking the handler;
its id is not known, so zero stands for it. -/
def answer {σ : Type} (handle : Handler σ) (payload : List UInt8) (s : σ) : Response × σ :=
  match Request.decode payload with
  | .error e => (.ofText 0 e.message, s)
  | .ok r =>
    match handle r s with
    | (.ok response, s) => (response, s)
    | (.error e, s) => (.ofFault r.id e, s)

/-- How a connection has been served: the bytes sent, the end, and the state of the service. A
connection that the peer closes ends well. -/
structure Served (σ : Type) where
  sent : List UInt8 := []
  ended : Except Fault Unit
  state : σ

/-- Whether the end of a stream is a peer that has hung up. -/
def endOf : Fault → Except Fault Unit
  | .connection _ => .ok ()
  | e => .error e

/-- Serves the bytes that a peer sends before it hangs up. -/
def serve {σ : Type} (handle : Handler σ) (bytes : List UInt8) (s : σ) : Served σ :=
  match _h : Frame.read bytes with
  | .error e => { ended := endOf e, state := s }
  | .ok (payload, rest) =>
    let (response, s) := answer handle payload s
    match Frame.write response.encode with
    | .error e => { ended := .error e, state := s }
    | .ok frame =>
      let served := serve handle rest s
      { served with sent := frame ++ served.sent }
termination_by bytes.length
decreasing_by exact Frame.read_length_lt _h

end Muster.Wire.Server

/-
One connection to one address. Its state is kept beside its stream, and whoever works on the stream
holds it alone; shutting down does not wait for that, so the state says `shutdown` before the stream
is given up. The steps between two waits are definitions of their own, and the operations are made
of them.
-/
import Muster.Channel.State
import Muster.Text.Quoted
import Muster.Wire.Exchange

namespace Muster.Channel

structure Subchannel (ς : Type) where
  addr : String
  state : State := .idle
  stream : Option ς := none
deriving Repr

namespace Subchannel

variable {ω ς : Type}

/-! ## Steps -/

/-- Changes the state, which stays `shutdown` once it is. -/
def enter (c : Subchannel ς) (next : State) : Subchannel ς :=
  if c.state = .shutdown then c else { c with state := next }

/-- What connecting comes to before anything is waited for. -/
inductive Approach (ς : Type) where
  | refused (f : Fault)
  | standing (stream : ς)
  | dialing
deriving Repr

def shutDownFault (addr : String) : Fault := .connection ("subchannel " ++ addr ++ " is shut down")

/-- Looks whether there is a connection already, or may not be one any more. -/
def approach (c : Subchannel ς) : Approach ς :=
  if c.state = .shutdown then .refused (shutDownFault c.addr)
  else
    match c.stream with
    | some stream => .standing stream
    | none => .dialing

/-- A connect begins. -/
def beginConnect (c : Subchannel ς) : Subchannel ς := c.enter .connecting

/-- A connect has ended. -/
def endConnect (c : Subchannel ς) : Except Fault ς → Subchannel ς
  | .ok stream => { c with stream := some stream }.enter .ready
  | .error _ => c.enter .transientFailure

/-- The state that a failed exchange leaves: a broken connection is a failure, any other end leaves
the connection to be made again. -/
def stateAfter : Fault → State
  | .connection _ | .io _ => .transientFailure
  | _ => .idle

/-- An exchange has ended. After a failure the stream may hold part of a frame and is dropped. -/
def endExchange (c : Subchannel ς) : Except Fault Wire.Response → Subchannel ς
  | .ok _ => c
  | .error f => { c with stream := none }.enter (stateAfter f)

/-- Shutting down begins: from now on nothing is connected. -/
def beginShutdown (c : Subchannel ς) : Subchannel ς := { c with state := .shutdown }

/-- Shutting down ends, when nobody works on the stream. -/
def endShutdown (c : Subchannel ς) : Subchannel ς := { c with stream := none }

/-! ## Operations -/

variable (net : Network ω ς)

/-- The stream of the connection, which is made if there is none. -/
def connect (within : Nat) (c : Subchannel ς) (w : ω) : Except Fault ς × Subchannel ς × ω :=
  match c.approach with
  | .refused f => (.error f, c, w)
  | .standing stream => (.ok stream, c, w)
  | .dialing =>
    let (r, w) := net.connect c.addr within w
    (r, c.beginConnect.endConnect r, w)

/-- Sends a request and waits for its response, over a connection that is made if need be. -/
def call (connectWithin : Nat) (r : Wire.Request) (within : Nat) (c : Subchannel ς) (w : ω) :
    Except Fault Wire.Response × Subchannel ς × ω :=
  match c.connect net connectWithin w with
  | (.error f, c, w) => (.error f, c, w)
  | (.ok stream, c, w) =>
    let (response, w) := Wire.exchange net stream r within w
    (response, c.endExchange response, w)

/-- Closes the connection for good. -/
def shutdown (c : Subchannel ς) : Subchannel ς := c.beginShutdown.endShutdown

/-- The connection as shown to a reader of messages. -/
def describe (c : Subchannel ς) : String :=
  "Subchannel \x7b addr: " ++ Text.quoted c.addr ++ ", state: " ++ c.state.label ++ " \x7d"

end Subchannel
end Muster.Channel

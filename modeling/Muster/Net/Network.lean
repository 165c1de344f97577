/-
A way to reach peers: connecting to an address, and frames that go out and come in over the stream
of a connection. `ω` is the state of the world that the peers live in, `ς` a stream.
-/
import Muster.Net.Address

namespace Muster

structure Network (ω ς : Type) where
  /-- Connects to an address within a time. -/
  connect : (addr : String) → (within : Nat) → ω → Except Fault ς × ω
  /-- Sends a frame. -/
  send : ς → (payload : List UInt8) → ω → Except Fault Unit × ω
  /-- Waits for a frame within a time. -/
  receive : ς → (within : Nat) → ω → Except Fault (List UInt8) × ω

namespace Network

/-- What a host without a network says of every address. -/
def noRoute : String := "Network is unreachable (os error 101)"

/-- Why a place cannot be reached from a host without a network: it has no way out, and no address
of version 6 to start from. -/
def unreachable (p : Net.Place) : String :=
  match p.ip with
  | .v4 _ => noRoute
  | .v6 bits =>
    if Ip.isMapped bits || Ip.isMulticast bits then noRoute
    else if Ip.isLinkLocal bits && p.zone = 0 then Net.noZone
    else Net.notOwn

/-- How connecting ends on a host without a network. -/
def connectNowhere (addr : String) : Fault :=
  match Net.readAddress addr with
  | .error e => Net.invalidAddress addr e
  | .ok (p, _) => Net.connectFailed addr (unreachable p)

/-- A host without a network: nobody can be reached, and there is no stream. -/
def none : Network Unit Empty where
  connect addr _ w := (.error (connectNowhere addr), w)
  send stream := nomatch stream
  receive stream := nomatch stream

end Network
end Muster

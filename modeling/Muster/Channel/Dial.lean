/-
Dialing a channel: what is asked before resolution begins, and how the wait for the first
resolution ends.
-/
import Muster.Channel.Basic

namespace Muster.Channel

/-- What stands in the way of a dial from the start. `shut` tells that the process signal has
fired. -/
def Options.mayDial (o : Options) (shut : Bool) : Except Fault Unit :=
  match o.validate with
  | .error e => .error (.invalidConfig e)
  | .ok () => if shut then .error .shutdown else .ok ()

/-- What the first resolution means for the dial; nothing while it is awaited. -/
def Resolution.answer? : Resolution → Option (Except Fault Unit)
  | .pending => none
  | .resolved => some (.ok ())
  | .failed message => some (.error (.transient message))

/-- How a dial ends whose resolver answers at once or not at all. Without an answer it waits for
the process signal, if that fires in time, and else for the end of its own time. -/
def dialed {ς : Type} (c : Channel ς) (firesAfter : Option Nat) : Except Fault Unit :=
  match c.resolution.answer? with
  | some r => r
  | none =>
    match firesAfter with
    | some t => if t < c.options.dialTimeout then .error .shutdown
      else .error (.timeout c.options.dialTimeout)
    | none => .error (.timeout c.options.dialTimeout)

end Muster.Channel

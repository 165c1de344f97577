/-
The timeouts and the retry policy of a channel. Times are in milliseconds.
-/
namespace Muster.Channel

structure Options where
  /-- The time one connect may take. -/
  connectTimeout : Nat := 5000
  /-- How long a dial waits for the first resolution. -/
  dialTimeout : Nat := 10000
  /-- The deadline of a call without one of its own. -/
  callTimeout : Nat := 30000
  /-- Attempts of one call, each on a fresh pick. -/
  callAttempts : Nat := 2
  /-- Idle time before a connection is probed, if it is. -/
  keepalive : Option Nat := some 360000
deriving DecidableEq, Repr

def Options.validate (o : Options) : Except String Unit :=
  if o.keepalive.any (· < 1000) then .error "keepalive must be at least 1s"
  else if o.connectTimeout = 0 ∨ o.dialTimeout = 0 ∨ o.callTimeout = 0 then
    .error "timeouts must be greater than 0"
  else if o.callAttempts = 0 then .error "call_attempts must be at least 1"
  else .ok ()

end Muster.Channel

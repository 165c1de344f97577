/-
Connectivity: of one connection, and of a set of them taken together.
-/
namespace Muster.Channel

inductive State where
  | idle
  | connecting
  | ready
  | transientFailure
  | shutdown
deriving DecidableEq, Repr

namespace State

def name : State → String
  | idle => "IDLE"
  | connecting => "CONNECTING"
  | ready => "READY"
  | transientFailure => "TRANSIENT_FAILURE"
  | shutdown => "SHUTDOWN"

/-- The state as a word among others in a message. -/
def label : State → String
  | idle => "Idle"
  | connecting => "Connecting"
  | ready => "Ready"
  | transientFailure => "TransientFailure"
  | shutdown => "Shutdown"

/-- May be used again; anything else is dead. -/
def isUsable : State → Bool
  | ready | idle => true
  | _ => false

/-- One that is ready makes the whole ready, else one that connects makes it connecting. Without
any, or with one that is idle, the whole is idle; otherwise it has failed. -/
def aggregate (states : List State) : State :=
  if states.contains ready then ready
  else if states.contains connecting then connecting
  else if states.isEmpty || states.contains idle then idle
  else transientFailure

end State
end Muster.Channel

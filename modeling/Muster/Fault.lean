/-
What can go wrong between a caller and a service, by cause, with one wording for each cause. Some
causes are worth another attempt; the rest would only repeat themselves.
-/
import Muster.Json.Fault

namespace Muster

inductive Fault where
  /-- No such key in the registry. -/
  | notFound (key : String)
  /-- The key is taken. -/
  | conflict (key : String)
  /-- The registry did not answer, or not in a usable way. -/
  | transient (cause : String)
  /-- Refused by admission control. -/
  | capacity
  /-- No endpoint of the service is ready. -/
  | unavailable (service : String)
  /-- A connection could not be made, or broke. -/
  | connection (cause : String)
  /-- No response within the deadline. -/
  | timeout (ms : Nat)
  | invalidTarget (cause : String)
  | unknownScheme (scheme : String)
  | invalidRecord (cause : String)
  | invalidResponse (cause : String)
  /-- The other side answered with a failure of its own. -/
  | remote (cause : String)
  | invalidConfig (cause : String)
  /-- A frame that does not hold the record it should. -/
  | json (fault : Json.Fault)
  | io (cause : String)
  | shutdown
deriving DecidableEq, Repr

namespace Fault

/-- The name of the cause, for those who sort faults by it. -/
def kind : Fault → String
  | notFound _ => "NotFound"
  | conflict _ => "Conflict"
  | transient _ => "TransientInfra"
  | capacity => "Capacity"
  | unavailable _ => "Unavailable"
  | connection _ => "Connection"
  | timeout _ => "Timeout"
  | invalidTarget _ => "InvalidTarget"
  | unknownScheme _ => "UnknownScheme"
  | invalidRecord _ => "InvalidRecord"
  | invalidResponse _ => "InvalidResponse"
  | remote _ => "Remote"
  | invalidConfig _ => "InvalidConfig"
  | json _ => "JsonSerialization"
  | io _ => "Io"
  | shutdown => "Shutdown"

def message : Fault → String
  | notFound key => "Key not found: " ++ key
  | conflict key => "Key already exists: " ++ key
  | transient cause => "Registry unavailable: " ++ cause
  | capacity => "Request rejected by admission control, please retry later"
  | unavailable service => "No ready endpoint for " ++ service
  | connection cause => "Connection error: " ++ cause
  | timeout ms => "Request timeout after " ++ Digits.text ms ++ "ms"
  | invalidTarget cause => "Invalid target: " ++ cause
  | unknownScheme scheme => "No resolver registered for scheme '" ++ scheme ++ "'"
  | invalidRecord cause => "Invalid record: " ++ cause
  | invalidResponse cause => "Invalid response: " ++ cause
  | remote cause => "Remote error: " ++ cause
  | invalidConfig cause => "Invalid configuration: " ++ cause
  | json fault => "JSON serialization error: " ++ fault.message
  | io cause => "IO error: " ++ cause
  | shutdown => "Shutting down"

def isNotFound : Fault → Bool
  | notFound _ => true
  | _ => false

def isCapacity : Fault → Bool
  | capacity => true
  | _ => false

/-- Another attempt may end better. -/
def isRetryable : Fault → Bool
  | transient _ | unavailable _ | connection _ | timeout _ => true
  | _ => false

end Fault
end Muster

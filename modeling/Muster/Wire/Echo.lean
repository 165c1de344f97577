/-
The echo service: it answers a request with its own name and with what was asked, if the gate
before it lets the request pass.
-/
import Muster.Admission.Gate
import Muster.Wire.Server

namespace Muster.Wire.Echo

/-- Who answers, and what was asked. -/
def echoed (name : String) (r : Request) : Json.Value :=
  .object [("args", r.args), ("method", .text r.method), ("served_by", .text name)]

def respond (name : String) (r : Request) : Response := .ofResult r.id (echoed name r)

/-- Answers a request that finds a ticket. The ticket is put back with the answer, so the gate
stays as it is. -/
def handle (name : String) (shut : Bool) : Server.Handler Admission.Gate := fun r gate =>
  match (gate.tryAcquire shut).1 with
  | .ok _ => (.ok (respond name r), gate)
  | .error e => (.error e, gate)

end Muster.Wire.Echo

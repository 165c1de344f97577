/-
The registry's part in serving: an instance is registered before the first request is taken, and
its record is removed when the last one has been answered.
-/
import Muster.Registry.Service

namespace Muster.Registry

variable {σ : Type} (b : Backend σ)

/-- Begins to serve: registers the instance. Whoever cannot register does not serve. -/
def beginServing (svc : Service) (ip : Ip) (port drawn : Nat) (version now : String) (s : σ) :
    Except Fault Registration × σ :=
  register b svc ip port drawn .rpc version now s

/-- Ends serving: removes the record that was registered. That this fails is of no consequence to
anybody. -/
def endServing (svc : Service) (r : Registration) (s : σ) : σ :=
  (deregister b svc r.sequence s).2

/-- Serves from registration to removal; `during` is what happens to the registry meanwhile. -/
def serving (svc : Service) (ip : Ip) (port drawn : Nat) (version now : String) (during : σ → σ)
    (s : σ) : Except Fault Registration × σ :=
  match beginServing b svc ip port drawn version now s with
  | (.error f, s) => (.error f, s)
  | (.ok r, s) => (.ok r, endServing b svc r (during s))

end Muster.Registry

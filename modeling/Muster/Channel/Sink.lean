/-
What a channel makes of what its resolver tells it. Notices come one after another: a set is applied
before the next notice is taken.
-/
import Muster.Channel.Basic
import Muster.Resolver.Office

namespace Muster

namespace Resolver.Notice

/-- What is told of how a resolution has ended. -/
def ofResult : Except Fault AddressSet → Notice
  | .ok set => .update set
  | .error f => .report f

def isUpdate : Notice → Bool
  | update _ => true
  | report _ => false

end Resolver.Notice

namespace Channel

open Resolver (Notice)

variable {ω ς : Type} (net : Network ω ς)

/-- Takes a notice. -/
def hear (n : Notice) (c : Channel ς) (w : ω) : Channel ς × ω :=
  match n with
  | .update set => c.apply net set w
  | .report f => (c.report f, w)

/-- Takes several notices. -/
def hearAll : List Notice → Channel ς → ω → Channel ς × ω
  | [], c, w => (c, w)
  | n :: ns, c, w =>
    let (c, w) := c.hear net n w
    hearAll ns c w

end Channel
end Muster

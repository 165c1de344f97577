/-
Where a service keeps its records: one directory per service and cluster, one key per instance.
-/
import Muster.Net.Ip

namespace Muster.Registry

/-- What every registry key begins with. -/
def root : String := "corral-service"

def defaultCluster : String := "load-balance"

/-- The key of a service in a cluster, with further segments below it. -/
def keyName (service cluster : String) (segments : List String) : String :=
  segments.foldl (fun key segment => key ++ "/" ++ segment)
    ("/" ++ root ++ "." ++ service ++ "." ++ cluster)

/-- The sequence of an instance: its address as a number, then its port in five digits. -/
def sequenceFor (ip : Ip) (port : Nat) : String :=
  String.ofList (Digits.write ip.toNat ++ Digits.padded 5 port)

/-- The ports one is drawn from when an instance registers without a port. -/
def randomPorts : Nat × Nat := (50000, 60000)

/-- A port from the range, as a draw decides. -/
def randomPort (draw : Nat) : Nat :=
  randomPorts.1 + draw % (randomPorts.2 - randomPorts.1)

end Muster.Registry

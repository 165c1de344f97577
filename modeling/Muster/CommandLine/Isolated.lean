/-
Commands on a host without a network.
-/
import Muster.CommandLine.Run
import Muster.Etcd.Store

namespace Muster.CommandLine

/-- What a registry lives among on a host without a network. -/
def isolated (c : Etcd.Config) : Client.Surroundings Unit Empty Unit :=
  { network := .none, registry := Etcd.backend Http.noTransport c }

end Muster.CommandLine

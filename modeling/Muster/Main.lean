/-
The command line. This build has no way out of the host, so no registry and no peer is in reach.
-/
import Muster.CommandLine.Isolated

open Muster in
def main (args : List String) : IO UInt32 := do
  let (low, high) := Registry.randomPorts
  let chance : CommandLine.Chance := {
    instancePort := ← IO.rand low (high - 1)
    boundPort := ← IO.rand 32768 60999
    requestId := ← IO.rand 1 (Nat.pow 2 53)
    now := "1970-01-01T00:00:00+00:00" }
  let environment ← IO.getEnv Etcd.endpointsVariable
  let (o, _) := CommandLine.run args environment chance CommandLine.isolated ((), ())
  IO.print o.out
  IO.eprint o.err
  return o.exitCode.toUInt32

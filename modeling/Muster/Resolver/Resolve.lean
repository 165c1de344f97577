/-
One resolution: listing a service's records, with further attempts when listing fails.
-/
import Muster.Registry.Service
import Muster.Resolver.AddressSet

namespace Muster.Resolver

open Registry (Backend Service)

variable {σ : Type}

/-- The addresses that one listing shows. -/
def lookup (b : Backend σ) (svc : Service) (s : σ) : Except Fault AddressSet × σ :=
  let (records, s) := Registry.listService b svc s
  (records.map fun rs => AddressSet.ofRecords (rs.map (·.2)), s)

/-- Lists up to `more + 1` times; the first success ends it, else the last failure counts. -/
def attempts (b : Backend σ) (svc : Service) : (more : Nat) → σ → Except Fault AddressSet × σ
  | 0, s => lookup b svc s
  | more + 1, s =>
    match lookup b svc s with
    | (.ok found, s) => (.ok found, s)
    | (.error _, s) => attempts b svc more s

/-- Resolves with a number of attempts, at least one. -/
def resolve (b : Backend σ) (svc : Service) (maxAttempts : Nat) (s : σ) :
    Except Fault AddressSet × σ :=
  attempts b svc (maxAttempts - 1) s

end Muster.Resolver

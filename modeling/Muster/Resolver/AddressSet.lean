/-
The addresses of a service: sorted, each once. Of entries with the same address the last counts.
-/
import Muster.Registry.Record

namespace Muster

structure Address where
  addr : String
  version : String := ""
deriving DecidableEq, Repr

/-- Addresses in strictly increasing order of `addr`. -/
structure AddressSet where
  addresses : List Address := []
deriving DecidableEq, Repr

namespace AddressSet

/-- Puts an address into its place; one with the same `addr` is replaced. -/
def insert (a : Address) : List Address → List Address
  | [] => [a]
  | b :: rest =>
    if a.addr < b.addr then a :: b :: rest
    else if a.addr = b.addr then a :: rest
    else b :: insert a rest

def ofList (as : List Address) : AddressSet :=
  ⟨as.foldl (fun acc a => insert a acc) []⟩

/-- The addresses that records publish. -/
def ofRecords (rs : List Registry.Record) : AddressSet :=
  ofList (rs.map fun r => ⟨r.address, r.version⟩)

def addrs (s : AddressSet) : List String := s.addresses.map (·.addr)

def contains (s : AddressSet) (addr : String) : Bool := s.addresses.any (·.addr == addr)

def size (s : AddressSet) : Nat := s.addresses.length

def isEmpty (s : AddressSet) : Bool := s.addresses.isEmpty

end AddressSet
end Muster

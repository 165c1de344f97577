/-
Named servers, each at an address of its own. Addresses are given out in the order in which the
names come up, and a server that stops keeps its address.
-/
import Muster.Text.Digits

namespace Muster.Simulation

/-- Servers by name, in the order of their addresses, each with whether it runs. The last number of
the first address is `first`. -/
structure Servers where
  first : Nat := 2
  known : List (String × Bool) := []
deriving Repr

namespace Servers

/-- The address of the server at a place in the order. -/
def addressAt (s : Servers) (place : Nat) : String :=
  "127.0.0." ++ Digits.text (s.first + place)

def port : String := "4000"

/-- The place of a name in the order. -/
def place? (s : Servers) (name : String) : Option Nat := (s.known.map (·.1)).idxOf? name

def ip? (s : Servers) (name : String) : Option String := (s.place? name).map s.addressAt

/-- Host and port of a named server; any other text is taken for an address itself. -/
def addrOf (s : Servers) (name : String) : String :=
  match s.ip? name with
  | some ip => ip ++ ":" ++ port
  | none => name

/-- The name whose address this is. -/
def nameAt? (s : Servers) (addr : String) : Option String :=
  (s.known.map (·.1)).find? (s.addrOf · == addr)

def isUp (s : Servers) (name : String) : Bool := s.known.contains (name, true)

/-- Starts or stops a server. A name that is new gets the next address. -/
def set (s : Servers) (name : String) (up : Bool) : Servers :=
  if (s.place? name).isSome then
    { s with known := s.known.map fun p => if p.1 == name then (name, up) else p }
  else { s with known := s.known ++ [(name, up)] }

/-- Servers that run, and behind them servers that do not. -/
def ofNames (up down : List String) : Servers :=
  down.foldl (·.set · false) (up.foldl (·.set · true) {})

end Servers
end Muster.Simulation

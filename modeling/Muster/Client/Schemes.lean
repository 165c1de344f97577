/-
The schemes that can be dialed, each with what resolves and balances its targets.
-/
import Muster.Fault

namespace Muster.Client

/-- Entries in the order of their schemes, each scheme once. -/
structure Schemes (α : Type) where
  entries : List (String × α) := []
deriving Repr

namespace Schemes

variable {α : Type}

def insert (scheme : String) (a : α) : List (String × α) → List (String × α)
  | [] => [(scheme, a)]
  | (s, b) :: rest =>
    if scheme < s then (scheme, a) :: (s, b) :: rest
    else if scheme = s then (scheme, a) :: rest
    else (s, b) :: insert scheme a rest

/-- Binds a scheme; a binding of the same scheme is replaced. -/
def register (s : Schemes α) (scheme : String) (a : α) : Schemes α :=
  ⟨insert scheme a s.entries⟩

def get (s : Schemes α) (scheme : String) : Except Fault α :=
  match s.entries.lookup scheme with
  | some a => .ok a
  | none => .error (.unknownScheme scheme)

def contains (s : Schemes α) (scheme : String) : Bool := s.entries.any (·.1 == scheme)

def names (s : Schemes α) : List String := s.entries.map (·.1)

end Schemes
end Muster.Client

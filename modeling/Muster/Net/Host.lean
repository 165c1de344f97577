/-
The hosts that addresses of peers name: by an address of either version, which may be written
loosely, or by the one name that every host has for itself. Nobody is there to ask for others.
-/
import Muster.Net.Ip
import Muster.Net.Loose

namespace Muster.Net

/-- Why a host has no address. -/
inductive HostFault where
  /-- No name is written so. -/
  | unknown
  /-- Nobody answers what the name stands for. -/
  | unanswered
deriving DecidableEq, Repr

def HostFault.message : HostFault → String
  | unknown => "failed to lookup address information: Name or service not known"
  | unanswered => "failed to lookup address information: Temporary failure in name resolution"

/-- An address, and the number of the zone it is meant in; zero if none is named. -/
structure Place where
  ip : Ip
  zone : Nat := 0
deriving DecidableEq, Repr

/-- The address by which a host reaches itself. -/
def itself : Place := { ip := .v4 2130706433 }

/-- The characters of names. -/
def isNameChar (c : Char) : Bool := c.isAlphanum || c == '-' || c == '_' || c == '\\'

/-- Whether a text is written as names are: labels of one to sixty-three characters between full
stops. A full stop at the end does not count, and a hyphen does not come first. -/
def isName (cs : List Char) : Bool :=
  let labels := cs.splitOn '.'
  let labels := if labels.getLast? = some [] then labels.dropLast else labels
  cs = ['.'] || (cs.length ≤ 253 && cs.head? ≠ some '-' && !labels.isEmpty
    && labels.all fun l => !l.isEmpty && l.length ≤ 63 && l.all isNameChar)

/-- The number of a zone, a number of 32 bits. -/
def readZone (cs : List Char) : Option Nat :=
  match Digits.read? cs with
  | some n => if n < 4294967296 then some n else none
  | none => none

/-- An address of version 6; behind a percent sign, a zone. -/
def readZoned (zone : List Char → Option Nat) (cs : List Char) : Option Place :=
  match Ip.parse? (String.ofList (cs.takeWhile (· ≠ '%'))), cs.dropWhile (· ≠ '%') with
  | some (.v6 bits), [] => some { ip := .v6 bits }
  | some (.v6 bits), _ :: z => (zone z).map fun n => { ip := .v6 bits, zone := n }
  | _, _ => none

/-- A zone by its number, or the one that lies within the host. -/
def zoneNamed (cs : List Char) : Option Nat := if cs = ['l', 'o'] then some 1 else readZone cs

/-- The address of a host. -/
def resolveHost (cs : List Char) : Except HostFault Place :=
  match Loose.read? cs with
  | some n => .ok { ip := .v4 (.ofNat 32 n) }
  | none =>
    match readZoned zoneNamed cs with
    | some p => .ok p
    | none =>
      let name := String.ofList (cs.map Char.toLower)
      if name = "localhost" ∨ name = "*" then .ok itself
      else .error (if isName cs then .unanswered else .unknown)

end Muster.Net

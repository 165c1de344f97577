/-
The address of a peer as text: a host, a colon, and a port. The last colon counts, so that the host
may hold colons itself.
-/
import Muster.Fault
import Muster.Net.Host

namespace Muster.Net

/-- Why a text is no address. -/
inductive AddressFault where
  /-- There is no colon. -/
  | shape
  /-- What follows the last colon is not a number of sixteen bits. -/
  | port
  /-- The host holds the character with code zero, which no name can. -/
  | nul
  | host (e : HostFault)
deriving DecidableEq, Repr

def AddressFault.message : AddressFault → String
  | shape => "invalid socket address"
  | port => "invalid port value"
  | nul => "file name contained an unexpected NUL byte"
  | host e => e.message

/-- What stands before and behind the last colon. -/
def splitAtLastColon (cs : List Char) : Option (List Char × List Char) :=
  match cs.reverse.dropWhile (· != ':') with
  | [] => none
  | _ :: host => some (host.reverse, (cs.reverse.takeWhile (· != ':')).reverse)

/-- A port in decimal digits, which a plus sign may precede. -/
def readPort (cs : List Char) : Option Nat :=
  let digits := match cs with
    | '+' :: cs => cs
    | cs => cs
  match Digits.read? digits with
  | some n => if n < 65536 then some n else none
  | none => none

/-- The host of an address whose port is written in digits alone: an address of version 6 stands
between brackets. -/
def readBracketed : List Char → Option Place
  | '[' :: cs => if cs.getLast? = some ']' then readZoned readZone cs.dropLast else none
  | _ => none

/-- Reads an address as host and port. -/
def readAddress (addr : String) : Except AddressFault (Place × Nat) :=
  match splitAtLastColon addr.toList with
  | none => .error .shape
  | some (host, port) =>
    match readPort port with
    | none => .error .port
    | some n =>
      match if port.head? = some '+' then none else readBracketed host with
      | some p => .ok (p, n)
      | none =>
        if host.contains '\x00' then .error .nul
        else
          match resolveHost host with
          | .ok p => .ok (p, n)
          | .error e => .error (.host e)

/-! ## Faults -/

/-- The address cannot be read. -/
def invalidAddress (addr : String) (e : AddressFault) : Fault :=
  .connection ("Invalid address '" ++ addr ++ "': " ++ e.message)

/-- Nobody at the address takes the connection. -/
def connectFailed (addr cause : String) : Fault :=
  .connection ("Failed to connect to " ++ addr ++ ": " ++ cause)

/-- Nobody can be served at the address. -/
def bindFailed (addr cause : String) : Fault :=
  .connection ("Failed to bind to " ++ addr ++ ": " ++ cause)

/-- What is said of an address that is not one of the host's own. -/
def notOwn : String := "Cannot assign requested address (os error 99)"

/-- What is said of an address that needs a zone and has none. -/
def noZone : String := "Invalid argument (os error 22)"

/-- Why nobody can be served at a place, on a host that has no address of version 6. -/
def bindFault? (p : Place) : Option String :=
  match p.ip with
  | .v4 _ => none
  | .v6 bits =>
    if bits.toNat = 0 || Ip.isMapped bits then none
    else if p.zone = 0 && (Ip.isLinkLocal bits || Ip.isMulticast bits) then some noZone
    else some notOwn

/-- The port at which a server is bound; for port zero the host draws one. -/
def bind (addr : String) (drawn : Nat) : Except Fault Nat :=
  match readAddress addr with
  | .error e => .error (bindFailed addr e.message)
  | .ok (p, port) =>
    match bindFault? p with
    | some cause => .error (bindFailed addr cause)
    | none => .ok (if port = 0 then drawn else port)

end Muster.Net

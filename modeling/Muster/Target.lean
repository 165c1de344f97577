/-
Dial targets: `scheme://authority/endpoint`.
-/
import Muster.Fault
import Muster.Store.Path

namespace Muster

structure Target where
  scheme : String
  authority : String := ""
  endpoint : String
deriving DecidableEq, Repr

namespace Target

/-- The target of a service under a scheme, without authority. -/
def ofService (scheme service : String) : Target := { scheme, endpoint := service }

/-- The service that the target names. -/
def service (t : Target) : String := t.endpoint

def toText (t : Target) : String := t.scheme ++ "://" ++ t.authority ++ "/" ++ t.endpoint

/-- Splits a text at the first place where `mark` stands. -/
def splitAtFirst (mark : List Char) : List Char → Option (List Char × List Char)
  | [] => if mark = [] then some ([], []) else none
  | c :: cs =>
    match Path.afterStart mark (c :: cs) with
    | some rest => some ([], rest)
    | none => (splitAtFirst mark cs).map fun (a, b) => (c :: a, b)

/-- A scheme is made of ASCII letters, digits and `+`, `-`, `.`. -/
def isSchemeChar (c : Char) : Bool := c.isAlphanum || c == '+' || c == '-' || c == '.'

def isScheme (cs : List Char) : Bool := !cs.isEmpty && cs.all isSchemeChar

/-- The authority ends at the first slash; all behind it is the endpoint, which is not empty. -/
def parse (raw : String) : Except Fault Target :=
  let invalid := fun why => Except.error (.invalidTarget ("'" ++ raw ++ "': " ++ why))
  match splitAtFirst [':', '/', '/'] raw.toList with
  | none => invalid "missing '://'"
  | some (scheme, rest) =>
    if !isScheme scheme then invalid "invalid scheme"
    else
      match splitAtFirst ['/'] rest with
      | none => invalid "missing endpoint"
      | some (_, []) => invalid "empty endpoint"
      | some (authority, endpoint) =>
        .ok { scheme := String.ofList scheme, authority := String.ofList authority,
              endpoint := String.ofList endpoint }

end Target
end Muster

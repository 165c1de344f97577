/-
Where the registry's keys are kept remotely: a list of endpoints, tried in order.
-/
import Muster.Fault
import Muster.Store.Path
import Muster.Text.Blank

namespace Muster.Etcd

def defaultEndpoint : String := "http://127.0.0.1:2379"

def defaultTimeout : Nat := 10000

/-- The environment variable that may hold the endpoints. -/
def endpointsVariable : String := "CORRAL_REGISTRY_URLS"

structure Config where
  endpoints : List String := [defaultEndpoint]
  /-- The time one request may take, in milliseconds. -/
  requestTimeout : Nat := defaultTimeout
deriving DecidableEq, Repr

/-- A text without the slashes at its end. -/
def withoutTrailingSlashes (s : String) : String :=
  String.ofList (Path.withoutTrailingSlashes s.toList)

/-- The pieces of a text between commas. -/
def splitCommas : List Char → List (List Char)
  | [] => [[]]
  | c :: cs =>
    if c = ',' then [] :: splitCommas cs
    else
      match splitCommas cs with
      | s :: ss => (c :: s) :: ss
      | [] => [[c]]

namespace Config

/-- Endpoints separated by commas; blank ones are left out. -/
def parse (urls : String) : Config :=
  let trimmed := (splitCommas urls.toList).map fun u => trimBlanks (String.ofList u)
  { endpoints := (trimmed.filter (· ≠ "")).map withoutTrailingSlashes }

/-- The endpoints that the environment names, or the default one. -/
def ofVariable (value : Option String) : Config :=
  match value with
  | some urls => if trimBlanks urls ≠ "" then parse urls else {}
  | none => {}

def hasWebScheme (url : String) : Bool :=
  url.startsWith "http://" || url.startsWith "https://"

def validate (c : Config) : Except String Unit :=
  if c.endpoints = [] then .error "at least one registry endpoint is required"
  else
    match c.endpoints.find? (!hasWebScheme ·) with
    | some bad =>
      .error ("registry endpoint '" ++ bad ++ "' must start with http:// or https://")
    | none =>
      if c.requestTimeout = 0 then .error "request_timeout must be greater than 0" else .ok ()

/-- The settings a client works with. -/
def accept (c : Config) : Except Fault Config :=
  match c.validate with
  | .ok () => .ok c
  | .error e => .error (.invalidConfig e)

end Config
end Muster.Etcd

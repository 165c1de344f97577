/-
The registry's keys kept remotely, at endpoints that stand in for each other. A request goes to one
endpoint after another until one answers; one that fails in the middle may have done what was asked
all the same, and a create that runs into a key on the next endpoint looks whether it is its own.
-/
import Muster.Etcd.Answer
import Muster.Etcd.Config
import Muster.Registry.Service

namespace Muster.Etcd

open Http (Transport Url)

/-- The address of a key at an endpoint. -/
def keyUrl (endpoint key : String) : String :=
  withoutTrailingSlashes endpoint ++ "/v2/keys/"
    ++ String.ofList (key.toList.dropWhile (· == '/'))

/-- What is to be asked of an endpoint about a key. -/
structure Ask where
  method : Http.Method := .get
  key : String
  query : List (String × String) := []
  body : String := ""
deriving DecidableEq, Repr

/-- A value to be written under a free key. -/
def Ask.create (key value : String) : Ask :=
  { method := .put, key, query := [("prevExist", "false")], body := Http.form [("value", value)] }

/-- What a key holds. -/
def Ask.get (key : String) : Ask := { key }

/-- The request that asks it of an endpoint; nothing when that has no web address. -/
def Ask.request (a : Ask) (endpoint : String) : Option Http.Request :=
  (Url.parse (keyUrl endpoint a.key)).map fun url =>
    { method := a.method, body := a.body
      url := if a.query.isEmpty then url else url.addQuery a.query }

variable {ω : Type} (http : Transport ω)

/-! ## Endpoints -/

/-- The response of the endpoint that answered, and whether one before it may have done what was
asked. -/
structure Sent where
  response : Http.Response
  maybeApplied : Bool
deriving DecidableEq, Repr

/-- Asks one endpoint. -/
def askEndpoint (a : Ask) (within : Option Nat) (endpoint : String) (w : ω) :
    Except Http.Failure Http.Response × ω :=
  match a.request endpoint with
  | none => (.error (.unreachable Http.badUrl), w)
  | some r =>
    if r.url.isSendable then http r within w
    else (.error (.unreachable (Http.unsendable r.url)), w)

/-- What is said of an endpoint that sent no response. -/
def silence (endpoint : String) : Http.Failure → String
  | .timedOut => endpoint ++ " timed out"
  | .unreachable cause => endpoint ++ ": " ++ cause

/-- Asks endpoints in order. One that has no time left, or reports a fault of its own, may have
done what was asked. `last` is what is said of the latest endpoint. -/
def askInOrder (a : Ask) (within : Option Nat) :
    (endpoints : List String) → (last : String) → (maybeApplied : Bool) → ω →
      Except Fault Sent × ω
  | [], last, _, w => (.error (.transient last), w)
  | e :: es, _, maybeApplied, w =>
    match askEndpoint http a within e w with
    | (.ok response, w) =>
      if response.isServerFault then
        askInOrder a within es (e ++ " returned " ++ Http.statusText response.status) true w
      else (.ok ⟨response, maybeApplied⟩, w)
    | (.error failure, w) =>
      askInOrder a within es (silence e failure) (maybeApplied || failure == .timedOut) w

/-- Asks the endpoints of the settings. -/
def send (c : Config) (a : Ask) (within : Option Nat) (w : ω) : Except Fault Sent × ω :=
  askInOrder http a within c.endpoints "no endpoints configured" false w

/-- Asks and reads the answer, which must be there. -/
def request (c : Config) (a : Ask) (w : ω) : Except Fault Answer × ω :=
  match send http c a (some c.requestTimeout) w with
  | (.error f, w) => (.error f, w)
  | (.ok sent, w) =>
    match readResponse sent.response a.key with
    | .error f => (.error f, w)
    | .ok none => (.error (.invalidResponse "empty registry response"), w)
    | .ok (some answer) => (.ok answer, w)

/-! ## Operations -/

/-- The entry of a key. A directory has none. -/
def get (c : Config) (key : String) (w : ω) : Except Fault Entry × ω :=
  match request http c (.get key) w with
  | (.error f, w) => (.error f, w)
  | (.ok answer, w) =>
    match answer.node.bind (·.asEntry) with
    | some e => (.ok e, w)
    | none => (.error (.notFound key), w)

/-- Looks whether a key that is taken holds the value that was to be written: then it has been. -/
def readBack (c : Config) (key value : String) (w : ω) : Except Fault Unit × ω :=
  match get http c key w with
  | (.error f, w) => (.error f, w)
  | (.ok existing, w) => (if existing.value = value then .ok () else .error (.conflict key), w)

/-- Writes a value under a free key. A key that is taken after an endpoint may have done so is
read back. -/
def create (c : Config) (key value : String) (w : ω) : Except Fault Unit × ω :=
  match send http c (.create key value) (some c.requestTimeout) w with
  | (.error f, w) => (.error f, w)
  | (.ok sent, w) =>
    match readResponse sent.response key with
    | .ok _ => (.ok (), w)
    | .error (.conflict taken) =>
      if sent.maybeApplied then readBack http c key value w else (.error (.conflict taken), w)
    | .error f => (.error f, w)

def delete (c : Config) (key : String) (w : ω) : Except Fault Unit × ω :=
  match request http c { method := .delete, key } w with
  | (.error f, w) => (.error f, w)
  | (.ok _, w) => (.ok (), w)

/-- The entries below a directory. -/
def list (c : Config) (dir : String) (w : ω) : Except Fault (List Entry) × ω :=
  match request http c { key := dir, query := [("recursive", "true"), ("sorted", "true")] } w with
  | (.error f, w) => (.error f, w)
  | (.ok answer, w) => (.ok answer.entries, w)

/-- The keys at the endpoints of the settings. -/
def backend (c : Config) : Registry.Backend ω where
  create := create http c
  get := get http c
  delete := delete http c
  list := list http c

/-! ## Watching -/

/-- One long poll for an event below a directory, from an index on; nothing when the endpoint let
it end without one. -/
def pollOnce (c : Config) (dir : String) (start : Option Nat) (w : ω) :
    Except Fault (Option Event) × ω :=
  let index := match start with
    | some n => [("waitIndex", Digits.text n)]
    | none => []
  let ask : Ask := { key := dir, query := [("wait", "true"), ("recursive", "true")] ++ index }
  match send http c ask none w with
  | (.error f, w) => (.error f, w)
  | (.ok sent, w) => ((readResponse sent.response dir).map (·.map Answer.event), w)

/-- Polls until there is an event or a fault, `polls` times at most. -/
def watch (c : Config) (dir : String) (start : Option Nat) :
    (polls : Nat) → ω → Option (Except Fault Event) × ω
  | 0, w => (none, w)
  | polls + 1, w =>
    match pollOnce http c dir start w with
    | (.error f, w) => (some (.error f), w)
    | (.ok (some e), w) => (some (.ok e), w)
    | (.ok none, w) => watch c dir start polls w

end Muster.Etcd

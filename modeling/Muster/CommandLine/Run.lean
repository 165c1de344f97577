/-
What the commands do, and what is said about it.
-/
import Muster.Client.Context
import Muster.CommandLine.Options
import Muster.Etcd.Config
import Muster.Json.Pretty
import Muster.Registry.Command
import Muster.Registry.Serving

namespace Muster.CommandLine

/-- Why a command did not do what it was asked: what happened, and what was behind it. -/
structure Failure where
  message : String
  cause : Option String := none
  /-- The command broke off in the middle. -/
  broken : Bool := false
deriving DecidableEq, Repr

namespace Failure

/-- A fault as the end of a command. Faults that stand for another one name it once more. -/
def ofFault (f : Fault) : Failure where
  message := f.message
  cause := match f with
    | .json e => some e.message
    | .io cause => some cause
    | _ => none

/-- A text whose further lines are set in by four spaces. -/
def indented (s : String) : String :=
  String.ofList (s.toList.flatMap fun c => if c = '\n' then '\n' :: List.replicate 4 ' ' else [c])

def text (f : Failure) : String :=
  (if f.broken then "" else "Error: ") ++ f.message ++ match f.cause with
    | some cause => "\n\nCaused by:\n    " ++ indented cause
    | none => ""

/-- A command whose admission control has no room for its settings. -/
def noRoom : Failure := { message := "no room for so many requests", broken := true }

def exitCode (f : Failure) : Nat := if f.broken then 101 else 1

end Failure

/-- What a command leaves behind. -/
structure Outcome where
  exitCode : Nat := 0
  out : String := ""
  err : String := ""
deriving DecidableEq, Repr

def Outcome.ofResult : Except Failure String → Outcome
  | .ok out => { out }
  | .error f => { exitCode := f.exitCode, err := f.text ++ "\n" }

/-- What is drawn and read from outside in one run. -/
structure Chance where
  /-- The port of an instance that registers without one. -/
  instancePort : Nat
  /-- The port of a server that binds without one. -/
  boundPort : Nat
  requestId : Nat
  now : String

/-- The settings of the registry: named on the command line, else in the environment. -/
def registrySettings (o : Options) (environment : Option String) : Except Failure Etcd.Config :=
  let config : Etcd.Config := match o.registry with
    | some urls => .parse urls
    | none => .ofVariable environment
  match config.accept with
  | .ok config => .ok config
  | .error f => .error { message := "invalid registry configuration", cause := some f.message }

variable {ω ς σ : Type} (env : Client.Surroundings ω ς σ)

/-- A service in the cluster that was asked for. -/
def Options.service (o : Options) (name : String) : Registry.Service :=
  { name, cluster := o.cluster.getD Registry.defaultCluster }

/-- A result with the fault as the end of the command. -/
def ending {α : Type} (r : Except Fault α × σ) : Except Failure α × σ :=
  (match r.1 with
    | .ok a => .ok a
    | .error f => .error (.ofFault f), r.2)

/-- Records by name, for readers. -/
def recordsText (rs : List (String × Registry.Record)) : String :=
  (Json.Value.object (rs.map fun (name, r) => (name, r.toJson))).pretty ++ "\n"

/-- Calls a service over a channel that is closed afterwards. -/
def call (o : Options) (service method args : String) (timeoutMs : Option Nat) (chance : Chance)
    (w : ω × σ) : Except Failure String × (ω × σ) :=
  match Json.parse args with
  | .error e => (.error { message := "Invalid JSON in args: " ++ e.message }, w)
  | .ok args =>
    match Client.Context.ofConfig {} 0 with
    | .error f => (.error (.ofFault f), w)
    | .ok (c : Client.Context ς) =>
      let c := { c with cluster := o.cluster.getD Registry.defaultCluster }
      match c.connect env service w with
      | (.error f, _, w) => (.error (.ofFault f), w)
      | (.ok i, c, w) =>
        let (r, _, w) := c.invoke env i { id := chance.requestId, method, args, timeoutMs } w
        ending (r.map fun v => v.render ++ "\n", w)

/-- Serves until it is told to stop; `during` is what happens to the registry meanwhile. -/
def serve (o : Options) (s : ServeOptions) (chance : Chance) (during : σ → σ) (w : σ) :
    Except Failure String × σ :=
  let gate := (Admission.Config.hardCap s.maxConcurrent).withQueue s.maxWaitNum s.maxWait
  match gate.accept true with
  | .error f => (.error (.ofFault f), w)
  | .ok gate =>
    if !gate.isBuildable then (.error .noRoom, w)
    else match Net.bind s.bind chance.boundPort with
      | .error f => (.error (.ofFault f), w)
      | .ok port =>
        let (r, w) := Registry.serving env.registry (o.service s.service) s.advertised port
          chance.instancePort s.version chance.now during w
        ending (r.map fun _ => "", w)

/-- Does what is asked; the text to print, or why it was not done. -/
def act (o : Options) (chance : Chance) (w : ω × σ) : Except Failure String × (ω × σ) :=
  let onRegistry := fun (f : σ → Except Failure String × σ) =>
    let (r, s) := f w.2
    (r, w.1, s)
  match o.action with
  | .register service ip port kind version => onRegistry fun s =>
    let (r, s) := Registry.register env.registry (o.service service) ip port chance.instancePort
      kind version chance.now s
    ending (r.map fun r => r.sequence ++ "\n", s)
  | .deregister service sequence => onRegistry fun s =>
    let (r, s) := Registry.deregister env.registry (o.service service) sequence s
    ending (r.map fun () => "", s)
  | .list none => onRegistry fun s =>
    let (r, s) := Registry.listAll env.registry s
    ending (r.map recordsText, s)
  | .list (some service) => onRegistry fun s =>
    let (r, s) := Registry.listService env.registry (o.service service) s
    ending (r.map recordsText, s)
  | .resolve service => onRegistry fun s =>
    let (r, s) := Resolver.resolve env.registry (o.service service) 3 s
    ending (r.map fun set => String.join (set.addrs.map (· ++ "\n")), s)
  | .call service method args timeoutMs => call env o service method args timeoutMs chance w
  | .serve s => onRegistry (serve env o s chance id)

/-- Runs a command line. `surroundings` tells what a registry with given settings lives among. -/
def run (args : List String) (environment : Option String) (chance : Chance)
    (surroundings : Etcd.Config → Client.Surroundings ω ς σ) (w : ω × σ) : Outcome × (ω × σ) :=
  match read args with
  | .help => ({ out := usage ++ "\n" }, w)
  | .misuse => ({ exitCode := 1, err := usage ++ "\n" }, w)
  | .run o =>
    match registrySettings o environment with
    | .error f => (.ofResult (.error f), w)
    | .ok config =>
      let (r, w) := act (surroundings config) o chance w
      (.ofResult r, w)

end Muster.CommandLine

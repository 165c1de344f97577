/-
The application context, which is what a process shares among its calls: the shutdown signal, the schemes
that can be dialed, and the connection cache. Services are looked up in the registry.
-/
import Muster.Channel.Dial
import Muster.Channel.Sink
import Muster.Client.Cache
import Muster.Client.Config
import Muster.Client.Schemes
import Muster.Resolver.Resolve

namespace Muster.Client

/-- The shared state. A scheme is bound to the offset at which the rotations of its channels
start. -/
structure Context (ς : Type) where
  config : Config := {}
  schemes : Schemes Nat := {}
  /-- The cluster that services are looked up in. -/
  cluster : String := Registry.defaultCluster
  desk : Desk ς := {}
  shut : Bool := false
deriving Repr

/-- Peers and a registry to look them up in: `ω` is the state of the peers, `σ` that of the
registry. -/
structure Surroundings (ω ς σ : Type) where
  network : Network ω ς
  registry : Registry.Backend σ

namespace Context

variable {ω ς σ : Type}

/-- A context whose schemes are those given, if its settings are valid. -/
def ofSchemes (config : Config) (schemes : Schemes Nat) : Except Fault (Context ς) :=
  match config.validate with
  | .error e => .error (.invalidConfig e)
  | .ok () => .ok { config, schemes }

/-- A context that dials the scheme of its settings. -/
def ofConfig (config : Config) (offset : Nat) : Except Fault (Context ς) :=
  ofSchemes config (({} : Schemes Nat).register config.scheme offset)

variable (env : Surroundings ω ς σ)

/-- Gives a channel what a resolution of its service ends with. -/
def resolveFor (c : Context ς) (channel : Channel ς) (w : ω × σ) : Channel ς × (ω × σ) :=
  let svc : Registry.Service := { name := channel.target.service, cluster := c.cluster }
  let (result, s) := Resolver.resolve env.registry svc c.config.resolver.maxAttempts w.2
  let (channel, v) := channel.hear env.network (.ofResult result) w.1
  (channel, v, s)

/-- Dials a target with a channel of its own. -/
def dialTarget (c : Context ς) (target : Target) (w : ω × σ) :
    Except Fault (Channel ς) × (ω × σ) :=
  match c.schemes.get target.scheme with
  | .error f => (.error f, w)
  | .ok offset =>
    match c.config.dial.mayDial c.shut with
    | .error f => (.error f, w)
    | .ok () =>
      let (channel, w) := c.resolveFor env { target, options := c.config.dial, offset } w
      ((channel.dialed none).map fun () => channel, w)

/-- Dials the target that a text names. The channel is not cached; its number is answered. -/
def dial (c : Context ς) (text : String) (w : ω × σ) : Except Fault Nat × Context ς × (ω × σ) :=
  match Target.parse text with
  | .error f => (.error f, c, w)
  | .ok target =>
    match c.dialTarget env target w with
    | (.error f, w) => (.error f, c, w)
    | (.ok channel, w) =>
      (.ok c.desk.channels.length,
        { c with desk := { c.desk with channels := c.desk.channels ++ [channel] } }, w)

/-- The shared channel of a service, dialed when there is no usable one; its number. -/
def connect (c : Context ς) (name : String) (w : ω × σ) :
    Except Fault Nat × Context ς × (ω × σ) :=
  let id := c.desk.callers.length
  let desk := (c.desk.enter id name).advance id 8
  let c := { c with desk }
  match desk.result? id with
  | some r => (r, c, w)
  | none =>
    let (r, w) := c.dialTarget env (c.config.targetOf name) w
    let desk := desk.dialed id name r
    ((desk.result? id).getD (.error .shutdown), { c with desk }, w)

/-- Lets a channel hear of changes in the registry, as its resolver does. Neither a closed channel
nor one whose process shuts down hears anything. -/
def refresh (c : Context ς) (i : Nat) (w : ω × σ) : Context ς × (ω × σ) :=
  match c.desk.channel? i with
  | none => (c, w)
  | some channel =>
    if c.shut ∨ channel.closed then (c, w)
    else
      let (channel, w) := c.resolveFor env channel w
      ({ c with desk := { c.desk with channels := c.desk.channels.set i channel } }, w)

/-- Lets every channel hear of changes in the registry. -/
def refreshAll (c : Context ς) (w : ω × σ) : Context ς × (ω × σ) :=
  (List.range c.desk.channels.length).foldl (fun (c, w) i => c.refresh env i w) (c, w)

/-- Calls over a channel. -/
def invoke (c : Context ς) (i : Nat) (r : Wire.Request) (w : ω × σ) :
    Except Fault Json.Value × Context ς × (ω × σ) :=
  match c.desk.channel? i with
  | none => (.error .shutdown, c, w)
  | some channel =>
    let (answer, channel, v) := channel.invoke env.network r w.1
    (answer, { c with desk := { c.desk with channels := c.desk.channels.set i channel } }, v, w.2)

/-- The process signal fires. -/
def trigger (c : Context ς) : Context ς := { c with shut := true }

/-- Fires the signal and closes every cached channel. -/
def close (c : Context ς) : Context ς := { c with desk := c.desk.closeAll, shut := true }

end Context
end Muster.Client

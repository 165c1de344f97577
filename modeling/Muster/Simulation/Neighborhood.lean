/-
A client process on a host without a network: its registry is at hand, and its peers are named
servers that nobody reaches. Some of them register themselves and serve behind a gate.
-/
import Muster.Admission.Gate
import Muster.Client.Context
import Muster.Registry.Serving
import Muster.Simulation.Servers
import Muster.Store.Basic

namespace Muster.Simulation.Neighborhood

open Muster.Client (Context Surroundings)
open Registry (Service Registration)

/-- One who serves an instance. -/
structure Stall where
  service : Service
  registered : Except Fault Registration
  gate : Admission.Gate
  /-- Tickets taken by hand. -/
  held : Nat := 0
  shut : Bool := false

/-- A channel as it is shown: the first label of the same channel, if it was known before. -/
structure Shown where
  sameAs : Option String
  channel : Channel Empty

structure Scene where
  context : Context Empty
  servers : Servers := {}
  store : Store := .empty Store.defaultCapacity
  /-- The addresses of those who serve. -/
  served : Servers := { first := 100 }
  stalls : List (String × Stall) := []
  /-- Channels under the labels they were kept by. -/
  labels : List (String × Nat) := []
  /-- Gates that close with the process. -/
  gates : List Admission.Gate := []

namespace Scene

def surroundings : Surroundings Unit Empty Store :=
  { network := .none, registry := Registry.memory }

/-- Runs an operation of the context. -/
def onContext {α : Type} (s : Scene)
    (f : Context Empty → Unit × Store → α × Context Empty × (Unit × Store)) : α × Scene :=
  let (a, context, _, store) := f s.context ((), s.store)
  (a, { s with context, store })

/-- The time written into records. -/
def date : String := "1970-01-01T00:00:00+00:00"

/-- The address of a named server, running or serving. -/
def ip? (s : Scene) (name : String) : Option Ip :=
  ((s.servers.ip? name).orElse fun _ => s.served.ip? name).bind Ip.parse?

def portNumber : Nat := (Servers.port.toNat?).getD 0

/-- Registers a named server. -/
def register (s : Scene) (svc : Service) (name version : String) :
    Option (Except Fault Unit) × Scene :=
  match s.ip? name with
  | none => (none, s)
  | some ip =>
    let (r, store) := Registry.register Registry.memory svc ip portNumber 0 .rpc version date s.store
    (some (r.map fun _ => ()), { s with store })

/-- Removes the record of a named server. -/
def unregister (s : Scene) (svc : Service) (name : String) : Option (Except Fault Unit) × Scene :=
  match s.ip? name with
  | none => (none, s)
  | some ip =>
    let (r, store) := Registry.deregister Registry.memory svc
      (Registry.sequenceFor ip portNumber) s.store
    (some r, { s with store })

/-! ## Channels -/

/-- Keeps a channel under a label. -/
def keep (label : String) : Except Fault Nat × Scene → Except Fault Shown × Scene
  | (.error f, s) => (.error f, s)
  | (.ok i, s) =>
    match s.context.desk.channel? i with
    | none => (.error .shutdown, s)
    | some channel =>
      let same := ((s.labels.filter (·.2 == i)).map (·.1)).mergeSort (· ≤ ·)
      (.ok { sameAs := same.head?, channel },
        { s with labels := (label, i) :: s.labels.filter (·.1 != label) })

def connect (s : Scene) (service label : String) : Except Fault Shown × Scene :=
  keep label (s.onContext fun c w => c.connect surroundings service w)

def dial (s : Scene) (target label : String) : Except Fault Shown × Scene :=
  keep label (s.onContext fun c w => c.dial surroundings target w)

/-- The channel that a label stands for. -/
def labelled? (s : Scene) (label : String) : Option (Nat × Channel Empty) :=
  (s.labels.lookup label).bind fun i => (s.context.desk.channel? i).map fun c => (i, c)

/-- Works on the channel of a label. -/
def onChannel {α : Type} (s : Scene) (label : String) (f : Channel Empty → α × Channel Empty) :
    Option α × Scene :=
  match s.labelled? label with
  | none => (none, s)
  | some (i, c) =>
    let (a, c) := f c
    let desk := s.context.desk
    (some a, { s with
      context := { s.context with desk := { desk with channels := desk.channels.set i c } } })

/-- Waits until the channels have heard of what has changed, and shows the one of a label. -/
def settle (s : Scene) (label : String) : Option (Channel Empty) × Scene :=
  match s.labelled? label with
  | none => (none, s)
  | some _ =>
    let (_, s) := s.onContext fun c w => ((), c.refreshAll surroundings w)
    ((s.labelled? label).map (·.2), s)

def forget (s : Scene) (service : String) : Bool × Scene :=
  let (b, desk) := s.context.desk.remove service
  (b, { s with context := { s.context with desk } })

/-! ## Serving -/

/-- A ticket of each gate that closes with the process, put back at once: whether it counts. -/
def tryGates (s : Scene) : List (Except Fault Admission.Gate.Ticket) :=
  s.gates.map fun g => (g.tryAcquire s.context.shut).1

/-- Begins to serve under a name, at the next address. `taken` is the version of an instance that
stands at the same address before. -/
def serve (s : Scene) (svc : Service) (name version : String) (taken : Option String)
    (gate : Admission.Gate) : Scene :=
  let s := { s with served := s.served.set name true }
  match s.ip? name with
  | none => s
  | some ip =>
    let store := match taken with
      | some v => (Registry.register Registry.memory svc ip portNumber 0 .http v date s.store).2
      | none => s.store
    let (registered, store) :=
      Registry.beginServing Registry.memory svc ip portNumber 0 version date store
    { s with store, stalls := (name, { service := svc, registered, gate })
        :: s.stalls.filter (·.1 != name) }

/-- Works on one who serves. -/
def onStall {α : Type} (s : Scene) (name : String) (f : Stall → α × Stall) : Option α × Scene :=
  match s.stalls.lookup name with
  | none => (none, s)
  | some stall =>
    let (a, stall) := f stall
    (some a, { s with stalls := s.stalls.map fun p => if p.1 == name then (name, stall) else p })

/-- Takes a ticket by hand; the tickets left. -/
def hold (s : Scene) (name : String) : Option (Except Fault Nat) × Scene :=
  s.onStall name fun stall =>
    match stall.gate.tryAcquire stall.shut with
    | (.error f, _) => (.error f, stall)
    | (.ok .limited, gate) => (.ok gate.free, { stall with gate, held := stall.held + 1 })
    | (.ok .unlimited, gate) => (.ok gate.free, stall)

/-- Puts a ticket back; the tickets left. -/
def release (s : Scene) (name : String) : Option Nat × Scene :=
  s.onStall name fun stall =>
    match stall.held with
    | 0 => (stall.gate.free, stall)
    | n + 1 =>
      let gate := stall.gate.release
      (gate.free, { stall with gate, held := n })

/-- Ends serving under a name: what was registered, and what reading its record ends with
afterwards. -/
def finish (s : Scene) (name : String) :
    Option (Except Fault (Registration × Except Fault Registry.Record)) × Scene :=
  match s.onStall name fun stall => (stall, { stall with shut := true }) with
  | (none, s) => (none, s)
  | (some stall, s) =>
    match stall.registered with
    | .error f => (some (.error f), s)
    | .ok r =>
      let store := Registry.endServing Registry.memory stall.service r s.store
      let (left, store) := Registry.readRecord Registry.memory stall.service r.sequence store
      (some (.ok (r, left)), { s with store })

end Scene
end Muster.Simulation.Neighborhood

/-
A watched service on a virtual clock: the watch loop over a store whose calls may fail, and the one
it wakes, which is a bare listener or the loop of a resolver.
-/
import Muster.Registry.Command
import Muster.Resolver.Office
import Muster.Simulation.Outage
import Muster.Simulation.Timeline

namespace Muster.Simulation.Discovery

open Registry (Service)

inductive Component where
  | watch
  | consumer
deriving DecidableEq, Repr

/-- Who takes the rings of the watch loop. -/
inductive Consumer where
  | nobody
  | listener
  | resolver (loop : Resolver.Loop)
deriving Repr

abbrev Notice := Resolver.Notice

structure Scene where
  service : Service
  world : Unsteady
  watch : Watch.Loop
  consumer : Consumer
  timeline : Timeline Component := { ready := [.watch, .consumer] }
  bell : Bell := {}
  /-- The loops have been told to end. -/
  cancelled : Bool := false
  /-- The process signal has fired. -/
  shut : Bool := false
  listDelay : Nat := 0
  sinkDelay : Nat := 0
  /-- The positions of the polls made. -/
  polls : List (Option Nat) := []
  /-- The times at which the listener was woken. -/
  wakes : List Nat := []
  notices : List (Nat × Notice) := []
  /-- The resolver is still in somebody's hands. -/
  handle : Bool := true
  /-- Somebody has waited for the loops to end. -/
  awaited : Bool := false
deriving Repr

namespace Scene

def now (s : Scene) : Nat := s.timeline.now

def stopping (s : Scene) : Bool := s.cancelled || s.shut

/-- Rings, and wakes the consumer if it listens. -/
def ring (s : Scene) : Scene :=
  let (heard, bell) := s.bell.ring
  let s := { s with bell }
  if heard then { s with timeline := s.timeline.wake .consumer } else s

/-! ## The watch loop -/

def lookout (s : Scene) : Watch.Lookout :=
  { store := s.world.store, loop := s.watch, bell := s.bell, now := s.now }

/-- The watch loop takes a step. A ring that is heard wakes the consumer, and a rest has an end. -/
def act (s : Scene) (step : Watch.Step) : Scene :=
  let (wakes, l) := s.lookout.step step
  let s := { s with watch := l.loop, bell := l.bell }
  let s := if wakes then { s with timeline := s.timeline.wake .consumer } else s
  match l.loop.phase with
  | .resting due => { s with timeline := s.timeline.arm .watch due }
  | _ => s

/-- Runs the watch loop until it waits. A poll brings one event at most, so as many turns suffice
as there are events. -/
def runWatch : (fuel : Nat) → Scene → Scene
  | 0, s => s
  | fuel + 1, s =>
    if s.stopping then
      let s := s.act .stop
      { s with timeline := s.timeline.disarm .watch }
    else
      match s.watch.phase with
      | .ended => s
      | .idle =>
        let (mode, watching) := s.world.watching.next
        let s := { s with polls := s.polls ++ [s.watch.position],
                          world := { s.world with watching } }
        match mode with
        | .up => runWatch fuel (s.act .poll)
        | _ => runWatch fuel (s.act .fail)
      | .polling _ => if s.lookout.isBlocked then s else runWatch fuel (s.act .hear)
      | .resting due => if s.now < due then s else runWatch fuel (s.act .rouse)

/-! ## The consumer -/

/-- Runs the listener: it takes each ring and listens again. -/
def runListener : (fuel : Nat) → Scene → Scene
  | 0, s => s
  | fuel + 1, s =>
    let (heard, bell) := s.bell.listen
    let s := { s with bell }
    if heard then runListener fuel { s with wakes := s.wakes ++ [s.now] } else s

def setLoop (s : Scene) (loop : Resolver.Loop) : Scene := { s with consumer := .resolver loop }

def armConsumer (s : Scene) (due : Nat) : Scene :=
  { s with timeline := s.timeline.arm .consumer due }

/-- Enters a phase that ends at a time. -/
def enter (s : Scene) (loop : Resolver.Loop) : Scene :=
  let s := s.setLoop loop
  match loop.phase with
  | .listing _ due => { s with world := s.world.beginList }.armConsumer due
  | .waiting due | .delivering _ due | .quiet due => s.armConsumer due
  | .ended => { s with timeline := s.timeline.disarm .consumer }

def noteAt (s : Scene) (n : Notice) : Scene := { s with notices := s.notices ++ [(s.now, n)] }

def office (s : Scene) (loop : Resolver.Loop) : Resolver.Office :=
  { service := s.service, lookout := s.lookout, loop }

/-- The resolver's loop takes a step: the scene after it, and whether the loop goes on at once, which
it does in a new phase. -/
def attend (s : Scene) (loop : Resolver.Loop) (step : Resolver.Step) : Bool × Scene :=
  let (notice, o) := (s.office loop).step step
  let s := { s with bell := o.lookout.bell }
  let s := match notice with
    | some n => s.noteAt n
    | none => s
  if o.loop.phase = loop.phase then (false, s) else (true, s.enter o.loop)

/-- What becomes of a list call in a mode. -/
def contact : Mode → Resolver.Contact
  | .up => .reached
  | .offline => .failed offlineFault
  | .broken => .broken

/-- One turn of the resolver's loop. A ring is heard before the time of a refresh is looked at, and
whoever is to end does not wait any longer. -/
def turn (s : Scene) (loop : Resolver.Loop) : Bool × Scene :=
  match loop.phase with
  | .ended => (false, s)
  | .waiting refresh =>
    if s.stopping then s.attend loop .stop
    else
      let (heard, s) := s.attend loop (.listen s.listDelay)
      if heard || s.now < refresh then (heard, s) else s.attend loop (.refresh s.listDelay)
  | .listing _ due =>
    if s.now < due then (if s.stopping then s.attend loop .stop else (false, s))
    else
      let (mode, world) := s.world.endList
      { s with world }.attend loop (.list (contact mode) s.listDelay s.sinkDelay)
  | .delivering .. => s.attend loop .deliver
  | .quiet _ => if s.stopping then s.attend loop .stop else s.attend loop .rest

/-- Runs the resolver's loop until it waits. -/
def runResolver : (fuel : Nat) → Scene → Scene
  | 0, s => s
  | fuel + 1, s =>
    match s.consumer with
    | .resolver loop =>
      let (goesOn, s) := s.turn loop
      if goesOn then runResolver fuel s else s
    | _ => s

/-! ## The whole -/

def runComponent (c : Component) (s : Scene) : Scene :=
  match c with
  | .watch => runWatch (2 * s.world.store.history.length + 4) s
  | .consumer =>
    match s.consumer with
    | .nobody => s
    | .listener => runListener 4 s
    | .resolver _ => runResolver 100000 s

def stage : Stage Scene Component where
  timeline := timeline
  setTimeline t s := { s with timeline := t }
  run := runComponent

/-- A service that is watched; a listener may take the rings. -/
def watching (service : Service) (store : Store) (listens : Bool) : Scene :=
  { service, world := { store }, watch := { dir := service.directory },
    consumer := if listens then .listener else .nobody }

/-- A service that is resolved. The first resolution is due at once. -/
def resolving (service : Service) (store : Store) (config : Resolver.Config) (sinkDelay : Nat) :
    Scene :=
  { service, world := { store }, watch := { dir := service.directory }, sinkDelay,
    consumer := .resolver { config, phase := .waiting config.refreshInterval },
    bell := { stored := true } }

/-- Works on the store; a mutation wakes the watch loop. -/
def onWorld {α : Type} (s : Scene) (f : Unsteady → α × Unsteady) : α × Scene :=
  let (a, world) := f s.world
  let s' := { s with world }
  if world.store.index = s.world.store.index then (a, s')
  else (a, { s' with timeline := s'.timeline.wake .watch })

/-- Wakes both loops, so that they see what has changed for them. -/
def wakeBoth (s : Scene) : Scene :=
  { s with timeline := (s.timeline.wake .watch).wake .consumer }

/-- The process signal fires. -/
def shutdown (s : Scene) : Scene := { s with shut := true }.wakeBoth

/-- Tells the loops to end. -/
def cancel (s : Scene) : Scene := { s with cancelled := true }.wakeBoth

/-- Asks for a resolution. -/
def resolveNow (s : Scene) : Scene := if s.handle then s.ring else s

/-- The resolver is let go, which ends its loops. -/
def drop (s : Scene) : Scene := { s.cancel with handle := false }

/-- Takes a kept ring. -/
def takeRing (s : Scene) : Bool × Scene :=
  let (r, bell) := s.bell.take
  (r, { s with bell })

def watchEnded (s : Scene) : Bool := s.watch.phase == .ended

def consumerEnded (s : Scene) : Bool :=
  match s.consumer with
  | .resolver loop => loop.phase == .ended
  | _ => true

/-- Whether both loops have ended. Who has asked once no longer waits for them. -/
def closed (s : Scene) : Bool × Scene :=
  (s.awaited || (s.watchEnded && s.consumerEnded), { s with awaited := true })

/-- Takes out what has been observed. -/
def clear (s : Scene) : Scene := { s with polls := [], wakes := [], notices := [] }

end Scene
end Muster.Simulation.Discovery

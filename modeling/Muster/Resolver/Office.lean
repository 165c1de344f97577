/-
A resolver at work: the trigger loop that resolves, the registry watch (`Watch.Lookout`) that rings for it,
and the clock and store of that watch. Every way in which a run can go on is one step: the watch goes on,
somebody asks for a resolution, or the trigger loop does what belongs to its phase.
-/
import Muster.Resolver.Loop
import Muster.Resolver.Resolve
import Muster.Watch.Lookout

namespace Muster.Resolver

/-- What a resolver tells its sink. -/
inductive Notice where
  | update (set : AddressSet)
  | report (f : Fault)
deriving Repr

/-- What becomes of a list call: it reaches the store, it fails, or it breaks off without an
answer. -/
inductive Contact where
  | reached
  | failed (f : Fault)
  | broken
deriving DecidableEq, Repr

/-- A resolver: its trigger loop and the registry watch that rings for it. -/
structure Office where
  service : Registry.Service
  lookout : Watch.Lookout
  loop : Loop
deriving Repr

/-- One step of a run. What belongs to a phase of the loop changes nothing in another. -/
inductive Step where
  /-- The lookout goes on, as far as it is not the loop that listens there. -/
  | watch (s : Watch.Step)
  /-- Somebody asks for a resolution. -/
  | ask
  /-- The loop looks for a ring. A listing that begins takes so long. -/
  | listen (delay : Nat)
  /-- The time of a refresh has come. -/
  | refresh (delay : Nat)
  /-- A list call ends. -/
  | list (contact : Contact) (delay sinkDelay : Nat)
  /-- The sink has taken a set. -/
  | deliver
  /-- The quiet period is over. -/
  | rest
  /-- The loop learns that it is to end. The sink is not interrupted for that. -/
  | stop
deriving Repr

/-- A step of those who listen for the rings. -/
def listens : Watch.Step → Bool
  | .listen | .leave | .take => true
  | _ => false

namespace Office

/-- A resolver that is about to begin over an empty store. Its first resolution is due at once. -/
def ofService (capacity : Nat) (service : Registry.Service) (config : Config) : Office :=
  { service
    lookout := { Watch.Lookout.ofDir capacity service.directory with bell := { stored := true } }
    loop := { config, phase := .waiting config.refreshInterval } }

def now (o : Office) : Nat := o.lookout.now

def setBell (o : Office) (bell : Bell) : Office := { o with lookout := { o.lookout with bell } }

/-- The addresses that the records in the store publish. -/
def current (o : Office) : Except Fault AddressSet :=
  (lookup Registry.memory o.service o.lookout.store).1

/-- How a list call ends. -/
def listing (o : Office) : Contact → Listing
  | .reached =>
    match o.current with
    | .ok set => .found set
    | .error f => .fault f
  | .failed f => .fault f
  | .broken => .broken

/-- The office after a step, and what the sink is told by it. -/
def step (o : Office) : Step → Option Notice × Office
  | .watch s => if listens s then (none, o) else (none, { o with lookout := (o.lookout.step s).2 })
  | .ask => (none, o.setBell o.lookout.bell.ring.2)
  | .listen delay =>
    match o.loop.phase with
    | .waiting _ =>
      let (heard, bell) := o.lookout.bell.listen
      let o := o.setBell bell
      if heard then (none, { o with loop := o.loop.resolve o.now delay }) else (none, o)
    | _ => (none, o)
  | .refresh delay =>
    match o.loop.phase with
    | .waiting due =>
      if o.now < due then (none, o)
      else (none, { o.setBell o.lookout.bell.leave with loop := o.loop.resolve o.now delay })
    | _ => (none, o)
  | .list contact delay sinkDelay =>
    match o.loop.phase with
    | .listing more due =>
      if o.now < due then (none, o)
      else
        let (fault, loop) := o.loop.listed more o.now delay sinkDelay (o.listing contact)
        (fault.map .report, { o with loop })
    | _ => (none, o)
  | .deliver =>
    match o.loop.phase with
    | .delivering set due =>
      if o.now < due then (none, o)
      else (some (.update set), { o with loop := o.loop.quieten o.now })
    | _ => (none, o)
  | .rest =>
    match o.loop.phase with
    | .quiet due => if o.now < due then (none, o) else (none, { o with loop := o.loop.rest o.now })
    | _ => (none, o)
  | .stop =>
    match o.loop.phase with
    | .waiting _ | .listing .. | .quiet _ =>
      (none, { o.setBell o.lookout.bell.leave with loop := o.loop.stop })
    | _ => (none, o)

/-- The office after several steps. -/
def run (o : Office) (steps : List Step) : Office := steps.foldl (fun o s => (o.step s).2) o

end Office
end Muster.Resolver

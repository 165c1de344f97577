/-
Callers of a connection cache on a virtual clock. Dialing takes a time, and what it ends with is written down
for each name beforehand.
-/
import Muster.Client.Cache
import Muster.Simulation.Timeline

namespace Muster.Simulation.Dialing

open Muster.Client (Desk)

/-- How a dial ends: with a channel without addresses, with one that can reach nobody, or with a
fault. -/
inductive Outcome where
  | idle
  | dead
  | fault (cause : String)
deriving DecidableEq, Repr

structure Scene where
  /-- How the next dials under a name end; those behind them end with an idle channel. -/
  plan : List (String × List Outcome) := []
  delay : Nat := 0
  desk : Desk Empty := {}
  timeline : Timeline Nat := {}
  /-- The dials begun. -/
  dials : Nat := 0
  /-- The channels that have been seen, by number. -/
  seen : List Nat := []
  /-- Callers that nobody has asked for their result yet. -/
  spawned : List Nat := []
deriving Repr

namespace Scene

/-- The channel that a dial under a name brings. -/
def outcome (name : String) : Outcome → Except Fault (Channel Empty)
  | .fault cause => .error (.transient cause)
  | .idle => .ok (channelTo [])
  | .dead => .ok (channelTo [⟨"127.0.0.1:1", ""⟩])
where
  channelTo (as : List Address) : Channel Empty :=
    (Channel.apply Network.none (.ofList as) { target := .ofService "test" name } ()).1

/-- Takes the next outcome for a name. -/
def takeOutcome (s : Scene) (name : String) : Outcome × Scene :=
  match (s.plan.lookup name).getD [] with
  | [] => (.idle, s)
  | o :: os =>
    (o, { s with plan := s.plan.map fun (n, l) => if n == name then (n, os) else (n, l) })

/-- Wakes who has the right to dial under a name now. -/
def wakeFirst (s : Scene) (name : String) : Scene :=
  match (s.desk.cache.queue name).head? with
  | some id => { s with timeline := s.timeline.wake id }
  | none => s

/-- Runs one caller until it waits. -/
def runCaller (id : Nat) (s : Scene) : Scene :=
  match s.desk.caller? id with
  | none => s
  | some caller =>
    let s :=
      if caller.progress = .dialing then
        let (o, s) := s.takeOutcome caller.name
        { s with desk := s.desk.dialed id caller.name (outcome caller.name o) }
      else { s with desk := s.desk.advance id 8 }
    if (s.desk.caller? id).map (·.progress) = some .dialing then
      { s with dials := s.dials + 1,
               timeline := s.timeline.arm id (s.timeline.now + s.delay) }
    else if (s.desk.result? id).isSome then s.wakeFirst caller.name
    else s

def stage : Stage Scene Nat where
  timeline := timeline
  setTimeline t s := { s with timeline := t }
  run := runCaller

/-- New callers, which run until they wait; their numbers. -/
def start (s : Scene) (name : String) (times : Nat) : List Nat × Scene :=
  let ids := (List.range times).map (s.desk.callers.length + ·)
  (ids, stage.rest (ids.foldl (fun s id =>
    { s with desk := s.desk.enter id name, timeline := s.timeline.wake id }) s))

/-- Lets time pass until some callers are done. -/
def await (ids : List Nat) : (fuel : Nat) → Scene → Scene
  | 0, s => s
  | fuel + 1, s =>
    if ids.all fun id => (s.desk.result? id).isSome then s
    else
      match s.timeline.nextDue? with
      | none => s
      | some due => await ids fuel (stage.elapse (due - s.timeline.now) s)

/-- Looks at a channel; who is seen first gets the first number. -/
def see (s : Scene) (i : Nat) : Nat × Scene :=
  match s.seen.idxOf? i with
  | some k => (k, s)
  | none => (s.seen.length, { s with seen := s.seen ++ [i] })

/-- Waits for the results of callers, and looks at the channels they got in turn. -/
def collect (ids : List Nat) (s : Scene) : List (Except Fault (Nat × Channel Empty)) × Scene :=
  let s := s.await ids 100000
  ids.foldl (fun (out, s) id =>
    match s.desk.result? id with
    | some (.ok i) =>
      let (k, s) := s.see i
      match s.desk.channel? i with
      | some c => (out ++ [.ok (k, c)], s)
      | none => (out, s)
    | some (.error f) => (out ++ [.error f], s)
    | none => (out, s)) ([], s)

/-- The states of the channels seen. -/
def states (s : Scene) : List Channel.State := s.seen.map s.desk.stateOf

/-- Closes a channel by the number under which it was seen. -/
def closeSeen (s : Scene) (k : Nat) : Scene :=
  match s.seen[k]? with
  | some i => { s with desk := s.desk.closeChannel i }
  | none => s

end Scene
end Muster.Simulation.Dialing

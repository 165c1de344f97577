/-
Callers of an admission controller on a virtual clock: tasks that take a ticket, tasks that work while they
hold one, and the sweeper that serves the queue in its period.
-/
import Muster.Admission.Hall
import Muster.Simulation.Timeline

namespace Muster.Simulation.Admission

open Muster.Admission (Config Hall Gate)

/-- What a task has come to. -/
inductive Phase where
  | starting
  | waiting
  /-- Works until a time. -/
  | holding (done : Nat)
  | ended
deriving DecidableEq, Repr

/-- What a task does with its ticket: keeps it, or works for a time and then succeeds or fails. -/
inductive Work where
  | keep
  | hold (ms : Nat) (fails : Bool)
deriving DecidableEq, Repr

structure Task where
  id : String
  caller : Nat
  work : Work
  phase : Phase := .starting
  /-- The task goes by its name. One whose name has passed to a later task goes on unnamed. -/
  named : Bool := true
deriving Repr

/-- The clock of the sweeper. Its first tick is at the time when the sweeper first runs. -/
inductive Ticker where
  | stopped
  | fresh
  | due (time : Nat)
deriving DecidableEq, Repr

/-- The time of the next tick, seen at a time. -/
def Ticker.next? (now : Nat) : Ticker → Option Nat
  | stopped => none
  | fresh => some now
  | due time => some time

/-- What a task reports. -/
inductive Report where
  | begun
  | ticket (t : Gate.Ticket)
  | finished
  | fault (f : Fault)
deriving Repr

structure Happening where
  id : String
  report : Report
  time : Nat
deriving Repr

structure Scene where
  hall : Hall
  timeline : Timeline Nat := {}
  ticker : Ticker := .stopped
  tasks : List Task := []
  /-- Tickets kept under a name, each with its holder. -/
  kept : List (String × Nat) := []
  nextCaller : Nat := 1
  /-- The first handle of the controller is there. -/
  handle : Bool := true
  happenings : List Happening := []
deriving Repr

/-- The component number of the sweeper; tasks have the numbers of their callers. -/
def sweeper : Nat := 0

/-- A tick noticed later than this shifts the ticks that follow. -/
def lateTolerance : Nat := 5

/-- When a ticker goes on that was due at one time and ran at another. -/
def nextTick (due now period : Nat) : Nat :=
  if due + lateTolerance < now then now + period else due + period

namespace Scene

def note (s : Scene) (id : String) (report : Report) : Scene :=
  { s with happenings := s.happenings ++ [⟨id, report, s.timeline.now⟩] }

def act (s : Scene) (step : Muster.Admission.Step) : Scene := { s with hall := (s.hall.step step).2 }

def setPhase (s : Scene) (caller : Nat) (phase : Phase) : Scene :=
  { s with tasks := s.tasks.map fun t => if t.caller = caller then { t with phase } else t }

def wakeAll (s : Scene) (callers : List Nat) : Scene :=
  { s with timeline := callers.foldl Timeline.wake s.timeline }

/-- Does something to the queue and wakes those whose wait it ends, in the order of the queue. -/
def serveQueue (s : Scene) (step : Muster.Admission.Step) : Scene :=
  let before := s.hall.gate.queue
  let s := s.act step
  let left := before.filter fun w =>
    !w.cancelled && !s.hall.gate.queue.any (·.caller == w.caller)
  s.wakeAll (left.map (·.caller))

/-- The sweeper ends with the signal, closing the gate; at a tick it serves an open gate and ends
at a closed one. -/
def runSweeper (s : Scene) : Scene :=
  match s.ticker.next? s.timeline.now with
  | none => s
  | some due =>
    let s := { s with hall := { s.hall with now := s.timeline.now } }
    if s.hall.shut then { s.serveQueue .close with ticker := .stopped }
    else if s.timeline.now < due then s
    else if s.hall.gate.closed then { s with ticker := .stopped }
    else
      let next := nextTick due s.timeline.now s.hall.gate.config.sweepInterval
      let s := { s with ticker := .due next, timeline := s.timeline.arm sweeper next }
      s.serveQueue .sweep

/-- A task ends. -/
def finish (s : Scene) (t : Task) (report : Report) : Scene :=
  (s.note t.id report).setPhase t.caller .ended

/-- Puts the ticket back that is kept under a name. -/
def dropKept (s : Scene) (id : String) : Scene :=
  match s.kept.lookup id with
  | none => s
  | some caller => { s.act (.release caller) with kept := s.kept.filter (·.1 != id) }

def keepTicket (s : Scene) (id : String) (caller : Nat) : Scene :=
  let s := s.dropKept id
  { s with kept := (id, caller) :: s.kept }

/-- The work of a task is over. -/
def complete (s : Scene) (t : Task) (fails : Bool) : Scene :=
  let report := if fails then Report.fault (.remote "operation failed") else .finished
  (s.act (.release t.caller)).finish t report

/-- A task goes on with the end of its wait. -/
def proceed (s : Scene) (t : Task) : Except Fault Gate.Ticket → Scene
  | .error f => s.finish t (.fault f)
  | .ok ticket =>
    match t.work with
    | .keep => (s.finish t (.ticket ticket)).keepTicket t.id t.caller
    | .hold ms fails =>
      let s := s.note t.id .begun
      if ms = 0 then s.complete t fails
      else
        let done := s.timeline.now + ms
        let s := s.setPhase t.caller (.holding done)
        { s with timeline := s.timeline.arm t.caller done }

def runTask (s : Scene) (t : Task) : Scene :=
  let s := { s with hall := { s.hall with now := s.timeline.now } }
  match t.phase with
  | .starting =>
    let (r, hall) := s.hall.step (.acquire t.caller)
    let s := { s with hall }
    match r with
    | some r => s.proceed t r
    | none => s.setPhase t.caller .waiting
  | .waiting =>
    let (r, hall) := s.hall.step (.receive t.caller)
    let s := { s with hall }
    match r with
    | some r => s.proceed t r
    | none => s
  | .holding done =>
    if s.timeline.now < done then s
    else
      match t.work with
      | .hold _ fails => s.complete t fails
      | .keep => s
  | .ended => s

def runComponent (id : Nat) (s : Scene) : Scene :=
  if id = sweeper then s.runSweeper
  else
    match s.tasks.find? (·.caller == id) with
    | some t => s.runTask t
    | none => s

def stage : Stage Scene Nat where
  timeline := timeline
  setTimeline t s := { s with timeline := t }
  run := runComponent

/-- A scene at a gate; with a queue there is a sweeper, about to run. -/
def ofConfig (config : Config) (shut : Bool) : Scene :=
  let s : Scene := { hall := { Hall.ofConfig config with shut } }
  if config.hasQueue then
    { s with ticker := .fresh, timeline := s.timeline.wake sweeper }
  else s

/-! ## What a caller may do -/

/-- Takes a ticket under a name without waiting. -/
def tryAcquire (s : Scene) (id : String) : Except Fault Gate.Ticket × Scene :=
  let caller := s.nextCaller
  let (r, hall) := s.hall.step (.tryAcquire caller)
  let s := { s with hall, nextCaller := caller + 1 }
  match r with
  | some (.ok t) => (.ok t, s.keepTicket id caller)
  | some (.error f) => (.error f, s)
  | none => (.error .capacity, s)

def start (s : Scene) (id : String) (work : Work) : Scene :=
  let caller := s.nextCaller
  { s with
    tasks := { id, caller, work } ::
      s.tasks.map fun t => { t with named := t.named && t.id ≠ id }
    nextCaller := caller + 1
    timeline := s.timeline.wake caller }

/-- Puts back what is kept under a name, if there is something. -/
def release (s : Scene) (id : String) : Bool × Scene :=
  ((s.kept.lookup id).isSome, s.dropKept id)

/-- Ends the task that goes by a name, wherever it is; tells whether there was one. -/
def abort (s : Scene) (id : String) : Bool × Scene :=
  match s.tasks.find? fun t => t.named && t.id = id with
  | none => (false, s)
  | some t =>
    let s := { s with
      tasks := s.tasks.filter (·.caller != t.caller)
      timeline := s.timeline.remove t.caller }
    match t.phase with
    | .waiting => (true, s.act (.abandon t.caller))
    | .holding _ => (true, s.act (.release t.caller))
    | _ => (true, s)

def close (s : Scene) : Scene := s.serveQueue .close

/-- The shutdown signal fires. -/
def shutdown (s : Scene) : Scene :=
  let s := s.act .trigger
  if s.ticker ≠ .stopped then { s with timeline := s.timeline.wake sweeper } else s

/-- The first handle goes; tasks that wait keep one of their own. -/
def dropHandle (s : Scene) : Scene := { s with handle := false }

def available? (s : Scene) : Option Nat := if s.handle then some s.hall.gate.free else none
def queued? (s : Scene) : Option Nat := if s.handle then some s.hall.gate.queue.length else none

/-- Takes out what has been reported. -/
def takeHappenings (s : Scene) : List Happening × Scene :=
  (s.happenings, { s with happenings := [] })

end Scene
end Muster.Simulation.Admission

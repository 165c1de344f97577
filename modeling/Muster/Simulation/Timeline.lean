/-
A virtual clock for components that take turns. A component runs until it waits for something; it
runs again when it is woken or when its alarm is due. Components run in the order in which they
were woken, and alarms of one time go off in the order in which they were set.
-/
namespace Muster.Simulation

structure Alarm (ι : Type) where
  due : Nat
  id : ι
deriving Repr

structure Timeline (ι : Type) where
  now : Nat := 0
  /-- In the order in which they were set. -/
  alarms : List (Alarm ι) := []
  /-- Components that have been woken and have not run since, first in first out. -/
  ready : List ι := []
deriving Repr

namespace Timeline

variable {ι : Type} [BEq ι]

/-- Wakes a component; one that is awake already keeps its place. -/
def wake (t : Timeline ι) (id : ι) : Timeline ι :=
  if t.ready.contains id then t else { t with ready := t.ready ++ [id] }

/-- Takes back the alarms of a component. -/
def disarm (t : Timeline ι) (id : ι) : Timeline ι :=
  { t with alarms := t.alarms.filter (·.id != id) }

/-- Gives a component one alarm in place of any it has. -/
def arm (t : Timeline ι) (id : ι) (due : Nat) : Timeline ι :=
  let t := t.disarm id
  { t with alarms := t.alarms ++ [⟨due, id⟩] }

/-- Removes a component with all that would wake it. -/
def remove (t : Timeline ι) (id : ι) : Timeline ι :=
  let t := t.disarm id
  { t with ready := t.ready.filter (· != id) }

/-- The time of the next alarm. -/
def nextDue? (t : Timeline ι) : Option Nat := (t.alarms.map (·.due)).min?

/-- Lets every alarm go off whose time has come, the earliest first. -/
def ring (t : Timeline ι) : Timeline ι :=
  let (due, later) := t.alarms.partition (·.due ≤ t.now)
  (due.mergeSort fun a b => a.due ≤ b.due).foldl (fun t a => t.wake a.id) { t with alarms := later }

end Timeline

/-! ## Running -/

/-- A world of components on a timeline, and how one of them runs until it waits. -/
structure Stage (σ ι : Type) where
  timeline : σ → Timeline ι
  setTimeline : Timeline ι → σ → σ
  run : ι → σ → σ

namespace Stage

variable {σ ι : Type} [BEq ι] (g : Stage σ ι)

/-- Runs woken components, and those whose alarm is due, until all of them wait. -/
def settle : (fuel : Nat) → σ → σ
  | 0, s => s
  | fuel + 1, s =>
    let t := g.timeline s
    match t.ready with
    | id :: rest => settle fuel (g.run id (g.setTimeline { t with ready := rest } s))
    | [] =>
      if t.alarms.any (·.due ≤ t.now) then settle fuel (g.setTimeline t.ring s) else s

/-- More turns than any play takes. -/
def manyTurns : Nat := 10000000

/-- Moves the clock from alarm to alarm up to a time. -/
def elapseTo (target : Nat) : (fuel : Nat) → σ → σ
  | 0, s => s
  | fuel + 1, s =>
    let t := g.timeline s
    match t.nextDue? with
    | some due =>
      if due ≤ target then
        elapseTo target fuel (g.settle manyTurns (g.setTimeline { t with now := max t.now due } s))
      else g.settle manyTurns (g.setTimeline { t with now := target } s)
    | none => g.settle manyTurns (g.setTimeline { t with now := target } s)

/-- Lets time pass, when all that is awake has run. -/
def elapse (ms : Nat) (s : σ) : σ :=
  g.elapseTo ((g.timeline s).now + ms) manyTurns (g.settle manyTurns s)

/-- Moves the clock at once, so that all that was due in between sees only the new time. -/
def jump (ms : Nat) (s : σ) : σ :=
  let t := g.timeline s
  g.settle manyTurns (g.setTimeline { t with now := t.now + ms } s)

/-- Lets all that is awake run at the present time. -/
def rest (s : σ) : σ := g.settle manyTurns s

end Stage
end Muster.Simulation

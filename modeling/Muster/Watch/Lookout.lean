/-
A registry watch at work: its loop over the store, with the bell it rings and the clock. Every way in which
a run can go on is one step: others change the store, time passes, the loop goes on, and a listener
comes and goes.
-/
import Muster.Bell
import Muster.Watch.Loop

namespace Muster.Watch

/-- A registry watch with the store it watches and the bell it rings. -/
structure Lookout where
  store : Store
  loop : Loop
  bell : Bell := {}
  now : Nat := 0
deriving Repr

/-- One step of a run. A step of the loop is taken only in the phase it belongs to. -/
inductive Step where
  /-- Time passes. -/
  | tick (ms : Nat)
  | create (key value : String)
  | delete (key : String)
  /-- The loop begins a poll. -/
  | poll
  /-- The poll in progress fails, or the one that the loop begins does at once. -/
  | fail
  /-- The poll in progress ends with what the store has for it. -/
  | hear
  /-- The loop has rested. -/
  | rouse
  | stop
  | listen
  | leave
  | take
deriving DecidableEq, Repr

namespace Lookout

/-- A loop that is about to watch a directory of an empty store. -/
def ofDir (capacity : Nat) (dir : String) : Lookout := { store := .empty capacity, loop := { dir } }

/-- The loop waits for an event, and the store has none for it. -/
def isBlocked (l : Lookout) : Bool :=
  match l.loop.phase with
  | .polling _ => (l.loop.outcome? l.store).isNone
  | _ => false

/-- The loop goes on, and rings if there is a reason. Tells whether that wakes a listener. -/
def goOn (l : Lookout) : Bool × Loop → Bool × Lookout
  | (true, loop) => (l.bell.ring.1, { l with loop, bell := l.bell.ring.2 })
  | (false, loop) => (false, { l with loop })

/-- The lookout with the outcome of a mutation, if it has one. -/
def mutated (l : Lookout) : Except Fault Store → Lookout
  | .ok store => { l with store }
  | .error _ => l

/-- The lookout after a step, and what the step tells: a step of the loop, whether it wakes a
listener; a step of the listener, whether it has heard a ring. -/
def step (l : Lookout) : Step → Bool × Lookout
  | .tick ms => (false, { l with now := l.now + ms })
  | .create key value => (false, l.mutated (l.store.create key value))
  | .delete key => (false, l.mutated (l.store.delete key))
  | .poll =>
    match l.loop.phase with
    | .idle => (false, { l with loop := l.loop.poll l.store })
    | _ => (false, l)
  | .fail =>
    match l.loop.phase with
    | .idle | .polling _ => l.goOn (l.loop.lost l.now)
    | _ => (false, l)
  | .hear =>
    match l.loop.outcome? l.store with
    | some r => l.goOn (l.loop.take l.now r)
    | none => (false, l)
  | .rouse => (false, { l with loop := l.loop.rouse l.now })
  | .stop => (false, { l with loop := l.loop.stop })
  | .listen => (l.bell.listen.1, { l with bell := l.bell.listen.2 })
  | .leave => (false, { l with bell := l.bell.leave })
  | .take => (l.bell.take.1, { l with bell := l.bell.take.2 })

/-- The lookout after several steps. -/
def run (l : Lookout) (steps : List Step) : Lookout := steps.foldl (fun l s => (l.step s).2) l

end Lookout
end Muster.Watch

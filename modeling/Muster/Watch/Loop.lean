/-
The loop of a registry watch, over a directory of the store: it polls for the next event, goes on behind
each one, and after a failed poll forgets its position, rests, and starts over. Every mutation and every
failure is a reason to ring.
-/
import Muster.Store.Basic

namespace Muster.Watch

/-- The rest after a failed poll, in milliseconds. -/
def resyncDelay : Nat := 1000

inductive Phase where
  /-- About to poll. -/
  | idle
  /-- Waits for an event from an index on. -/
  | polling (start : Nat)
  /-- Rests until a time. -/
  | resting (due : Nat)
  | ended
deriving DecidableEq, Repr

structure Loop where
  dir : String
  /-- Where the next poll begins; without a position it begins with the next mutation. -/
  position : Option Nat := none
  phase : Phase := .idle
deriving Repr

namespace Loop

/-- Begins a poll. -/
def poll (l : Loop) (s : Store) : Loop := { l with phase := .polling (s.watchStart l.position) }

/-- How the poll in progress ends in this state of the store, if it does. -/
def outcome? (l : Loop) (s : Store) : Option (Except Fault Event) :=
  match l.phase with
  | .polling start =>
    match s.eventFrom l.dir start with
    | .error e => some (.error e)
    | .ok (some e) => some (.ok e)
    | .ok none => none
  | _ => none

/-- The poll has brought an event. Whether it is a reason to ring, and how the loop goes on. -/
def heard (l : Loop) (e : Event) : Bool × Loop :=
  (e.action.isMutation, { l with position := some (e.index + 1), phase := .idle })

/-- The poll has failed: the position is lost, which is a reason to ring. -/
def lost (l : Loop) (now : Nat) : Bool × Loop :=
  (true, { l with position := none, phase := .resting (now + resyncDelay) })

/-- What a poll's end means for the loop. -/
def take (l : Loop) (now : Nat) : Except Fault Event → Bool × Loop
  | .ok e => l.heard e
  | .error _ => l.lost now

/-- A rest that is over ends. -/
def rouse (l : Loop) (now : Nat) : Loop :=
  match l.phase with
  | .resting due => if now < due then l else { l with phase := .idle }
  | _ => l

def stop (l : Loop) : Loop := { l with phase := .ended }

end Loop
end Muster.Watch

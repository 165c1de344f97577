/-
Picking from one round-robin rotation at the same time. Without entries a caller is told so at once.
Otherwise it waits for the lock; whoever has it reads the entry at the cursor, moves the cursor on, and
leaves with what it has read. Who gets the lock next is open.
-/
import Muster.Balance.RoundRobin

namespace Muster.RoundRobin

variable {α : Type}

/-- How far the caller is that has the lock. -/
inductive Stage (α : Type) where
  | entered
  /-- Has read the entry at a position. -/
  | read (position : Nat) (entry : α)
  /-- And has moved the cursor on. -/
  | moved (position : Nat) (entry : α)
deriving Repr

/-- A pick that is over: whose it was, and which entry it has brought from which position. -/
structure Pick (α : Type) where
  caller : Nat
  found : Option (Nat × α)
deriving Repr

/-- The position that a pick has come to. -/
def Pick.position (p : Pick α) : Option Nat := p.found.map (·.1)

/-- A rotation with its callers. -/
structure Turnstile (α : Type) where
  rotation : RoundRobin α
  /-- Callers that wait for the lock. -/
  waiting : List Nat := []
  /-- The caller that has the lock. -/
  inside : Option (Nat × Stage α) := none
  /-- The picks that are over, in the order in which they have ended. -/
  picks : List (Pick α) := []
deriving Repr

namespace Turnstile

/-- One step of a run. -/
inductive Step where
  | call (caller : Nat)
  | enter (caller : Nat)
  | read
  | move
  | leave
deriving DecidableEq, Repr

/-- A rotation that nobody has picked from. -/
def opened (entries : List α) (offset : Nat) : Turnstile α :=
  { rotation := .withOffset entries offset }

/-- Writes down a pick. -/
def finish (t : Turnstile α) (caller : Nat) (found : Option (Nat × α)) : Turnstile α :=
  { t with picks := t.picks ++ [⟨caller, found⟩] }

/-- A caller comes: it is told at once that there is nothing, or waits for the lock. -/
def call (t : Turnstile α) (caller : Nat) : Turnstile α :=
  if t.rotation.entries.isEmpty then t.finish caller none
  else { t with waiting := t.waiting ++ [caller] }

/-- A caller that waits gets the lock, if nobody has it. -/
def enter (t : Turnstile α) (caller : Nat) : Turnstile α :=
  if t.waiting.contains caller && t.inside.isNone then
    { t with waiting := t.waiting.erase caller, inside := some (caller, .entered) }
  else t

def read (t : Turnstile α) : Turnstile α :=
  match t.inside, t.rotation.entries[t.rotation.cursor]? with
  | some (caller, .entered), some a =>
    { t with inside := some (caller, .read t.rotation.cursor a) }
  | _, _ => t

def move (t : Turnstile α) : Turnstile α :=
  match t.inside with
  | some (caller, .read position a) =>
    { t with
      rotation := { t.rotation with cursor := (t.rotation.cursor + 1) % t.rotation.entries.length }
      inside := some (caller, .moved position a) }
  | _ => t

/-- The lock is given back, and the pick is over. -/
def leave (t : Turnstile α) : Turnstile α :=
  match t.inside with
  | some (caller, .moved position a) => { t with inside := none }.finish caller (some (position, a))
  | _ => t

/-- The turnstile after a step; one that is not due changes nothing. -/
def step (t : Turnstile α) : Step → Turnstile α
  | .call caller => t.call caller
  | .enter caller => t.enter caller
  | .read => t.read
  | .move => t.move
  | .leave => t.leave

def run (t : Turnstile α) (steps : List Step) : Turnstile α := steps.foldl step t

/-- What is left to be done by the caller that has the lock. -/
def goThrough : List Step := [.read, .move, .leave]

end Turnstile
end Muster.RoundRobin

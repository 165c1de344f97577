/-
The state of an admission controller: a number of tickets and a queue of callers that wait for one. Only a
sweep hands tickets to the queue: it leaves out callers that gave up, fails those whose time is
over, and serves the rest from the head for as long as tickets are free.
-/
import Muster.Admission.Config

namespace Muster.Admission

/-- A caller that waits. -/
structure Waiter where
  caller : Nat
  deadline : Nat
  /-- The caller has given up; the next sweep removes it. -/
  cancelled : Bool := false
deriving DecidableEq, Repr

/-- An admission controller: the tickets that are free, and the wait queue. -/
structure Gate where
  config : Config
  free : Nat
  queue : List Waiter := []
  closed : Bool := false
deriving Repr

/-- How a place in the queue ends in a sweep. -/
inductive Verdict where
  | granted
  | expired
deriving DecidableEq, Repr

/-- What a sweep does with the queue. -/
structure Sweep where
  free : Nat
  /-- Who leaves the queue, in its order. -/
  served : List (Waiter × Verdict) := []
  waiting : List Waiter := []
deriving Repr

/-- The callers that leave the queue with a verdict, in its order. -/
def Sweep.callers (s : Sweep) (v : Verdict) : List Nat :=
  (s.served.filter (·.2 = v)).map (·.1.caller)

/-- Serves a queue from its head: who is too late fails, who finds a ticket gets it, and at the
first who finds none the rest go on waiting. -/
def serve (now : Nat) : (free : Nat) → List Waiter → Sweep
  | free, [] => { free }
  | free, w :: ws =>
    if w.deadline ≤ now then
      let s := serve now free ws
      { s with served := (w, .expired) :: s.served }
    else
      match free with
      | 0 => { free := 0, waiting := w :: ws }
      | free + 1 =>
        let s := serve now free ws
        { s with served := (w, .granted) :: s.served }

namespace Gate

/-- A gate with all its tickets. -/
def ofConfig (config : Config) : Gate := { config, free := config.maxConcurrent }

/-- A gate that admits everything. -/
def disabled : Gate := ofConfig {}

def isEnabled (g : Gate) : Bool := g.config.isEnabled

/-- What a caller holds: a ticket of the pool, or leave to pass a gate without limit. -/
inductive Ticket where
  | limited
  | unlimited
deriving DecidableEq, Repr

/-- Takes a ticket without waiting. `shut` tells that the shutdown signal has fired. -/
def tryAcquire (g : Gate) (shut : Bool) : Except Fault Ticket × Gate :=
  if !g.isEnabled then (.ok .unlimited, g)
  else if g.closed || shut then (.error .shutdown, g)
  else
    match g.free with
    | 0 => (.error .capacity, g)
    | free + 1 => (.ok .limited, { g with free })

/-- How an attempt to get a ticket ends: at once, or by waiting. -/
inductive Entered where
  | done (r : Except Fault Ticket)
  | parked
deriving Repr

/-- Takes a place in the queue. The gate may have closed since the caller found the pool empty, so
that is asked once more. -/
def park (g : Gate) (shut : Bool) (now caller : Nat) : Entered × Gate :=
  if g.closed || shut then (.done (.error .shutdown), g)
  else if g.config.maxWaitNum ≤ g.queue.length then (.done (.error .capacity), g)
  else (.parked, { g with queue := g.queue ++ [⟨caller, now + g.config.maxWait, false⟩] })

/-- Takes a ticket, or a place in the queue when there is one. -/
def acquire (g : Gate) (shut : Bool) (now caller : Nat) : Entered × Gate :=
  match g.tryAcquire shut with
  | (.error .capacity, g) =>
    if g.config.hasQueue then g.park shut now caller else (.done (.error .capacity), g)
  | (r, g) => (.done r, g)

/-- Puts a ticket back. -/
def release (g : Gate) : Gate := { g with free := g.free + 1 }

/-- Marks a caller in the queue as gone. -/
def cancel (g : Gate) (caller : Nat) : Gate :=
  { g with queue := g.queue.map fun w =>
      if w.caller = caller then { w with cancelled := true } else w }

/-- What a sweep at a time does: callers that gave up are left out, the rest are served. -/
def sweepAt (g : Gate) (now : Nat) : Sweep :=
  serve now g.free (g.queue.filter (!·.cancelled))

/-- The gate after a sweep. -/
def swept (g : Gate) (s : Sweep) : Gate := { g with free := s.free, queue := s.waiting }

/-- Stops issuing tickets; the queue is dissolved. -/
def close (g : Gate) : Gate := { g with closed := true, queue := [] }

end Gate
end Muster.Admission

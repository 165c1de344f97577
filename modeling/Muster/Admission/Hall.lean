/-
An admission controller at work: its gate together with its callers, with who holds a ticket, to whom one is
on its way, and who has been turned away without having noticed. Every way in which a run can go on is one
step.
-/
import Muster.Admission.Gate

namespace Muster.Admission

/-- An admission controller with its callers. -/
structure Hall where
  gate : Gate
  now : Nat := 0
  /-- The shutdown signal has fired. -/
  shut : Bool := false
  /-- Callers that hold a ticket of the pool. -/
  held : List Nat := []
  /-- Callers that a ticket has been sent to and that have not taken it yet. -/
  sent : List Nat := []
  /-- Callers whose place in the queue is gone and that have not noticed yet. -/
  failed : List Nat := []
deriving Repr

/-- One step of a run. -/
inductive Step where
  /-- Time passes. -/
  | tick (ms : Nat)
  | tryAcquire (caller : Nat)
  | acquire (caller : Nat)
  /-- A caller that has found the pool empty goes on to the queue. Other steps may have come between
  the two; `acquire` is both without a pause. -/
  | park (caller : Nat)
  /-- A parked caller takes what its wait ended with. -/
  | receive (caller : Nat)
  /-- A caller drops its ticket. -/
  | release (caller : Nat)
  /-- A caller gives up waiting, whether or not its wait has ended meanwhile. -/
  | abandon (caller : Nat)
  | sweep
  | close
  /-- The shutdown signal fires. -/
  | trigger
deriving DecidableEq, Repr

namespace Hall

def ofConfig (config : Config) : Hall := { gate := .ofConfig config }

/-- Gives a caller the ticket it got. -/
def keep (h : Hall) (caller : Nat) : Except Fault Gate.Ticket → Hall
  | .ok .limited => { h with held := caller :: h.held }
  | _ => h

/-- A caller with a place in the queue, or with the end of its wait before it. It does nothing else
until it has taken that end or has given up. -/
def waits (h : Hall) (caller : Nat) : Bool :=
  h.gate.queue.any (fun w => w.caller = caller && !w.cancelled) || h.sent.contains caller
    || h.failed.contains caller

/-- The hall after a caller has come to the gate, and what the caller is told. -/
def enter (h : Hall) (caller : Nat) :
    Gate.Entered × Gate → Option (Except Fault Gate.Ticket) × Hall
  | (.done r, gate) => (some r, { h with gate }.keep caller r)
  | (.parked, gate) => (none, { h with gate })

/-- What a caller whose place is gone reports. -/
def turnedAway (h : Hall) : Fault := if h.gate.closed || h.shut then .shutdown else .capacity

/-- The hall after a step, and what the step answers a caller. A caller that is told to wait gets
its answer from a later step. -/
def step (h : Hall) : Step → Option (Except Fault Gate.Ticket) × Hall
  | .tick ms => (none, { h with now := h.now + ms })
  | .tryAcquire caller =>
    let (r, gate) := h.gate.tryAcquire h.shut
    (some r, { h with gate }.keep caller r)
  | .acquire caller =>
    if h.waits caller then (none, h)
    else h.enter caller (h.gate.acquire h.shut h.now caller)
  | .park caller =>
    if h.waits caller || !h.gate.config.hasQueue then (none, h)
    else h.enter caller (h.gate.park h.shut h.now caller)
  | .receive caller =>
    if h.sent.contains caller then
      (some (.ok .limited), { h with sent := h.sent.erase caller, held := caller :: h.held })
    else if h.failed.contains caller then
      (some (.error h.turnedAway), { h with failed := h.failed.erase caller })
    else (none, h)
  | .release caller =>
    if h.held.contains caller then
      (none, { h with held := h.held.erase caller, gate := h.gate.release })
    else (none, h)
  | .abandon caller =>
    if h.sent.contains caller then
      (none, { h with sent := h.sent.erase caller, gate := h.gate.release })
    else if h.failed.contains caller then (none, { h with failed := h.failed.erase caller })
    else (none, { h with gate := h.gate.cancel caller })
  | .sweep =>
    if h.gate.closed then (none, h)
    else
      let s := h.gate.sweepAt h.now
      (none, { h with
        gate := h.gate.swept s
        sent := h.sent ++ s.callers .granted
        failed := h.failed ++ s.callers .expired })
  | .close =>
    if h.gate.closed then (none, h)
    else
      let parked := (h.gate.queue.filter (!·.cancelled)).map (·.caller)
      (none, { h with gate := h.gate.close, failed := h.failed ++ parked })
  | .trigger => (none, { h with shut := true })

/-- The hall after several steps. -/
def run (h : Hall) (steps : List Step) : Hall := steps.foldl (fun h s => (h.step s).2) h

end Hall
end Muster.Admission

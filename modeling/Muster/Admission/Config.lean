/-
The settings of admission control. Times are in milliseconds.
-/
import Muster.Fault

namespace Muster.Admission

def defaultMaxWait : Nat := 5000
def defaultSweepInterval : Nat := 50

structure Config where
  /-- The number of tickets; zero admits everything. -/
  maxConcurrent : Nat := 0
  /-- How many callers may wait; zero refuses at once. -/
  maxWaitNum : Nat := 0
  /-- How long a caller waits. -/
  maxWait : Nat := defaultMaxWait
  /-- The period in which the queue is served. -/
  sweepInterval : Nat := defaultSweepInterval
deriving DecidableEq, Repr

namespace Config

/-- A limit without a queue. -/
def hardCap (maxConcurrent : Nat) : Config := { maxConcurrent }

/-- A wait of zero is the default wait. -/
def normalized (c : Config) : Config :=
  if c.maxWait = 0 then { c with maxWait := defaultMaxWait } else c

/-- The same limit with a queue. -/
def withQueue (c : Config) (maxWaitNum maxWait : Nat) : Config :=
  normalized { c with maxWaitNum, maxWait }

def isEnabled (c : Config) : Bool := c.maxConcurrent > 0

def hasQueue (c : Config) : Bool := c.isEnabled && c.maxWaitNum > 0

/-- A queue is served in a period above zero. -/
def validate (c : Config) : Except String Unit :=
  if c.hasQueue ∧ c.sweepInterval = 0 then .error "sweep_interval must be greater than 0" else .ok ()

/-- The most tickets that can be counted. -/
def mostTickets : Nat := 2305843009213693951

/-- The most places that a queue can be given. -/
def mostPlaces : Nat := 384307168202282325

/-- Whether a controller can be built at all: its tickets can be counted, and its queue has room. -/
def isBuildable (c : Config) : Bool :=
  c.maxConcurrent ≤ mostTickets && c.maxWaitNum ≤ mostPlaces

/-- What stands in the way of a controller without a timer to serve its queue. -/
def noTimer : Fault :=
  .invalidConfig ("admission queue needs a Tokio runtime: there is no reactor running, "
    ++ "must be called from the context of a Tokio 1.x runtime")

/-- The settings a controller works with; `timer` tells that there is one to serve a queue. -/
def accept (c : Config) (timer : Bool) : Except Fault Config :=
  match c.validate with
  | .error e => .error (.invalidConfig e)
  | .ok () =>
    if c.normalized.hasQueue ∧ !timer then .error noTimer else .ok c.normalized

end Config
end Muster.Admission

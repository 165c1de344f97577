/-
The trigger loop of a resolver, which keeps the addresses of a service fresh. A trigger, or the refresh
interval, starts a resolution; what it finds goes to the sink; then a quiet period follows, in which
triggers gather into one.
-/
import Muster.Resolver.AddressSet
import Muster.Resolver.Config

namespace Muster.Resolver

inductive Phase where
  /-- Waits for a trigger, or for the time of a refresh. -/
  | waiting (refresh : Nat)
  /-- A listing is under way, to be answered at a time; so many attempts are left behind it. -/
  | listing (more due : Nat)
  /-- The sink takes a set until a time. -/
  | delivering (set : AddressSet) (due : Nat)
  | quiet (due : Nat)
  | ended
deriving DecidableEq, Repr

/-- How a listing ends: with a set, with a fault, or by breaking off. -/
inductive Listing where
  | found (set : AddressSet)
  | fault (f : Fault)
  | broken
deriving DecidableEq, Repr

structure Loop where
  config : Config
  phase : Phase
deriving Repr

namespace Loop

/-- Waits from now on. -/
def rest (l : Loop) (now : Nat) : Loop :=
  { l with phase := .waiting (now + l.config.refreshInterval) }

/-- Begins the first listing of a resolution; `delay` is what listing takes. -/
def resolve (l : Loop) (now delay : Nat) : Loop :=
  { l with phase := .listing (l.config.maxAttempts - 1) (now + delay) }

def quieten (l : Loop) (now : Nat) : Loop :=
  { l with phase := .quiet (now + l.config.minInterval) }

/-- The end of a listing: a fault to report, if this was the last attempt, and how the loop goes
on. `sinkDelay` is what the sink takes for a set. -/
def listed (l : Loop) (more now delay sinkDelay : Nat) : Listing → Option Fault × Loop
  | .found set => (none, { l with phase := .delivering set (now + sinkDelay) })
  | .broken => (none, l.quieten now)
  | .fault f =>
    match more with
    | 0 => (some f, l.quieten now)
    | more + 1 => (none, { l with phase := .listing more (now + delay) })

def stop (l : Loop) : Loop := { l with phase := .ended }

end Loop
end Muster.Resolver

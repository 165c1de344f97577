/-
An instance that is served, and its record in the registry, beside others who use the same keys. Who serves
it registers when it arrives, serves until it notices the shutdown signal, and removes the record when it
leaves. In between, others give commands of their own, and the signal may come at any time, also before
the start.
-/
import Muster.Registry.Command
import Muster.Registry.Serving

namespace Muster.Registry

/-- Who serves what, and where. -/
structure Post where
  service : Service
  ip : Ip
  port : Nat
  /-- The port that is taken where none is given. -/
  drawn : Nat
  version : String
  now : String
deriving DecidableEq, Repr

/-- How far one who serves has come. -/
inductive Stage where
  | arriving
  | serving (r : Registration)
  /-- The signal has been noticed, and the record is still there. -/
  | leaving (r : Registration)
  | done (result : Except Fault Registration)
deriving Repr

/-- One who serves, with the keys of everybody. -/
structure Duty (σ : Type) where
  keys : σ
  stage : Stage := .arriving
  shut : Bool := false

/-- What happens next. -/
inductive Happening where
  /-- Who serves goes on to its next wait. -/
  | go
  | signal
  | other (c : Command)

namespace Duty

variable {σ : Type} (b : Backend σ) (post : Post)

def step (d : Duty σ) : Happening → Duty σ
  | .signal => { d with shut := true }
  | .other c => { d with keys := (c.run b d.keys).2 }
  | .go =>
    match d.stage with
    | .arriving =>
      match beginServing b post.service post.ip post.port post.drawn post.version post.now d.keys with
      | (.error f, keys) => { d with keys, stage := .done (.error f) }
      | (.ok r, keys) => { d with keys, stage := .serving r }
    | .serving r => if d.shut then { d with stage := .leaving r } else d
    | .leaving r => { d with keys := endServing b post.service r d.keys, stage := .done (.ok r) }
    | .done _ => d

def run (hs : List Happening) (d : Duty σ) : Duty σ := hs.foldl (step b post) d

/-- The commands of the others. -/
def others (hs : List Happening) : List Command :=
  hs.filterMap fun
    | .other c => some c
    | _ => none

end Duty
end Muster.Registry

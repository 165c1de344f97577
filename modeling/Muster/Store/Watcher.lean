/-
Callers that wait for the next event under a directory.
-/
import Muster.Store.Basic

namespace Muster

/-- A caller that waits: it looks for events from `start` on. -/
structure Watcher (ι : Type) where
  id : ι
  dir : String
  start : Nat
  /-- The wait goes by its name. One whose name has passed to a later wait goes on unnamed. -/
  named : Bool := true
deriving Repr

namespace Watcher

variable {ι : Type}

/-- A caller that begins to wait now. -/
def ofNow (s : Store) (id : ι) (dir : String) (asked : Option Nat) : Watcher ι :=
  { id, dir, start := s.watchStart asked }

/-- A wait begins; its name passes to it. -/
def join [DecidableEq ι] (ws : List (Watcher ι)) (w : Watcher ι) : List (Watcher ι) :=
  ws.map (fun v => { v with named := v.named && v.id ≠ w.id }) ++ [w]

/-- Calls off the wait that goes by a name. -/
def callOff [DecidableEq ι] (ws : List (Watcher ι)) (id : ι) : List (Watcher ι) :=
  ws.filter fun w => !(w.named && w.id = id)

/-- How the wait ends in this state of the store, if it does. -/
def outcome? (s : Store) (w : Watcher ι) : Option (Except Fault Event) :=
  match s.eventFrom w.dir w.start with
  | .error e => some (.error e)
  | .ok (some e) => some (.ok e)
  | .ok none => none

/-- The waits that end in this state of the store, and those that go on. -/
def settle (s : Store) : List (Watcher ι) → List (ι × Except Fault Event) × List (Watcher ι)
  | [] => ([], [])
  | w :: ws =>
    let (ended, waiting) := settle s ws
    match w.outcome? s with
    | some r => ((w.id, r) :: ended, waiting)
    | none => (ended, w :: waiting)

end Watcher
end Muster

/-
Shutdown signals with those who hold them and those who wait for them. Handles are given out one after
another. Whoever waits for a signal looks at its cell and at the cells above it, and as long as none of
them has been triggered has an entry at each; a trigger of any of them is a call to look again.
-/
import Muster.Signal

namespace Muster

/-- The cells of a signal, its own one first. -/
def Signal.cells (g : Signal) : List Nat := g.cell :: g.above

/-- How often a cell has been triggered. -/
def Signals.version (s : Signals) (cell : Nat) : Nat := s.fired.count cell

/-! ## Waiting -/

/-- An entry at a cell, and how often the cell had been triggered at the last look. -/
structure Sight where
  cell : Nat
  seen : Nat
deriving DecidableEq, Repr

/-- A first look at cells, one after another. It ends at one that has been triggered; otherwise there is
an entry at each. -/
def Sight.first (s : Signals) : List Nat → Option (List Sight)
  | [] => some []
  | cell :: above =>
    if s.fired.contains cell then none
    else (first s above).map (⟨cell, s.version cell⟩ :: ·)

/-- A later look, at the cells that have been triggered since. -/
def Sight.again (s : Signals) : List Sight → Option (List Sight)
  | [] => some []
  | x :: above =>
    if s.version x.cell ≠ x.seen ∧ s.fired.contains x.cell then none
    else (again s above).map (⟨x.cell, s.version x.cell⟩ :: ·)

/-- How far somebody is who waits. -/
inductive Wait.Progress where
  /-- There has been no look yet. -/
  | begun
  | entered (sights : List Sight)
  | ended
deriving DecidableEq, Repr

/-- Somebody who waits for a signal. -/
structure Wait where
  signal : Signal
  progress : Wait.Progress := .begun
  /-- It is time to look. -/
  called : Bool := true
deriving DecidableEq, Repr

namespace Wait

def isOver (w : Wait) : Bool := w.progress == .ended

/-- What a look means for the wait. -/
def after (w : Wait) : Option (List Sight) → Wait
  | some sights => { w with progress := .entered sights, called := false }
  | none => { w with progress := .ended, called := false }

/-- A look. -/
def look (w : Wait) (s : Signals) : Wait :=
  match w.progress with
  | .begun => w.after (Sight.first s w.signal.cells)
  | .entered sights => w.after (Sight.again s sights)
  | .ended => w

/-- A trigger of a cell calls those who have an entry there. -/
def hear (cell : Nat) (w : Wait) : Wait :=
  match w.progress with
  | .entered sights => if sights.any (·.cell == cell) then { w with called := true } else w
  | _ => w

end Wait

/-! ## Steps -/

/-- Shutdown signals with their handles and with those who wait for them. -/
structure Vigil where
  signals : Signals := {}
  /-- The signals that have been given out; a handle is a place in this list. -/
  handles : List Signal := []
  waits : List Wait := []
deriving Repr

namespace Vigil

/-- One step of a run. With a handle that has not been given out nothing happens. -/
inductive Act where
  | new
  | child (parent : Nat)
  | clone (original : Nat)
  | trigger (handle : Nat)
  /-- Somebody begins to wait. -/
  | await (handle : Nat)
  /-- One of those who wait looks. -/
  | look (wait : Nat)
deriving DecidableEq, Repr

/-- Gives out a new signal. -/
def give (v : Vigil) (made : Signal × Signals) : Vigil :=
  { v with signals := made.2, handles := v.handles ++ [made.1] }

/-- Does something with a signal that has been given out. -/
def withHandle (v : Vigil) (handle : Nat) (f : Signal → Vigil) : Vigil :=
  match v.handles[handle]? with
  | some g => f g
  | none => v

def act (v : Vigil) : Act → Vigil
  | .new => v.give v.signals.root
  | .child parent => v.withHandle parent fun g => v.give (v.signals.child g)
  | .clone original => v.withHandle original fun g => v.give (g, v.signals)
  | .trigger handle => v.withHandle handle fun g =>
    { v with signals := v.signals.trigger g, waits := v.waits.map (·.hear g.cell) }
  | .await handle => v.withHandle handle fun g => { v with waits := v.waits ++ [{ signal := g }] }
  | .look wait => { v with waits := v.waits.modify wait (·.look v.signals) }

/-- The vigil after several steps. -/
def run (v : Vigil) (acts : List Act) : Vigil := acts.foldl act v

end Vigil
end Muster

/-
Shutdown signals: one-way signals that form a forest. A signal counts as triggered when it or one above it
has been triggered, so triggering reaches everything below and nothing else.
-/
namespace Muster

/-- A signal: its own cell, and the cells of the signals above it, nearest first. Two handles with
the same cell are handles of one signal. -/
structure Signal where
  cell : Nat
  above : List Nat := []
deriving DecidableEq, Repr

/-- All signals: how many cells are in use, and which have been triggered. -/
structure Signals where
  count : Nat := 0
  fired : List Nat := []
deriving Repr

namespace Signals

/-- A signal with none above it. -/
def root (s : Signals) : Signal × Signals :=
  ({ cell := s.count }, { s with count := s.count + 1 })

/-- A signal directly below another. -/
def child (s : Signals) (parent : Signal) : Signal × Signals :=
  ({ cell := s.count, above := parent.cell :: parent.above }, { s with count := s.count + 1 })

def trigger (s : Signals) (signal : Signal) : Signals :=
  { s with fired := signal.cell :: s.fired }

def isTriggered (s : Signals) (signal : Signal) : Bool :=
  (signal.cell :: signal.above).any (s.fired.contains ·)

/-- Of those who wait for a signal, the ones whose wait is over, and the rest. -/
def wake {α : Type} (s : Signals) (waiting : List (α × Signal)) :
    List α × List (α × Signal) :=
  let (ended, rest) := waiting.partition fun w => s.isTriggered w.2
  (ended.map (·.1), rest)

end Signals
end Muster

/-
The wake-up that a registry watch gives to a trigger loop: a bell that wakes one listener. A ring goes to
the listener that waits; without one it is kept, and at most one ring is kept. A ring given to a listener
that leaves without having heard it is kept too.
-/
namespace Muster

structure Bell where
  /-- A listener waits. -/
  waiting : Bool := false
  /-- A ring has been given to the listener, which has not run since. -/
  handed : Bool := false
  /-- A ring is kept. -/
  stored : Bool := false
deriving DecidableEq, Repr

namespace Bell

/-- Rings, and tells whether a listener is to be woken. -/
def ring (b : Bell) : Bool × Bell :=
  if b.waiting then (true, { b with waiting := false, handed := true })
  else (false, { b with stored := true })

/-- The listener looks for a ring: one given to it, or one kept, which it takes; else it waits. -/
def listen (b : Bell) : Bool × Bell :=
  if b.handed then (true, { b with handed := false })
  else if b.stored then (true, { b with stored := false, waiting := false })
  else (false, { b with waiting := true })

/-- The listener no longer waits. -/
def leave (b : Bell) : Bell :=
  { waiting := false, handed := false, stored := b.stored || b.handed }

/-- Takes a kept ring without waiting. -/
def take (b : Bell) : Bool × Bell := (b.stored, { b with stored := false })

end Bell
end Muster

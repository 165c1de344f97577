/-
Closing an application context: the connection cache of a process and the shutdown signal that ends it. A
dial looks for the signal before it begins; from then on it waits for its first resolution and for the
signal, and when both are there it may end either way. Who closes the context for good fires the signal,
looks which names are cached, and removes the channel of each.
-/
import Muster.Client.Floor

namespace Muster.Client

/-- The connection cache of an application context, with the shutdown signal. -/
structure House (ς : Type) where
  floor : Floor ς := {}
  /-- The signal has fired. -/
  shut : Bool := false
  /-- The callers whose dials have begun, which had to be before the signal fired. -/
  begun : List Nat := []
deriving Repr

namespace House

/-- One step of a run. -/
inductive Act (ς : Type) where
  /-- Somebody wants the channel of a name. Two callers do not go by one number. -/
  | enter (id : Nat) (name : String)
  /-- A caller takes its next step. -/
  | go (id : Nat)
  /-- The dial of a caller begins, unless the signal has fired. -/
  | begin (id : Nat)
  /-- A dial that has begun ends with a channel, as its first resolution has come. -/
  | bring (id : Nat) (channel : Channel ς)
  /-- A dial ends with a fault: it could not begin, its resolution failed, its time is up, or it has
  heard the signal. -/
  | fail (id : Nat) (f : Fault)
  /-- A channel changes by itself, which neither closes nor opens it. -/
  | drift (i : Nat) (channel : Channel ς)
  /-- Somebody who has got a channel closes it. -/
  | close (i : Nat)
  /-- Somebody begins to remove the channel of a name. -/
  | remove (id : Nat) (name : String)
  /-- The signal fires. -/
  | trigger
  /-- Somebody who closes for good and has fired the signal looks which names are cached. -/
  | gather (id : Nat)
  /-- Somebody who removes channels takes the next step. -/
  | proceed (id : Nat)

variable {ς : Type}

def desk (h : House ς) : Desk ς := h.floor.desk

def isDialing (h : House ς) (id : Nat) : Bool :=
  (h.desk.caller? id).map (·.progress) == some .dialing

/-- What a step is on the floor; nothing when it is none there or is not due. -/
def onFloor? (h : House ς) : Act ς → Option (Floor.Act ς)
  | .enter id name => some (.enter id name)
  | .go id => some (.go id)
  | .begin id => if h.shut then some (.answer id (.error .shutdown)) else none
  | .bring id channel =>
    if h.begun.contains id then some (.answer id (.ok { channel with closed := false })) else none
  | .fail id f => some (.answer id (.error f))
  | .drift i channel => some (.drift i channel)
  | .close i => some (.close i)
  | .remove id name => some (.clear id [name])
  | .trigger => none
  | .gather id => if h.shut then some (.clear id (h.desk.cache.entries.map (·.1))) else none
  | .proceed id => some (.proceed id)

/-- The house after a step. -/
def act (h : House ς) (a : Act ς) : House ς where
  floor := match h.onFloor? a with
    | some b => h.floor.act b
    | none => h.floor
  shut := match a with
    | .trigger => true
    | _ => h.shut
  begun := match a with
    | .begin id => if !h.shut && h.isDialing id then id :: h.begun else h.begun
    | _ => h.begun

/-- The house after several steps. -/
def run (h : House ς) (acts : List (Act ς)) : House ς := acts.foldl act h

end House
end Muster.Client

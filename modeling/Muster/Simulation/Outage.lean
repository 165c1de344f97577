/-
A store some of whose calls fail on command, to see what depends on it do without it.
-/
import Muster.Registry.Service

namespace Muster.Simulation

/-- What becomes of a call: it works, it reports that the store is away, or it breaks off without
an answer. -/
inductive Mode where
  | up
  | offline
  | broken
deriving DecidableEq, Repr

/-- A mode for the next calls, or for all that follow. -/
structure Outage where
  mode : Mode := .up
  left : Option Nat := none
deriving Repr

/-- The mode of the next call, and what is left of the outage behind it. -/
def Outage.next (o : Outage) : Mode × Outage :=
  match o.left with
  | none => (o.mode, o)
  | some 0 => (.up, {})
  | some (n + 1) => (o.mode, { o with left := some n })

/-- What a call of an absent store reports. -/
def offlineFault : Fault := .transient "store offline"

/-- A store with outages of listing and of watching, and a count of the lists made. -/
structure Unsteady where
  store : Store
  listing : Outage := {}
  watching : Outage := {}
  lists : Nat := 0
deriving Repr

namespace Unsteady

/-- A list call begins, and counts. -/
def beginList (u : Unsteady) : Unsteady := { u with lists := u.lists + 1 }

/-- A list call ends, in the mode that holds by then. -/
def endList (u : Unsteady) : Mode × Unsteady :=
  let (mode, listing) := u.listing.next
  (mode, { u with listing })

def list (dir : String) (u : Unsteady) : Except Fault (List Entry) × Unsteady :=
  let (mode, u) := u.beginList.endList
  match mode with
  | .up => (u.store.list dir, u)
  | _ => (.error offlineFault, u)

/-- Runs an operation of the store itself. -/
def onStore {α : Type} (f : Store → α × Store) (u : Unsteady) : α × Unsteady :=
  let (a, store) := f u.store
  (a, { u with store })

def backend : Registry.Backend Unsteady where
  create key value := onStore (Registry.memory.create key value)
  get key := onStore (Registry.memory.get key)
  delete key := onStore (Registry.memory.delete key)
  list := list

end Unsteady
end Muster.Simulation

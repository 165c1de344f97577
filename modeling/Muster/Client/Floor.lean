/-
Removing channels from the connection cache, that of one name or all of them, beside the callers who want
them. Whoever removes goes through names, takes the channel of each out of the cache and closes it before
the next; in between, anybody else may go on. A `Floor` is the connection cache with its callers and its
removers.
-/
import Muster.Client.Cache

namespace Muster.Client

/-- Somebody who removes channels. -/
structure Remover where
  /-- The names still to go through. -/
  names : List String
  /-- The channel taken out last, which is closed next. -/
  hand : Option Nat := none
deriving DecidableEq, Repr

/-- The cache with its callers and with those who remove channels. -/
structure Floor (ς : Type) where
  desk : Desk ς := {}
  removers : List (Nat × Remover) := []
deriving Repr

namespace Floor

/-- One step of a run. -/
inductive Act (ς : Type) where
  /-- Somebody wants the channel of a name. Two callers do not go by one number. -/
  | enter (id : Nat) (name : String)
  /-- A caller takes its next step. -/
  | go (id : Nat)
  /-- The dial of a caller ends. -/
  | answer (id : Nat) (r : Except Fault (Channel ς))
  /-- A channel changes by itself, which neither closes nor opens it. -/
  | drift (i : Nat) (channel : Channel ς)
  /-- Somebody who has got a channel closes it. -/
  | close (i : Nat)
  /-- Somebody begins to remove the channels of some names: of one, or, to close all, of those that
  were met in the cache while it was gone through. Two removers do not go by one number. -/
  | clear (id : Nat) (names : List String)
  /-- A remover takes its next step. -/
  | proceed (id : Nat)

variable {ς : Type}

def remover? (f : Floor ς) (id : Nat) : Option Remover := f.removers.lookup id

def setRemover (f : Floor ς) (id : Nat) (r : Remover) : Floor ς :=
  { f with removers := f.removers.map fun (j, s) => if j = id then (j, r) else (j, s) }

/-- A remover closes what it has in hand, or takes the channel of the next name out. -/
def proceed (f : Floor ς) (id : Nat) : Floor ς :=
  match f.remover? id with
  | some { names, hand := some i } => { f with desk := f.desk.closeChannel i }.setRemover id { names }
  | some { names := name :: names, hand := none } =>
    let (hand, desk) := f.desk.takeOut name
    { f with desk }.setRemover id { names, hand }
  | _ => f

/-- The floor after a step; one that is not due changes nothing. -/
def act (f : Floor ς) : Act ς → Floor ς
  | .enter id name => { f with desk := f.desk.act (.enter id name) }
  | .go id => { f with desk := f.desk.act (.go id) }
  | .answer id r => { f with desk := f.desk.act (.answer id r) }
  | .drift i channel => { f with desk := f.desk.act (.drift i channel) }
  | .close i => { f with desk := f.desk.act (.close i) }
  | .clear id names =>
    if (f.remover? id).isSome then f else { f with removers := f.removers ++ [(id, { names })] }
  | .proceed id => f.proceed id

/-- The floor after several steps. -/
def run (f : Floor ς) (acts : List (Act ς)) : Floor ς := acts.foldl act f

end Floor
end Muster.Client

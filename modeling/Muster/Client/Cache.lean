/-
The connection cache: the channels of a client, one for each service name. A caller that finds no usable
channel queues for the right to dial under that name, and looks again when the right is its own; so callers
who come together dial once. A dead channel is taken out by the first who sees it, who closes it before
going on. A `Desk` is the connection cache with all channels that have been dialed and with its callers.
-/
import Muster.Channel.Basic

namespace Muster.Client

/-- How far a caller has come. -/
inductive Progress where
  /-- About to look the name up. -/
  | looking
  /-- Has found a channel and is about to see whether it is alive. -/
  | seeing (channel : Nat)
  /-- Has seen a dead channel, which may have been replaced meanwhile. -/
  | evicting (channel : Nat)
  /-- Has taken a dead channel out and is about to close it. -/
  | closing (channel : Nat)
  /-- Has found nothing usable and is about to queue. -/
  | joining
  /-- Waits for the right to dial. -/
  | queued
  | dialing
  | served (channel : Nat)
  | failed (f : Fault)
deriving DecidableEq, Repr

/-- What a caller has got, when it is done. -/
def Progress.result? : Progress → Option (Except Fault Nat)
  | served i => some (.ok i)
  | failed f => some (.error f)
  | _ => none

/-- Somebody who wants the channel of a name. -/
structure Caller where
  name : String
  progress : Progress := .looking
deriving DecidableEq, Repr

/-- The cached channels, known by their numbers, and for each name those who queue for the right to
dial; the first of them has it. -/
structure Cache where
  entries : List (String × Nat) := []
  queues : List (String × List Nat) := []
deriving Repr

namespace Cache

def find? (c : Cache) (name : String) : Option Nat := c.entries.lookup name

def contains (c : Cache) (name : String) : Bool := (c.find? name).isSome

def size (c : Cache) : Nat := c.entries.length

def isEmpty (c : Cache) : Bool := c.entries.isEmpty

/-- Takes the entry of a name out. -/
def erase (c : Cache) (name : String) : Cache :=
  { c with entries := c.entries.filter (·.1 != name) }

/-- Puts a channel under a name, in the place of any other. -/
def insert (c : Cache) (name : String) (channel : Nat) : Cache :=
  { c with entries := (c.erase name).entries ++ [(name, channel)] }

def queue (c : Cache) (name : String) : List Nat := (c.queues.lookup name).getD []

def setQueue (c : Cache) (name : String) (queue : List Nat) : Cache :=
  { c with queues := (name, queue) :: c.queues.filter (·.1 != name) }

/-- Whether a caller has the right to dial under a name. -/
def holds (c : Cache) (name : String) (caller : Nat) : Bool :=
  (c.queue name).head? == some caller

end Cache

/-- The cache with all channels that have been dialed, and its callers. -/
structure Desk (ς : Type) where
  cache : Cache := {}
  /-- The channels by number. -/
  channels : List (Channel ς) := []
  callers : List (Nat × Caller) := []
deriving Repr

namespace Desk

variable {ς : Type}

def caller? (d : Desk ς) (id : Nat) : Option Caller := d.callers.lookup id

def channel? (d : Desk ς) (i : Nat) : Option (Channel ς) := d.channels[i]?

def stateOf (d : Desk ς) (i : Nat) : Channel.State := ((d.channel? i).map (·.state)).getD .shutdown

def closeChannel (d : Desk ς) (i : Nat) : Desk ς :=
  { d with channels := d.channels.modify i Channel.close }

def setProgress (d : Desk ς) (id : Nat) (p : Progress) : Desk ς :=
  { d with callers := d.callers.map fun (j, c) =>
      if j = id then (j, { c with progress := p }) else (j, c) }

/-- A new caller. -/
def enter (d : Desk ς) (id : Nat) (name : String) : Desk ς :=
  { d with callers := d.callers ++ [(id, { name })] }

/-- A caller is done, and leaves the queue. -/
def finish (d : Desk ς) (id : Nat) (name : String) (p : Progress) : Desk ς :=
  let queue := (d.cache.queue name).filter (· != id)
  { d with cache := d.cache.setQueue name queue }.setProgress id p

/-- A caller has found nothing usable: it dials if that is its right, else it is to queue. -/
def missed (d : Desk ς) (id : Nat) (name : String) : Desk ς :=
  d.setProgress id (if d.cache.holds name id then .dialing else .joining)

/-- A caller takes its place in the queue. -/
def join (d : Desk ς) (id : Nat) (name : String) : Desk ς :=
  { d with cache := d.cache.setQueue name (d.cache.queue name ++ [id]) }.setProgress id .queued

/-- The next step of a caller; nothing when it waits or is done. -/
def step (d : Desk ς) (id : Nat) : Option (Desk ς) := do
  let caller ← d.caller? id
  match caller.progress with
  | .looking =>
    match d.cache.find? caller.name with
    | none => some (d.missed id caller.name)
    | some i => some (d.setProgress id (.seeing i))
  | .seeing i =>
    if (d.stateOf i).isUsable then some (d.finish id caller.name (.served i))
    else some (d.setProgress id (.evicting i))
  | .evicting i =>
    if d.cache.find? caller.name = some i then
      some ({ d with cache := d.cache.erase caller.name }.setProgress id (.closing i))
    else some (d.missed id caller.name)
  | .closing i => some ((d.closeChannel i).missed id caller.name)
  | .joining => some (d.join id caller.name)
  | .queued => if d.cache.holds caller.name id then some (d.setProgress id .looking) else none
  | .dialing | .served _ | .failed _ => none

/-- A dial has ended. Its channel is cached; a fault changes nothing. -/
def dialed (d : Desk ς) (id : Nat) (name : String) (r : Except Fault (Channel ς)) : Desk ς :=
  match r with
  | .error f => d.finish id name (.failed f)
  | .ok channel =>
    let i := d.channels.length
    { d with channels := d.channels ++ [channel],
             cache := d.cache.insert name i }.finish id name (.served i)

/-- Steps of one caller until it waits, dials or is done. Eight lead through all that can happen in
between. -/
def advance (id : Nat) : (fuel : Nat) → Desk ς → Desk ς
  | 0, d => d
  | fuel + 1, d =>
    match d.step id with
    | none => d
    | some d => advance id fuel d

/-- What a caller has got, when it is done. -/
def result? (d : Desk ς) (id : Nat) : Option (Except Fault Nat) :=
  (d.caller? id).bind (·.progress.result?)

/-! ## Removing -/

/-- Takes the channel of a name out, and tells which one that is. -/
def takeOut (d : Desk ς) (name : String) : Option Nat × Desk ς :=
  (d.cache.find? name, { d with cache := d.cache.erase name })

/-- Takes the channel of a name out and closes it; tells whether there was one. -/
def remove (d : Desk ς) (name : String) : Bool × Desk ς :=
  match d.takeOut name with
  | (none, d) => (false, d)
  | (some i, d) => (true, d.closeChannel i)

/-- Removes every channel. -/
def closeAll (d : Desk ς) : Desk ς :=
  (d.cache.entries.map (·.1)).foldl (fun d name => (d.remove name).2) d

end Desk

/-! ## Everybody at once -/

/-- One step of a run. Whoever removes channels takes them out, one name after another, and closes
each one next. -/
inductive Act (ς : Type) where
  /-- Somebody wants the channel of a name. Two callers do not go by one number. -/
  | enter (id : Nat) (name : String)
  /-- A caller takes its next step. -/
  | go (id : Nat)
  /-- The dial of a caller ends. -/
  | answer (id : Nat) (r : Except Fault (Channel ς))
  /-- A channel changes by itself, which neither closes nor opens it. -/
  | drift (i : Nat) (channel : Channel ς)
  | takeOut (name : String)
  | close (i : Nat)

namespace Desk

variable {ς : Type}

/-- The desk after a step; one that is not due changes nothing. -/
def act (d : Desk ς) : Act ς → Desk ς
  | .enter id name => if (d.caller? id).isSome then d else d.enter id name
  | .go id => (d.step id).getD d
  | .answer id r =>
    match d.caller? id with
    | some { name, progress := .dialing } => d.dialed id name r
    | _ => d
  | .drift i channel =>
    { d with channels := d.channels.modify i fun c => { channel with closed := c.closed } }
  | .takeOut name => (d.takeOut name).2
  | .close i => d.closeChannel i

/-- The desk after several steps. -/
def run (d : Desk ς) (acts : List (Act ς)) : Desk ς := acts.foldl act d

end Desk
end Muster.Client

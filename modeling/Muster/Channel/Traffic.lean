/-
The operations of one channel at the same time: address updates, calls with their reconnects, and closing.
Each goes on by itself until it has to wait: for the lock that updates and reconnects take in turn, for
the stream of a subchannel, or for a peer. Whose wait ends first is open, so is what peers say.
-/
import Muster.Channel.Basic

namespace Muster.Channel

/-- An address set in which no address stands twice, as all are that a resolver brings. -/
abbrev Addresses : Type := { set : AddressSet // set.addrs.Nodup }

/-- The set of one address. -/
def Addresses.single (addr : String) : Addresses := ⟨⟨[{ addr }]⟩, List.pairwise_singleton ..⟩

/-- A call under way. -/
structure Call where
  request : Wire.Request
  /-- The attempts that are left. -/
  left : Nat
  /-- The fault of the latest exchange. -/
  last : Option Fault := none
deriving Repr

/-- What somebody waits for. -/
inductive Task where
  /-- An address set: for the lock. -/
  | updating (set : Addresses)
  /-- An address set in place, for the stream of a stale subchannel, which is shut down. Then come
  the others that are stale, and those to be connected. -/
  | dropping (i : Nat) (stale pending : List Nat)
  /-- An address set or a call, for subchannels to be connected: some wait for their stream, and some
  for the peer. -/
  | connecting (call : Option Call) (waiting busy : List Nat)
  /-- A call without a pick: for the lock. -/
  | reconnecting (call : Call)
  /-- A call: for the stream of its pick, for a connection, for the response. -/
  | queued (call : Call) (i : Nat)
  | dialing (call : Call) (i : Nat)
  | exchanging (call : Call) (i : Nat)
  /-- A closer, for the stream of a subchannel, which is shut down. Then come the others. -/
  | closing (i : Nat) (rest : List Nat)
  /-- Nothing any more. A call has a result. -/
  | ended (result : Option (Except Fault Json.Value))
deriving Repr

namespace Task

/-- Has the lock. -/
def locks : Task → Bool
  | dropping .. | connecting .. => true
  | _ => false

/-- Has the stream of a subchannel. -/
def holds (i : Nat) : Task → Bool
  | connecting _ _ is => is.contains i
  | dialing _ j | exchanging _ j => i == j
  | _ => false

def hasEnded : Task → Bool
  | ended _ => true
  | _ => false

end Task

/-! ## Between two waits -/

namespace Task

variable {ς : Type}

/-- A call that has no attempt left, or no pick, fails: with the latest fault, if there is one. -/
def giveUp (call : Call) (c : Channel ς) : Channel ς × Task :=
  (c, .ended (some (.error (call.last.getD c.unavailable))))

/-- The second pick of an attempt. -/
def pickAgain (call : Call) (c : Channel ς) : Channel ς × Task :=
  match c.next with
  | (some i, c) => (c, .queued call i)
  | (none, c) => giveUp call c

/-- The next attempt of a call; it reconnects when the rotation is empty. -/
def attempt (call : Call) (c : Channel ς) : Channel ς × Task :=
  match call.left with
  | 0 => giveUp call c
  | n + 1 =>
    let call := { call with left := n }
    match c.next with
    | (some i, c) => (c, .queued call i)
    | (none, c) => if c.closed then pickAgain call c else (c, .reconnecting call)

/-- An exchange has failed. -/
def failed (call : Call) (f : Fault) (c : Channel ς) : Channel ς × Task :=
  if f.isRetryable then attempt { call with last := some f } c.rotate
  else (c, .ended (some (.error f)))

/-- Goes on when all subchannels have been tried. -/
def join (call : Option Call) (waiting busy : List Nat) (c : Channel ς) : Channel ς × Task :=
  match waiting, busy with
  | [], [] =>
    match call with
    | none => (c.rotate.resolved, .ended none)
    | some call => pickAgain call c.rotate
  | _, _ => (c, .connecting call waiting busy)

/-- Shuts stale subchannels down, and then connects those that are pending. -/
def drop (stale pending : List Nat) (c : Channel ς) : Channel ς × Task :=
  match stale with
  | [] => join none pending [] c
  | i :: stale => (c.update i Subchannel.beginShutdown, .dropping i stale pending)

/-- Shuts subchannels down, and then the rotation is emptied. -/
def shut (is : List Nat) (c : Channel ς) : Channel ς × Task :=
  match is with
  | [] => (c.rotate, .ended none)
  | i :: rest => (c.update i Subchannel.beginShutdown, .closing i rest)

/-! ## After a wait -/

/-- The lock has been got. -/
def lock? (c : Channel ς) : Task → Option (Channel ς × Task)
  | updating set =>
    let (c, update) := c.replace set.1
    some (drop update.stale update.pending c)
  | reconnecting call =>
    match c.reconnectable with
    | [] => some (pickAgain call c)
    | is => some (c, .connecting (some call) is [])
  | _ => none

/-- The stream of a subchannel has been got. -/
def stream? (i : Nat) (c : Channel ς) : Task → Option (Channel ς × Task)
  | dropping j stale pending =>
    if i = j then some (drop stale pending (c.update i Subchannel.endShutdown)) else none
  | closing j rest =>
    if i = j then some (shut rest (c.update i Subchannel.endShutdown)) else none
  | connecting call waiting busy =>
    if i ∈ waiting then
      match (c.subchannel? i).map Subchannel.approach with
      | some .dialing =>
        some (c.update i Subchannel.beginConnect,
          .connecting call (waiting.erase i) (i :: busy))
      | _ => some (join call (waiting.erase i) busy c)
    else none
  | queued call j =>
    if i = j then
      match (c.subchannel? i).map Subchannel.approach with
      | some .dialing => some (c.update i Subchannel.beginConnect, .dialing call i)
      | some (.standing _) => some (c, .exchanging call i)
      | some (.refused f) => some (failed call f c)
      | none => none
    else none
  | _ => none

/-- A connect has ended. -/
def connected? (i : Nat) (r : Except Fault ς) (c : Channel ς) : Task → Option (Channel ς × Task)
  | connecting call waiting busy =>
    if i ∈ busy then
      some (join call waiting (busy.erase i) (c.update i fun s => s.endConnect r))
    else none
  | dialing call j =>
    if i = j then
      let c := c.update i fun s => s.endConnect r
      match r with
      | .ok _ => some (c, .exchanging call i)
      | .error f => some (failed call f c)
    else none
  | _ => none

/-- An exchange has ended. -/
def answered? (r : Except Fault Wire.Response) (c : Channel ς) : Task → Option (Channel ς × Task)
  | exchanging call i =>
    let c := c.update i fun s => s.endExchange r
    match r with
    | .ok response => some (c, .ended (some response.outcome))
    | .error f => some (failed call f c)
  | _ => none

end Task

/-! ## Everybody -/

/-- A channel with all that goes on in it. Tasks are known by their positions. -/
structure Traffic (ς : Type) where
  channel : Channel ς
  tasks : List Task := []
deriving Repr

namespace Traffic

/-- One step of a run. -/
inductive Act (ς : Type) where
  /-- The resolver brings an address set. -/
  | update (set : Addresses)
  | invoke (r : Wire.Request)
  | close
  /-- A task gets the lock. -/
  | lock (t : Nat)
  /-- A task gets the stream of a subchannel. -/
  | stream (t i : Nat)
  /-- A connect that a task waits for ends. -/
  | connected (t i : Nat) (r : Except Fault ς)
  /-- The exchange that a task waits for ends. -/
  | answered (t : Nat) (r : Except Fault Wire.Response)

variable {ς : Type}

/-- What a newcomer does before it has to wait. -/
def beginUpdate (set : Addresses) (c : Channel ς) : Channel ς × Task :=
  (c, if c.closed then .ended none else .updating set)

def beginInvoke (r : Wire.Request) (c : Channel ς) : Channel ς × Task :=
  if c.closed then (c, .ended (some (.error c.closedFault)))
  else Task.attempt { request := r, left := max c.options.callAttempts 1 } c

def beginClose (c : Channel ς) : Channel ς × Task :=
  if c.closed then (c, .ended none)
  else
    let (members, c) := c.beginClose
    Task.shut members c

def enter (s : Traffic ς) (turn : Channel ς × Task) : Traffic ς :=
  { channel := turn.1, tasks := s.tasks ++ [turn.2] }

/-- A task goes on, if it is its turn. -/
def proceed (s : Traffic ς) (t : Nat) (turn : Task → Option (Channel ς × Task)) : Traffic ς :=
  match s.tasks[t]?.bind turn with
  | none => s
  | some (channel, task) => { channel, tasks := s.tasks.set t task }

/-- Nobody has the lock. -/
def unlocked (s : Traffic ς) : Bool := !s.tasks.any Task.locks

/-- Nobody has the stream of a subchannel. -/
def free (s : Traffic ς) (i : Nat) : Bool := !s.tasks.any (Task.holds i)

/-- The traffic after a step; one that is not due changes nothing. -/
def act (s : Traffic ς) : Act ς → Traffic ς
  | .update set => s.enter (beginUpdate set s.channel)
  | .invoke r => s.enter (beginInvoke r s.channel)
  | .close => s.enter (beginClose s.channel)
  | .lock t => if s.unlocked then s.proceed t (Task.lock? s.channel) else s
  | .stream t i => if s.free i then s.proceed t (Task.stream? i s.channel) else s
  | .connected t i r => s.proceed t (Task.connected? i r s.channel)
  | .answered t r => s.proceed t (Task.answered? r s.channel)

def run (s : Traffic ς) (acts : List (Act ς)) : Traffic ς := acts.foldl act s

end Traffic
end Muster.Channel

/-
The operations of one subchannel at the same time: to connect it, to call over it, to shut it down. Each
goes on by itself until it has to wait: for the stream, which one of them has at a time, for a
connect, or for an exchange. Whose wait ends first is open, so is what comes of it; and whoever waits
may be dropped by those it works for.
-/
import Muster.Channel.Subchannel

namespace Muster.Channel

/-- What has come of somebody's use of a subchannel. -/
inductive Upshot where
  | connected (r : Except Fault Unit)
  | called (r : Except Fault Wire.Response)
  | shutDown
deriving Repr

/-- There is no connection for somebody who wants to be connected, or has a call to make then. -/
def Upshot.failed (f : Fault) : (call : Option Wire.Request) → Upshot
  | none => connected (.error f)
  | some _ => called (.error f)

/-- How far somebody is. -/
inductive Stage where
  /-- Waits for the stream, to connect; then there may be a call to make. -/
  | queued (call : Option Wire.Request)
  /-- Waits for the stream, to give it up. -/
  | leaving
  /-- Has the stream, and waits for a connect. -/
  | dialing (call : Option Wire.Request)
  /-- Has the stream, and waits for the response. -/
  | exchanging (r : Wire.Request)
  | ended (u : Upshot)
  | dropped
deriving Repr

namespace Stage

variable {ς : Type}

/-- Has the stream. -/
def holds : Stage → Bool
  | dialing _ | exchanging _ => true
  | _ => false

/-- There is a connection: the call is made, if there is one. -/
def onward : (call : Option Wire.Request) → Stage
  | none => ended (.connected (.ok ()))
  | some r => exchanging r

/-- The stream has been got. -/
def stream? (c : Subchannel ς) : Stage → Option (Subchannel ς × Stage)
  | queued call =>
    match c.approach with
    | .refused f => some (c, .ended (.failed f call))
    | .standing _ => some (c, onward call)
    | .dialing => some (c.beginConnect, .dialing call)
  | leaving => some (c.endShutdown, .ended .shutDown)
  | _ => none

/-- A connect has ended. -/
def connected? (r : Except Fault ς) (c : Subchannel ς) : Stage → Option (Subchannel ς × Stage)
  | dialing call =>
    match r with
    | .ok _ => some (c.endConnect r, onward call)
    | .error f => some (c.endConnect r, .ended (.failed f call))
  | _ => none

/-- An exchange has ended. -/
def answered? (r : Except Fault Wire.Response) (c : Subchannel ς) :
    Stage → Option (Subchannel ς × Stage)
  | exchanging _ => some (c.endExchange r, .ended (.called r))
  | _ => none

/-- Whoever waits is dropped. The subchannel stays as it is, with the stream that it has. -/
def drop? (c : Subchannel ς) : Stage → Option (Subchannel ς × Stage)
  | queued _ | leaving | dialing _ | exchanging _ => some (c, .dropped)
  | _ => none

end Stage

/-- A subchannel with its users, who are known by their positions. -/
structure Line (ς : Type) where
  sub : Subchannel ς
  users : List Stage := []
deriving Repr

namespace Line

/-- One step of a run. -/
inductive Act (ς : Type) where
  /-- Somebody comes to connect, or to make a call. -/
  | come (call : Option Wire.Request)
  | shutDown
  /-- A user gets the stream. -/
  | stream (t : Nat)
  /-- The connect that a user waits for ends. -/
  | connected (t : Nat) (r : Except Fault ς)
  /-- The exchange that a user waits for ends. -/
  | answered (t : Nat) (r : Except Fault Wire.Response)
  | drop (t : Nat)

variable {ς : Type}

/-- A subchannel that has just been created. -/
def ofAddr (addr : String) : Line ς := { sub := { addr } }

/-- Nobody has the stream. -/
def free (s : Line ς) : Bool := !s.users.any Stage.holds

/-- A user goes on, if it is its turn. -/
def proceed (s : Line ς) (t : Nat) (turn : Stage → Option (Subchannel ς × Stage)) : Line ς :=
  match s.users[t]?.bind turn with
  | none => s
  | some (sub, stage) => { sub, users := s.users.set t stage }

/-- The line after a step; one that is not due changes nothing. -/
def act (s : Line ς) : Act ς → Line ς
  | .come call => { s with users := s.users ++ [.queued call] }
  | .shutDown => { sub := s.sub.beginShutdown, users := s.users ++ [.leaving] }
  | .stream t => if s.free then s.proceed t (Stage.stream? s.sub) else s
  | .connected t r => s.proceed t (Stage.connected? r s.sub)
  | .answered t r => s.proceed t (Stage.answered? r s.sub)
  | .drop t => s.proceed t (Stage.drop? s.sub)

def run (s : Line ς) (acts : List (Act ς)) : Line ς := acts.foldl act s

end Line
end Muster.Channel

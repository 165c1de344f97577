/-
A channel: the logical connection to all instances of a service. A resolver feeds it with address
sets; it keeps one subchannel for each address, rotates over those that are ready, and tries to
connect the others again when none is. As with subchannels, the steps between two waits are
definitions of their own.
-/
import Muster.Balance.RoundRobin
import Muster.Channel.Options
import Muster.Channel.Subchannel
import Muster.Resolver.AddressSet
import Muster.Target

namespace Muster

namespace Channel

/-- What the resolver has told so far. -/
inductive Resolution where
  | pending
  | resolved
  | failed (message : String)
deriving DecidableEq, Repr

end Channel

/-- A channel. Every subchannel it has ever created stands in `created` and is known by its
position there; `members` are those of the present addresses, in the order of the addresses. -/
structure Channel (ς : Type) where
  target : Target
  options : Channel.Options := {}
  /-- Where each rotation starts. -/
  offset : Nat := 0
  created : List (Channel.Subchannel ς) := []
  members : List (String × Nat) := []
  rotation : RoundRobin Nat := .withOffset [] 0
  addresses : AddressSet := {}
  resolution : Channel.Resolution := .pending
  lastError : Option String := none
  closed : Bool := false
deriving Repr

namespace Channel

variable {ω ς : Type}

/-! ## Subchannels by position -/

def subchannel? (c : Channel ς) (i : Nat) : Option (Subchannel ς) := c.created[i]?

def stateOf (c : Channel ς) (i : Nat) : State := ((c.subchannel? i).map (·.state)).getD .shutdown

/-- Changes one subchannel. -/
def update (c : Channel ς) (i : Nat) (f : Subchannel ς → Subchannel ς) : Channel ς :=
  { c with created := c.created.modify i f }

/-- The positions of the present members. -/
def present (c : Channel ς) : List Nat := c.members.map (·.2)

/-- The connectivity of the channel as a whole. -/
def state (c : Channel ς) : State :=
  if c.closed then .shutdown else .aggregate (c.present.map c.stateOf)

/-! ## Steps -/

/-- The members that may be picked. -/
def ready (c : Channel ς) : List Nat :=
  if c.closed then [] else c.present.filter fun i => c.stateOf i = .ready

/-- Starts a new rotation over the members that are ready. -/
def rotate (c : Channel ς) : Channel ς :=
  { c with rotation := .withOffset c.ready c.offset }

/-- A member for each address of the set: the one that is there, or a new one. -/
def membersFor (c : Channel ς) : List Address → Channel ς × List (String × Nat)
  | [] => (c, [])
  | a :: as =>
    match c.members.lookup a.addr with
    | some i =>
      let (c, rest) := membersFor c as
      (c, (a.addr, i) :: rest)
    | none =>
      let i := c.created.length
      let (c, rest) := membersFor { c with created := c.created ++ [{ addr := a.addr }] } as
      (c, (a.addr, i) :: rest)

/-- What an address set asks of a channel: subchannels to give up, and subchannels to connect. -/
structure Update where
  stale : List Nat
  pending : List Nat

/-- Puts an address set in the place of the present one. What is stale leaves the rotation. -/
def replace (c : Channel ς) (set : AddressSet) : Channel ς × Update :=
  let stale := (c.members.filter fun m => !set.contains m.1).map (·.2)
  let (c, members) := c.membersFor set.addresses
  let c := { c with members, addresses := set }
  let pending := c.present.filter fun i => c.stateOf i ≠ .ready
  (c.rotate, { stale, pending })

/-- The members that another attempt to connect is worth. -/
def reconnectable (c : Channel ς) : List Nat :=
  c.present.filter fun i => c.stateOf i = .idle ∨ c.stateOf i = .transientFailure

/-- An address set has been applied. -/
def resolved (c : Channel ς) : Channel ς := { c with resolution := .resolved }

/-- The resolver reports a fault. Only one that precedes all else decides a dial. -/
def report (c : Channel ς) (f : Fault) : Channel ς :=
  { c with
    lastError := some f.message
    resolution := if c.resolution = .pending then .failed f.message else c.resolution }

/-- The next member of the rotation. -/
def next (c : Channel ς) : Option Nat × Channel ς :=
  let (i, rotation) := c.rotation.next
  (i, { c with rotation })

/-- Closing begins: the members are given up, to be shut down one after another. -/
def beginClose (c : Channel ς) : List Nat × Channel ς :=
  (c.present, { c with closed := true, members := [] })

def closedFault (c : Channel ς) : Fault :=
  .connection ("channel to " ++ c.target.toText ++ " is closed")

def unavailable (c : Channel ς) : Fault := .unavailable c.target.service

/-! ## Operations -/

variable (net : Network ω ς)

/-- Connects subchannels, one after another. -/
def connectAll : List Nat → Channel ς → ω → Channel ς × ω
  | [], c, w => (c, w)
  | i :: is, c, w =>
    match c.subchannel? i with
    | none => connectAll is c w
    | some s =>
      let (_, s, w) := s.connect net c.options.connectTimeout w
      connectAll is (c.update i fun _ => s) w

def shutdownAll (is : List Nat) (c : Channel ς) : Channel ς :=
  is.foldl (fun c i => c.update i Subchannel.shutdown) c

/-- Takes an address set from the resolver; a closed channel takes none. -/
def apply (set : AddressSet) (c : Channel ς) (w : ω) : Channel ς × ω :=
  if c.closed then (c, w)
  else
    let (c, update) := c.replace set
    let (c, w) := connectAll net update.pending (c.shutdownAll update.stale) w
    (c.rotate.resolved, w)

/-- Tries once to connect what is idle or has failed. -/
def reconnect (c : Channel ς) (w : ω) : Channel ς × ω :=
  if c.closed then (c, w)
  else
    match c.reconnectable with
    | [] => (c, w)
    | pending =>
      let (c, w) := connectAll net pending c w
      (c.rotate, w)

/-- A ready member, for which members are connected again when there is none. -/
def pick (c : Channel ς) (w : ω) : Except Fault Nat × Channel ς × ω :=
  match c.next with
  | (some i, c) => (.ok i, c, w)
  | (none, c) =>
    let (c, w) := c.reconnect net w
    match c.next with
    | (some i, c) => (.ok i, c, w)
    | (none, c) => (.error c.unavailable, c, w)

/-- One exchange with a member. -/
def callMember (i : Nat) (r : Wire.Request) (within : Nat) (c : Channel ς) (w : ω) :
    Except Fault Wire.Response × Channel ς × ω :=
  match c.subchannel? i with
  | none => (.error c.unavailable, c, w)
  | some s =>
    let (response, s, w) := s.call net c.options.connectTimeout r within w
    (response, c.update i fun _ => s, w)

/-- Up to `attempts` exchanges, each with a fresh pick, as long as they fail in a way that another
attempt may mend. `last` is the fault of the latest exchange. -/
def attempt (r : Wire.Request) (within : Nat) :
    (attempts : Nat) → (last : Option Fault) → Channel ς → ω →
      Except Fault Json.Value × Channel ς × ω
  | 0, last, c, w => (.error (last.getD c.unavailable), c, w)
  | n + 1, last, c, w =>
    match c.pick net w with
    | (.error f, c, w) => (.error (last.getD f), c, w)
    | (.ok i, c, w) =>
      match c.callMember net i r within w with
      | (.ok response, c, w) => (response.outcome, c, w)
      | (.error f, c, w) =>
        if f.isRetryable then attempt r within n (some f) c.rotate w else (.error f, c, w)

/-- Calls the service: a request on one of its instances. -/
def invoke (r : Wire.Request) (c : Channel ς) (w : ω) : Except Fault Json.Value × Channel ς × ω :=
  if c.closed then (.error c.closedFault, c, w)
  else c.attempt net r (r.timeoutOr c.options.callTimeout) (max c.options.callAttempts 1) none w

/-- Closes the channel for good. -/
def close (c : Channel ς) : Channel ς :=
  if c.closed then c
  else
    let (members, c) := c.beginClose
    (c.shutdownAll members).rotate

/-- The channel as shown to a reader of messages. -/
def describe (c : Channel ς) : String :=
  "Channel \x7b target: " ++ Text.quoted c.target.toText ++ ", state: " ++ c.state.label ++ " \x7d"

end Channel
end Muster

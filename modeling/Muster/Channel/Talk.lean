/-
The framed requests and responses on the connections of one subchannel, byte by byte. An exchange writes the
frame of its request and then reads one frame; the peer answers the frames that have come in whole. A user
that is dropped leaves the stream as it is, with whatever is under way on it.
-/
import Muster.Channel.Line
import Muster.Wire.Frame

namespace Muster.Channel

/-- What one connection holds: bytes that the peer has not read yet, and bytes from it. -/
structure Pipe where
  out : List UInt8 := []
  back : List UInt8 := []
deriving DecidableEq, Repr

/-- How far an exchange is. -/
inductive Progress where
  | sending (rest : List UInt8)
  | receiving (got : List UInt8)
deriving DecidableEq, Repr

/-- Why an exchange ends for which no frame can be blamed. -/
inductive Break where
  | lost (doing : String)
  | io (message : String)
  | timeout (ms : Nat)
deriving Repr

def Break.fault : Break → Fault
  | lost doing => Wire.Frame.lost doing
  | io message => .io message
  | timeout ms => .timeout ms

/-- A subchannel, its users, and its connections, which are known by their numbers. -/
structure Talk where
  line : Line Nat
  pipes : List Pipe := []
  /-- Of the exchange under way. -/
  progress : Progress := .receiving []
  /-- The frames that peers have answered, with their answers. -/
  answered : List (List UInt8 × List UInt8) := []
  /-- The exchanges that have ended, and how. -/
  results : List (Wire.Request × Except Fault Wire.Response) := []

namespace Talk

/-- One step of a run. -/
inductive Act where
  | come (call : Option Wire.Request)
  | shutDown
  | stream (t : Nat)
  /-- A connect ends: there is a new connection, or a fault. -/
  | connected (t : Nat)
  | refused (t : Nat) (f : Fault)
  /-- A byte is written, or read. -/
  | send (t : Nat)
  | receive (t : Nat)
  /-- An exchange ends that is not over yet. -/
  | broken (t : Nat) (b : Break)
  /-- The peer of a connection answers the first frame that it has got. -/
  | peer (k : Nat) (answer : List UInt8)
  | drop (t : Nat)

def ofAddr (addr : String) : Talk := { line := .ofAddr addr }

/-- What a user is exchanging. -/
def exchanging? (l : Line Nat) (t : Nat) : Option Wire.Request :=
  match l.users[t]? with
  | some (.exchanging r) => some r
  | _ => none

/-- The exchange of a user ends. -/
def finish (s : Talk) (t : Nat) (r : Wire.Request) (x : Except Fault Wire.Response) : Talk :=
  { s with line := s.line.act (.answered t x), results := s.results ++ [(r, x)] }

/-- A user goes on, and may begin an exchange. A request that is too large is not written. -/
def goOn (s : Talk) (t : Nat) (line : Line Nat) : Talk :=
  match exchanging? s.line t, exchanging? line t with
  | none, some r =>
    match Wire.Frame.write r.encode with
    | .error f => { s with line }.finish t r (.error f)
    | .ok bytes => { s with line, progress := .sending bytes }
  | _, _ => { s with line }

/-- A byte goes out; behind the last one of a frame comes the response. -/
def send (s : Talk) (t : Nat) : Talk :=
  match exchanging? s.line t, s.line.sub.stream, s.progress with
  | some _, some k, .sending (b :: rest) =>
    { s with
      pipes := s.pipes.modify k fun p => { p with out := p.out ++ [b] }
      progress := if rest.isEmpty then .receiving [] else .sending rest }
  | _, _, _ => s

/-- A byte comes in; what it completes is a frame, or it shows that none can come. -/
def receive (s : Talk) (t : Nat) : Talk :=
  match exchanging? s.line t, s.line.sub.stream, s.progress with
  | some r, some k, .receiving got =>
    match s.pipes[k]? with
    | some { out, back := b :: back } =>
      let s := { s with
        pipes := s.pipes.set k { out, back }, progress := .receiving (got ++ [b]) }
      match Wire.Frame.read (got ++ [b]) with
      | .ok (payload, _) => s.finish t r (r.accept payload)
      | .error (.connection _) => s
      | .error f => s.finish t r (.error f)
    | _ => s
  | _, _, _ => s

def broken (s : Talk) (t : Nat) (b : Break) : Talk :=
  match exchanging? s.line t with
  | some r => s.finish t r (.error b.fault)
  | none => s

def peer (s : Talk) (k : Nat) (answer : List UInt8) : Talk :=
  match s.pipes[k]? with
  | some pipe =>
    match Wire.Frame.read pipe.out, Wire.Frame.write answer with
    | .ok (payload, out), .ok bytes =>
      { s with
        pipes := s.pipes.set k { out, back := pipe.back ++ bytes }
        answered := s.answered ++ [(payload, answer)] }
    | _, _ => s
  | none => s

/-- What is said after a step; one that is not due changes nothing. -/
def act (s : Talk) : Act → Talk
  | .come call => { s with line := s.line.act (.come call) }
  | .shutDown => { s with line := s.line.act .shutDown }
  | .stream t => s.goOn t (s.line.act (.stream t))
  | .connected t =>
    { s with pipes := s.pipes ++ [({} : Pipe)] }.goOn t (s.line.act (.connected t (.ok s.pipes.length)))
  | .refused t f => { s with line := s.line.act (.connected t (.error f)) }
  | .send t => s.send t
  | .receive t => s.receive t
  | .broken t b => s.broken t b
  | .peer k answer => s.peer k answer
  | .drop t => { s with line := s.line.act (.drop t) }

def run (s : Talk) (acts : List Act) : Talk := acts.foldl act s

end Talk
end Muster.Channel

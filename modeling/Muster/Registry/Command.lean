/-
What a caller may ask of the registry, as data, and the answers.
-/
import Muster.Registry.Service
import Muster.Resolver.Resolve

namespace Muster.Registry

inductive Command where
  | write (svc : Service) (sequence : String) (record : Record)
  | read (svc : Service) (sequence : String)
  | clear (svc : Service) (sequence : String)
  | records (svc : Service)
  | allRecords
  | endpoints (svc : Service)
  | resolve (svc : Service) (attempts : Nat)
  | register (svc : Service) (ip : Ip) (port drawn : Nat) (kind : Kind) (version now : String)
  | deregister (svc : Service) (sequence : String)
  /-- Puts any value under a free key. -/
  | put (key value : String)
  /-- Removes any key. -/
  | remove (key : String)
  | get (key : String)
  | list (dir : String)
deriving Repr

inductive Reply where
  | done
  | record (r : Record)
  | records (rs : List (String × Record))
  | endpoints (addresses : List String)
  | addresses (set : AddressSet)
  | registered (r : Registration)
  | entry (e : Entry)
  | entries (es : List Entry)
deriving Repr

variable {σ α : Type}

/-- A reply made of a result. -/
def replyWith (f : α → Reply) (r : Except Fault α × σ) : Except Fault Reply × σ :=
  (r.1.map f, r.2)

/-- Answers a command over a backend. -/
def Command.run (b : Backend σ) : Command → σ → Except Fault Reply × σ
  | .write svc sequence r, s => replyWith (fun _ => .done) (writeRecord b svc sequence r s)
  | .read svc sequence, s => replyWith .record (readRecord b svc sequence s)
  | .clear svc sequence, s => replyWith (fun _ => .done) (clearRecord b svc sequence s)
  | .records svc, s => replyWith .records (listService b svc s)
  | .allRecords, s => replyWith .records (listAll b s)
  | .endpoints svc, s => replyWith .endpoints (Registry.endpoints b svc s)
  | .resolve svc n, s => replyWith .addresses (Resolver.resolve b svc n s)
  | .register svc ip port drawn kind version now, s =>
    replyWith .registered (Registry.register b svc ip port drawn kind version now s)
  | .deregister svc sequence, s => replyWith (fun _ => .done) (Registry.deregister b svc sequence s)
  | .put key value, s => replyWith (fun _ => .done) (b.create key value s)
  | .remove key, s => replyWith (fun _ => .done) (b.delete key s)
  | .get key, s => replyWith .entry (b.get key s)
  | .list dir, s => replyWith .entries (b.list dir s)

/-- Runs commands one after another and counts those that fail. -/
def countFailures (b : Backend σ) (cs : List Command) (s : σ) : Nat × σ :=
  cs.foldl (fun (n, s) c =>
    match c.run b s with
    | (.ok _, s) => (n, s)
    | (.error _, s) => (n + 1, s)) (0, s)

end Muster.Registry

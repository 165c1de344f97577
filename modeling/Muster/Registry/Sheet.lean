/-
The registry as its callers may think of it: a plain map from the sequences of one service to
records, and what such a map answers to the commands of that service.
-/
import Muster.Registry.Command

namespace Muster.Registry

/-- The commands on the records of one service. -/
def Command.concerns (svc : Service) : Command → Prop
  | .write s _ _ | .read s _ | .clear s _ | .records s | .register s .. | .deregister s _ => s = svc
  | _ => False

/-- The answers to commands that are run one after another. -/
def answers {σ : Type} (b : Backend σ) : List Command → σ → List (Except Fault Reply)
  | [], _ => []
  | c :: cs, s => (c.run b s).1 :: answers b cs (c.run b s).2

/-- What an instance writes when it registers; port zero takes the drawn port. -/
def Registration.ofInstance (ip : Ip) (port drawn : Nat) (kind : Kind) (version now : String) :
    Registration :=
  let port := if port = 0 then drawn else port
  ⟨sequenceFor ip port, Record.ofInstance ip port kind version now⟩

/-- A plain map from sequences to records. -/
def Sheet : Type := String → Option Record

namespace Sheet

def empty : Sheet := fun _ => none

def put (m : Sheet) (sequence : String) (r : Record) : Sheet :=
  fun q => if q = sequence then some r else m q

def drop (m : Sheet) (sequence : String) : Sheet :=
  fun q => if q = sequence then none else m q

/-- A list shows the whole map, in the order of the sequences. -/
structure Lists (m : Sheet) (rs : List (String × Record)) : Prop where
  ordered : rs.Pairwise (·.1 < ·.1)
  whole : ∀ q, rs.lookup q = m q

/-! ## What a map answers -/

/-- Writing at a sequence: a record that is not valid is refused, a sequence that is taken is left
as it is, and at a free one the record is put. -/
inductive Writes (svc : Service) (m : Sheet) (q : String) (r : Record) :
    Except Fault Unit → Sheet → Prop
  | invalid {cause : String} : r.validate = .error (.invalidRecord cause) →
      Writes svc m q r (.error (.invalidRecord cause)) m
  | taken {held : Record} : r.validate = .ok () → m q = some held →
      Writes svc m q r (.error (.conflict (svc.key q))) m
  | written : r.validate = .ok () → m q = none → Writes svc m q r (.ok ()) (m.put q r)

/-- One command: its answer, and the map afterwards. -/
inductive Step (svc : Service) (m : Sheet) : Command → Except Fault Reply → Sheet → Prop
  | write {q : String} {r : Record} {a : Except Fault Unit} {n : Sheet} : Writes svc m q r a n →
      Step svc m (.write svc q r) (a.map fun _ => .done) n
  | register {ip : Ip} {port drawn : Nat} {kind : Kind} {version now : String} {reg : Registration}
      {a : Except Fault Unit} {n : Sheet} :
      reg = .ofInstance ip port drawn kind version now → Writes svc m reg.sequence reg.record a n →
      Step svc m (.register svc ip port drawn kind version now) (a.map fun _ => .registered reg) n
  | found {q : String} {r : Record} : m q = some r → Step svc m (.read svc q) (.ok (.record r)) m
  | missing {q : String} : m q = none →
      Step svc m (.read svc q) (.error (.notFound (svc.key q))) m
  | clear (q : String) : Step svc m (.clear svc q) (.ok .done) (m.drop q)
  | deregister (q : String) : Step svc m (.deregister svc q) (.ok .done) (m.drop q)
  | records {rs : List (String × Record)} : m.Lists rs →
      Step svc m (.records svc) (.ok (.records rs)) m

/-- The answers of a map to commands in turn. -/
inductive Answers (svc : Service) : Sheet → List Command → List (Except Fault Reply) → Prop
  | nil {m : Sheet} : Answers svc m [] []
  | cons {m n : Sheet} {c : Command} {cs : List Command} {a : Except Fault Reply}
      {as : List (Except Fault Reply)} : Step svc m c a n → Answers svc n cs as →
      Answers svc m (c :: cs) (a :: as)

end Sheet
end Muster.Registry

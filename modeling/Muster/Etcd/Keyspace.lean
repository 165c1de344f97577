/-
Endpoints in front of one keyspace. Whichever of them a request gets to, the same keys are there; but
it may not get there, or be lost with its answer after it has been applied, and others write between
one request and the next.
-/
import Muster.Etcd.Store

namespace Muster.Etcd

/-- What there is under a key. -/
inductive Standing where
  | free
  | holds (value : String)
  | directory
  /-- Nothing can be written there, as under a key that holds a value. -/
  | barred
deriving DecidableEq, Repr

/-- A keyspace as those know it who create a key with a value, and who read that key: what it
answers, and what is under the key afterwards. -/
structure Keyspace (key value : String) where
  answer : Http.Request → Standing → Http.Response × Standing
  /-- An answer is no fault of the endpoint. -/
  isSound {e : String} {r : Http.Request} (s : Standing) :
    (Ask.create key value).request e = some r ∨ (Ask.get key).request e = some r →
      (answer r s).1.isServerFault = false
  /-- A create writes a free key, -/
  writes {e : String} {r : Http.Request} : (Ask.create key value).request e = some r →
    (answer r .free).2 = .holds value ∧ ∃ a, readResponse (answer r .free).1 key = .ok a
  /-- leaves one alone that is taken, -/
  refuses {e : String} {r : Http.Request} (s : Standing) :
    (Ask.create key value).request e = some r → s = .directory ∨ (∃ v, s = .holds v) →
      (answer r s).2 = s ∧ readResponse (answer r s).1 key = .error (.conflict key)
  /-- and does nothing where nothing can be written. -/
  bars {e : String} {r : Http.Request} : (Ask.create key value).request e = some r →
    (answer r .barred).2 = .barred ∧
      ∃ cause, readResponse (answer r .barred).1 key = .error (.transient cause)
  /-- A read changes nothing and runs into no conflict, -/
  keeps {e : String} {r : Http.Request} (s : Standing) : (Ask.get key).request e = some r →
    (answer r s).2 = s ∧ ∀ taken, readResponse (answer r s).1 key ≠ .error (.conflict taken)
  /-- and shows the value. -/
  shows {e : String} {r : Http.Request} (v : String) : (Ask.get key).request e = some r →
    ∃ a entry, readResponse (answer r (.holds v)).1 key = .ok (some a) ∧
      a.node.bind (·.asEntry) = some entry ∧ entry.value = v

/-! ## What becomes of a request -/

inductive Fate where
  /-- It does not get to the endpoint. -/
  | refused (cause : String)
  | answered
  /-- The endpoint reports a fault of its own: its status is `500` and that much. -/
  | failed (applied : Bool) (fault : Fin 100) (body : List UInt8)
  /-- The time is up before there is an answer. -/
  | late (applied : Bool)
  /-- The connection is lost before there is an answer. -/
  | dropped (applied : Bool) (cause : String)
deriving DecidableEq, Repr

namespace Fate

def applies : Fate → Bool
  | refused _ => false
  | answered => true
  | failed applied .. | late applied | dropped applied _ => applied

/-- What whoever has sent the request gets, where the keyspace has or would have answered `r`. -/
def outcome (r : Http.Response) : Fate → Except Http.Failure Http.Response
  | refused cause | dropped _ cause => .error (.unreachable cause)
  | answered => .ok r
  | failed _ fault body => .ok { status := 500 + fault, body }
  | late _ => .error .timedOut

/-- Nothing tells that the request may have been applied. -/
def isSilent : Fate → Bool
  | refused _ | dropped .. => true
  | answered | failed .. | late _ => false

/-- The request is applied, and nothing tells so. -/
def isLost (f : Fate) : Bool := f.applies && f.isSilent

end Fate

/-- What comes upon one request: what others make of the key before, if they do, and its fate. -/
structure Passage where
  meanwhile : Option Standing := none
  fate : Fate
deriving DecidableEq, Repr

/-- How it was when a request came: its fate, what there was under the key, and whether the caller
had put it there. -/
structure Meeting where
  fate : Fate
  held : Standing
  own : Bool
deriving DecidableEq, Repr

/-- The key, as the requests of one caller come upon it. -/
structure Scene where
  held : Standing
  /-- The caller has put there what there is. -/
  own : Bool := false
  coming : List Passage
  met : List Meeting := []
deriving DecidableEq, Repr

def Scene.meeting (s : Scene) (p : Passage) : Meeting where
  fate := p.fate
  held := p.meanwhile.getD s.held
  own := s.own && p.meanwhile.isNone

variable {key value : String}

/-- What there is under the key after a request. -/
def Keyspace.leaves (k : Keyspace key value) (r : Http.Request) (m : Meeting) : Standing :=
  if m.fate.applies then (k.answer r m.held).2 else m.held

/-- The key after a request. -/
def Keyspace.after (k : Keyspace key value) (r : Http.Request) (s : Scene) (p : Passage) : Scene :=
  let m := s.meeting p
  { held := k.leaves r m, own := m.own || k.leaves r m != m.held
    coming := s.coming.tail, met := s.met ++ [m] }

/-- The way to the keyspace; where nothing is to come any more, nothing gets through. -/
def Keyspace.pass (k : Keyspace key value) : Http.Transport Scene := fun r _ s =>
  match s.coming with
  | [] => (.error (.unreachable (Http.notSent r.url)), s)
  | p :: _ => (p.fate.outcome (k.answer r (s.meeting p).held).1, k.after r s p)

/-! ## Answers as they are written -/

/-- A node that holds a value. -/
def leaf (key value : String) : Json.Value := .object [("key", .text key), ("value", .text value)]

/-- A node that leads to others, which are not shown. -/
def directory (key : String) : Json.Value := .object [("key", .text key), ("dir", .bool true)]

def shown (status : Nat) (action : String) (node : Json.Value) : Http.Response where
  status := status
  body := Utf8.encode (Json.Value.object [("action", .text action), ("node", node)]).write

def refusal (status code : Nat) (message cause : String) : Http.Response where
  status := status
  body := Utf8.encode (Json.Value.object [("errorCode", .number (.whole code)),
    ("message", .text message), ("cause", .text cause)]).write

def createAnswer (key value : String) : Standing → Http.Response × Standing
  | .free => (shown 201 "create" (leaf key value), .holds value)
  | .barred => (refusal 400 104 "Not a directory" key, .barred)
  | s => (refusal 412 nodeExists "Key already exists" key, s)

def getAnswer (key : String) : Standing → Http.Response
  | .free => refusal 404 keyNotFound "Key not found" key
  | .holds v => shown 200 "get" (leaf key v)
  | .directory => shown 200 "get" (directory key)
  | .barred => refusal 400 104 "Not a directory" key

/-- The answer to a create or a read of a key. -/
def plainAnswer (key value : String) (r : Http.Request) (s : Standing) : Http.Response × Standing :=
  if r.method = .put then createAnswer key value s else (getAnswer key s, s)

end Muster.Etcd

/-
What a keeper of keys answers over HTTP: an action with a tree of nodes, or a refusal with a number
for its kind. Leaves of the tree with key and value are entries; directories only lead to others.
-/
import Muster.Http.Message
import Muster.Json.Record
import Muster.Store.Basic
import Muster.Text.Blank

namespace Muster.Etcd

structure Node where
  key : Option String := none
  value : Option String := none
  dir : Bool := false
  nodes : List Node := []
  modifiedIndex : Nat := 0
deriving Repr

structure Answer where
  action : String
  node : Option Node := none
deriving Repr

structure Refusal where
  code : Nat
  message : String
  cause : Option String := none
deriving DecidableEq, Repr

/-! ## Reading -/

/-- What has been read of a node. -/
structure NodeDraft where
  key : Option (Option String) := none
  value : Option (Option String) := none
  dir : Option Bool := none
  nodes : Option (List Node) := none
  modifiedIndex : Option Nat := none

open Json

/-- A list of nodes, each of which `item` reads. -/
def readNodes (item : Reader Node) : Reader (List Node) := fun room cs =>
  match skipSpace cs, room with
  | .char '[' :: _, 0 => .error .malformed
  | .char '[' :: _, room + 1 => readList (item room) cs
  | _, _ => .error (mismatch "a sequence" cs)

/-- The schema of a node whose children `item` reads. -/
def nodeSchema (item : Reader Node) : Schema NodeDraft Node where
  title := "V2Node"
  start := {}
  finish d := some {
    key := d.key.getD none, value := d.value.getD none, dir := d.dir.getD false,
    nodes := d.nodes.getD [], modifiedIndex := d.modifiedIndex.getD 0 }
  fields := [
    .of "key" .optional (readOptional readText) NodeDraft.key
      fun v d => { d with key := some v },
    .of "value" .optional (readOptional readText) NodeDraft.value
      fun v d => { d with value := some v },
    .of "dir" .optional readFlag NodeDraft.dir fun v d => { d with dir := some v },
    .of "nodes" .optional (readNodes item) NodeDraft.nodes
      fun v d => { d with nodes := some v },
    .of "modifiedIndex" .optional readWord64 NodeDraft.modifiedIndex
      fun v d => { d with modifiedIndex := some v }]

/-- A node with `depth` levels of nodes below it at most. -/
def readNode : (depth : Nat) → Reader Node
  | 0 => fun _ _ => .error .malformed
  | depth + 1 => (nodeSchema (readNode depth)).read

/-- What has been read of an answer. -/
structure AnswerDraft where
  action : Option String := none
  node : Option (Option Node) := none

/-- The tree of an answer is as deep as there is room for. -/
def answerSchema : Schema AnswerDraft Answer where
  title := "V2Response"
  start := {}
  finish d := d.action.map fun action => { action, node := d.node.getD none }
  fields := [
    .of "action" .required readText AnswerDraft.action fun v d => { d with action := some v },
    .of "node" .optional (readOptional (readNode maxRoom)) AnswerDraft.node
      fun v d => { d with node := some v }]

/-- What has been read of a refusal. -/
structure RefusalDraft where
  code : Option Nat := none
  message : Option String := none
  cause : Option (Option String) := none

def refusalSchema : Schema RefusalDraft Refusal where
  title := "V2Error"
  start := {}
  finish d := do
    some { code := ← d.code, message := ← d.message, cause := d.cause.getD none }
  fields := [
    .of "errorCode" .required readWord32 RefusalDraft.code fun v d => { d with code := some v },
    .of "message" .required readText RefusalDraft.message
      fun v d => { d with message := some v },
    .of "cause" .optional (readOptional readText) RefusalDraft.cause
      fun v d => { d with cause := some v }]

def readBody {σ α : Type} (schema : Schema σ α) (body : String) : Except Json.Fault α :=
  readWhole schema.read (Utf8.pieces body.toList)

/-! ## Meaning -/

/-- The kinds of refusal with a meaning of their own. -/
def keyNotFound : Nat := 100
def nodeExists : Nat := 105
def indexCleared : Nat := 401

/-- What a refusal means for the key asked for. -/
def Refusal.fault (r : Refusal) (key : String) : Fault :=
  if r.code = keyNotFound then .notFound (r.cause.getD key)
  else if r.code = nodeExists then .conflict key
  else if r.code = indexCleared then .transient r.message
  else .transient ("etcd error " ++ Digits.text r.code ++ ": " ++ r.message)

/-- The answer that a response brings about a key; a response without any text brings none. -/
def readResponse (r : Http.Response) (key : String) : Except Fault (Option Answer) :=
  if r.truncated then
    .error (.transient "failed to read registry response: error decoding response body")
  else
    let body := String.ofList (Utf8.decodeLossy r.body)
    if r.isSuccess then
      if trimBlanks body = "" then .ok none
      else
        match readBody answerSchema body with
        | .ok a => .ok (some a)
        | .error e => .error (.invalidResponse ("malformed registry response: " ++ e.message))
    else
      match readBody refusalSchema body with
      | .ok refusal => .error (refusal.fault key)
      | .error _ => .error (.transient ("registry returned " ++ Http.statusText r.status ++ ": "
          ++ trimBlanks body))

/-- The entry that a node is, if it has key and value. -/
def Node.asEntry (n : Node) : Option Entry := do
  some { key := ← n.key, value := ← n.value, modifiedIndex := n.modifiedIndex }

mutual
/-- The entries below a node, in the order of the tree. -/
def Node.leaves : Node → List Entry
  | ⟨key, value, dir, nodes, modifiedIndex⟩ =>
    if dir then leavesOf nodes
    else (Node.asEntry ⟨key, value, dir, [], modifiedIndex⟩).toList

def leavesOf : List Node → List Entry
  | [] => []
  | n :: ns => n.leaves ++ leavesOf ns
end

/-- The entries that an answer lists: those below its node, if that is a directory. -/
def Answer.entries (a : Answer) : List Entry :=
  match a.node with
  | some n => if n.dir then leavesOf n.nodes else []
  | none => []

/-- The event that an answer reports. -/
def Answer.event (a : Answer) : Event :=
  { action := .ofName a.action
    key := (a.node.bind (·.key)).getD ""
    index := (a.node.map (·.modifiedIndex)).getD 0 }

end Muster.Etcd

/-
The store: keys with values, an index that counts mutations, and the last mutations as events. A
watcher asks for the first event under a directory from some index on; it is refused when that
index has left the retained events.
-/
import Muster.Fault
import Muster.Store.Path

namespace Muster

/-- What an event reports. The store itself only creates and deletes; the others come from other
keepers of the same keys. -/
inductive Action where
  | create
  | set
  | update
  | delete
  | expire
  | compareAndSwap
  | compareAndDelete
  | get
  | other (name : String)
deriving DecidableEq, Repr

namespace Action

def ofName (name : String) : Action :=
  if name = "create" then create
  else if name = "set" then set
  else if name = "update" then update
  else if name = "delete" then delete
  else if name = "expire" then expire
  else if name = "compareAndSwap" then compareAndSwap
  else if name = "compareAndDelete" then compareAndDelete
  else if name = "get" then get
  else other name

/-- The action as a word for a reader. -/
def label : Action → String
  | create => "Create"
  | set => "Set"
  | update => "Update"
  | delete => "Delete"
  | expire => "Expire"
  | compareAndSwap => "CompareAndSwap"
  | compareAndDelete => "CompareAndDelete"
  | get => "Get"
  | other name => name

/-- Everything but a read changes what is stored. -/
def isMutation : Action → Bool
  | get => false
  | _ => true

end Action

/-- A key with its value and the index of the mutation that wrote it. -/
structure Entry where
  key : String
  value : String
  modifiedIndex : Nat
deriving DecidableEq, Repr

/-- One change. -/
structure Event where
  action : Action
  key : String
  index : Nat
deriving DecidableEq, Repr

/-- The store. `entries` stand in the order of their keys; `history` holds the last events, oldest
first. -/
structure Store where
  capacity : Nat
  entries : List Entry := []
  index : Nat := 0
  history : List Event := []
  /-- The highest index that has left the history. -/
  clearedUpTo : Nat := 0
deriving Repr

namespace Store

/-- An empty store that retains at least one event. -/
def empty (capacity : Nat) : Store := { capacity := max capacity 1 }

def defaultCapacity : Nat := 1000

def size (s : Store) : Nat := s.entries.length

/-! ## Entries in the order of their keys -/

def find? (key : String) (entries : List Entry) : Option Entry :=
  entries.find? (·.key == key)

def insertEntry (e : Entry) : List Entry → List Entry
  | [] => [e]
  | f :: rest => if e.key < f.key then e :: f :: rest else f :: insertEntry e rest

/-! ## Mutations -/

/-- Counts a mutation and appends its event; what exceeds the capacity leaves the history. -/
def record (s : Store) (action : Action) (key : String) : Store :=
  let index := s.index + 1
  let history := s.history ++ [⟨action, key, index⟩]
  let dropped := history.length - s.capacity
  { s with
    index := index
    history := history.drop dropped
    clearedUpTo := s.clearedUpTo + dropped }

/-- Writes a value under a key that is free. -/
def create (s : Store) (key value : String) : Except Fault Store :=
  match find? key s.entries with
  | some _ => .error (.conflict key)
  | none =>
    let s := s.record .create key
    .ok { s with entries := insertEntry ⟨key, value, s.index⟩ s.entries }

/-- Removes a key that is there. -/
def delete (s : Store) (key : String) : Except Fault Store :=
  match find? key s.entries with
  | none => .error (.notFound key)
  | some _ =>
    let s := s.record .delete key
    .ok { s with entries := s.entries.filter (·.key != key) }

/-! ## Reading -/

def get (s : Store) (key : String) : Except Fault Entry :=
  match find? key s.entries with
  | some e => .ok e
  | none => .error (.notFound key)

/-- The entries below a directory, in the order of their keys. The directory's own key does not
count, and a directory that holds nothing is not there. -/
def list (s : Store) (dir : String) : Except Fault (List Entry) :=
  match s.entries.filter fun e => e.key != dir && Path.isUnder dir e.key with
  | [] => .error (.notFound dir)
  | entries => .ok entries

/-- The first retained event under a directory at or after an index; none if it is still to come.
An index that has left the history is refused. -/
def eventFrom (s : Store) (dir : String) (start : Nat) : Except Fault (Option Event) :=
  if start ≤ s.clearedUpTo then
    .error (.transient ("event index " ++ Digits.text start ++ " cleared (oldest retained "
      ++ Digits.text (s.clearedUpTo + 1) ++ ")"))
  else .ok (s.history.find? fun e => start ≤ e.index && Path.isUnder dir e.key)

/-- Where a watcher begins: at the index it names, or with the next mutation. -/
def watchStart (s : Store) (asked : Option Nat) : Nat := asked.getD (s.index + 1)

end Store
end Muster

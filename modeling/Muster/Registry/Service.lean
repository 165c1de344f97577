/-
The registry over any backend that keeps keys: writing, reading and listing the records of a
service, and listing those of all services. Records that cannot be read are left out of lists.
-/
import Muster.Registry.Key
import Muster.Registry.Record
import Muster.Store.Basic

namespace Muster.Registry

/-- A keeper of keys in a state `σ`. -/
structure Backend (σ : Type) where
  create : (key value : String) → σ → Except Fault Unit × σ
  get : (key : String) → σ → Except Fault Entry × σ
  delete : (key : String) → σ → Except Fault Unit × σ
  list : (dir : String) → σ → Except Fault (List Entry) × σ

/-- The store itself as a keeper. -/
def memory : Backend Store where
  create key value s :=
    match s.create key value with
    | .ok t => (.ok (), t)
    | .error e => (.error e, s)
  get key s := (s.get key, s)
  delete key s :=
    match s.delete key with
    | .ok t => (.ok (), t)
    | .error e => (.error e, s)
  list dir s := (s.list dir, s)

/-- One service in one cluster. -/
structure Service where
  name : String
  cluster : String := defaultCluster
deriving DecidableEq, Repr

namespace Service

/-- The directory of the service's records. -/
def directory (svc : Service) : String := keyName svc.name svc.cluster []

def key (svc : Service) (sequence : String) : String := keyName svc.name svc.cluster [sequence]

end Service

/-! ## Lists of records -/

/-- Puts a record into its place by name; one of the same name is replaced. -/
def insertRecord (name : String) (r : Record) : List (String × Record) → List (String × Record)
  | [] => [(name, r)]
  | (n, q) :: rest =>
    if name < n then (name, r) :: (n, q) :: rest
    else if name = n then (name, r) :: rest
    else (n, q) :: insertRecord name r rest

/-- The readable records of a list of entries, by the names that `nameOf` gives their keys. -/
def recordsOf (nameOf : String → Option String) (entries : List Entry) : List (String × Record) :=
  entries.foldl
    (fun acc e =>
      match nameOf e.key, Record.decode e.value with
      | some name, .ok r => insertRecord name r acc
      | _, _ => acc)
    []

/-- What follows `start` in a text that begins with it. -/
def afterText (start s : String) : Option String :=
  (Path.afterStart start.toList s.toList).map String.ofList

/-- The records of one service among entries, by sequence. -/
def serviceRecords (svc : Service) (entries : List Entry) : List (String × Record) :=
  recordsOf (afterText (svc.directory ++ "/")) entries

/-- The records of all services among entries, by key. -/
def allRecords (entries : List Entry) : List (String × Record) :=
  recordsOf (fun key => (afterText ("/" ++ root ++ ".") key).map fun _ => key) entries

/-- A directory that is not there is empty. -/
def presentOr {α : Type} (listed : Except Fault (List α)) : Except Fault (List α) :=
  match listed with
  | .ok entries => .ok entries
  | .error e => if e.isNotFound then .ok [] else .error e

/-! ## Operations -/

variable {σ : Type} (b : Backend σ)

/-- Writes a record at a free sequence. -/
def writeRecord (svc : Service) (sequence : String) (r : Record) (s : σ) : Except Fault Unit × σ :=
  match r.validate with
  | .error e => (.error e, s)
  | .ok () => b.create (svc.key sequence) r.encode s

def readRecord (svc : Service) (sequence : String) (s : σ) : Except Fault Record × σ :=
  let (entry, s) := b.get (svc.key sequence) s
  (entry.bind fun e => Record.decode e.value, s)

/-- Removes a record; one that is not there counts as removed. -/
def clearRecord (svc : Service) (sequence : String) (s : σ) : Except Fault Unit × σ :=
  match b.delete (svc.key sequence) s with
  | (.error e, s) => (if e.isNotFound then .ok () else .error e, s)
  | (.ok (), s) => (.ok (), s)

/-- The records of a service by sequence. -/
def listService (svc : Service) (s : σ) : Except Fault (List (String × Record)) × σ :=
  let (entries, s) := b.list svc.directory s
  ((presentOr entries).map (serviceRecords svc), s)

/-- The records of all services by key. -/
def listAll (s : σ) : Except Fault (List (String × Record)) × σ :=
  let (entries, s) := b.list "/" s
  ((presentOr entries).map allRecords, s)

/-- The addresses of a service's instances, in the order of their sequences. -/
def endpoints (svc : Service) (s : σ) : Except Fault (List String) × σ :=
  let (records, s) := listService b svc s
  (records.map fun rs => rs.map fun r => r.2.address, s)

/-- What registering an instance wrote. -/
structure Registration where
  sequence : String
  record : Record
deriving DecidableEq, Repr

/-- Registers an instance; port zero takes the drawn port. -/
def register (svc : Service) (ip : Ip) (port drawn : Nat) (kind : Kind) (version now : String)
    (s : σ) : Except Fault Registration × σ :=
  let port := if port = 0 then drawn else port
  let sequence := sequenceFor ip port
  let record := Record.ofInstance ip port kind version now
  let (written, s) := writeRecord b svc sequence record s
  (written.map fun () => ⟨sequence, record⟩, s)

def deregister (svc : Service) (sequence : String) (s : σ) : Except Fault Unit × σ :=
  clearRecord b svc sequence s

end Muster.Registry

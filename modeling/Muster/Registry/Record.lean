/-
The record of one instance of a service, and its JSON form.
-/
import Muster.Fault
import Muster.Json.Record
import Muster.Json.Write
import Muster.Net.Ip
import Muster.Text.Blank

namespace Muster.Registry

/-- How an instance is spoken to. -/
inductive Kind where
  | rpc
  | http
deriving DecidableEq, Repr

namespace Kind

def name : Kind → String
  | rpc => "rpc"
  | http => "http"

def all : List (String × Kind) := [("rpc", rpc), ("http", http)]

/-- Reads a kind in any mixture of ASCII cases. -/
def parse (s : String) : Except String Kind :=
  let lower := s.map Char.toLower
  match all.lookup lower with
  | some k => .ok k
  | none => .error ("unknown service kind '" ++ lower ++ "'")

end Kind

/-- What an instance publishes of itself. -/
structure Record where
  version : String := ""
  ip : String
  port : String
  kind : Kind := .rpc
  lastModified : String := ""
deriving DecidableEq, Repr

namespace Record

/-- The record of an instance at an address, dated. -/
def ofInstance (ip : Ip) (port : Nat) (kind : Kind) (version lastModified : String) : Record :=
  { version, ip := ip.toText, port := Digits.text port, kind, lastModified }

/-- Address and port; an address with colons stands in brackets. -/
def address (r : Record) : String :=
  if r.ip.toList.contains ':' then "[" ++ r.ip ++ "]:" ++ r.port else r.ip ++ ":" ++ r.port

/-- Port and address are not blank. -/
def validate (r : Record) : Except Fault Unit :=
  if trimBlanks r.port = "" then .error (.invalidRecord "service_port is empty")
  else if trimBlanks r.ip = "" then .error (.invalidRecord "service_ip is empty")
  else .ok ()

/-! ## JSON -/

def toJson (r : Record) : Json.Value :=
  .object [("service_version", .text r.version), ("service_ip", .text r.ip),
    ("service_port", .text r.port), ("service_kind", .text r.kind.name),
    ("last_modified", .text r.lastModified)]

def encode (r : Record) : String := r.toJson.render

/-- What has been read of a record. -/
structure Draft where
  version : Option String := none
  ip : Option String := none
  port : Option String := none
  kind : Option Kind := none
  lastModified : Option String := none

def Draft.finish (d : Draft) : Option Record := do
  some { version := d.version.getD "", ip := ← d.ip, port := ← d.port, kind := d.kind.getD .rpc,
         lastModified := d.lastModified.getD "" }

open Json in
def schema : Schema Draft Record where
  title := "EndpointRecord"
  start := {}
  finish := Draft.finish
  fields := [
    .of "service_version" .optional readText Draft.version fun v d => { d with version := some v },
    .of "service_ip" .required readText Draft.ip fun v d => { d with ip := some v },
    .of "service_port" .required readText Draft.port fun v d => { d with port := some v },
    .of "service_kind" .optional (readVariant Kind.all) Draft.kind
      fun v d => { d with kind := some v },
    .of "last_modified" .optional readText Draft.lastModified
      fun v d => { d with lastModified := some v }]

/-- Reads and checks a stored record. -/
def decode (raw : String) : Except Fault Record := do
  match Json.readWhole schema.read (Utf8.pieces raw.toList) with
  | .error e => .error (.invalidRecord ("malformed record: " ++ e.message))
  | .ok r =>
    r.validate
    .ok r

end Record
end Muster.Registry

/-
What may be asked on the command line.
-/
import Muster.CommandLine.Arguments
import Muster.Admission.Config
import Muster.Registry.Record

namespace Muster.CommandLine

/-- What serving is told. -/
structure ServeOptions where
  service : String
  bind : String := "0.0.0.0:0"
  advertised : Ip := .v4 0x7F000001
  version : String := ""
  maxConcurrent : Nat := 0
  maxWaitNum : Nat := 0
  maxWait : Nat := Admission.defaultMaxWait
deriving DecidableEq, Repr

inductive Action where
  | register (service : String) (ip : Ip) (port : Nat) (kind : Registry.Kind) (version : String)
  | deregister (service sequence : String)
  | list (service : Option String)
  | resolve (service : String)
  | call (service method args : String) (timeoutMs : Option Nat)
  | serve (o : ServeOptions)
deriving DecidableEq, Repr

structure Options where
  /-- Registry endpoints, separated by commas. -/
  registry : Option String := none
  cluster : Option String := none
  action : Action
deriving DecidableEq, Repr

/-- What a command line asks for. -/
inductive Asked where
  | run (o : Options)
  | help
  | misuse
deriving DecidableEq, Repr

/-! ## Values -/

/-- A whole number of so many bits; a plus sign may precede its digits. -/
def readUnsigned (bits : Nat) (s : String) : Option Nat :=
  let digits := match s.toList with
    | '+' :: cs => cs
    | cs => cs
  match Digits.read? digits with
  | some n => if n < Nat.pow 2 bits then some n else none
  | none => none

def readKind (s : String) : Option Registry.Kind := (Registry.Kind.parse s).toOption

/-- The value of an option, or the default when it is not given; nothing when it cannot be read. -/
def valueOr {α : Type} (g : Given) (name : String) (default : α) (read : String → Option α) :
    Option α :=
  match g.value? name with
  | none => some default
  | some s => read s

/-- The value of an option that may be left out. -/
def optional {α : Type} (g : Given) (name : String) (read : String → Option α) :
    Option (Option α) :=
  match g.value? name with
  | none => some none
  | some s => (read s).map some

/-! ## Commands -/

/-- A command: what it takes, and the action that this gives. The action is missing when a value
that must be there is not, and everything is when a value cannot be read. -/
structure Command where
  name : String
  shape : Shape
  action : Given → Option (Option Action)

def registerCommand : Command where
  name := "register"
  shape := { options := [("--ip", "ip"), ("--port", "port"), ("--kind", "kind"),
                         ("--version", "version")], words := 1 }
  action g := do
    let ip ← optional g "ip" Ip.parse?
    let port ← valueOr g "port" 0 (readUnsigned 16)
    let kind ← valueOr g "kind" .rpc readKind
    let version := (g.value? "version").getD ""
    some do some (.register (← g.word? 0) (← ip) port kind version)

def deregisterCommand : Command where
  name := "deregister"
  shape := { words := 2 }
  action g := some do some (.deregister (← g.word? 0) (← g.word? 1))

def listCommand : Command where
  name := "list"
  shape := { words := 1 }
  action g := some (some (.list (g.word? 0)))

def resolveCommand : Command where
  name := "resolve"
  shape := { words := 1 }
  action g := some do some (.resolve (← g.word? 0))

def callCommand : Command where
  name := "call"
  shape := { options := [("--timeout-ms", "timeout-ms")], words := 3 }
  action g := do
    let timeout ← optional g "timeout-ms" (readUnsigned 64)
    let args := (g.word? 2).getD "\x7b\x7d"
    some do some (.call (← g.word? 0) (← g.word? 1) args timeout)

def serveCommand : Command where
  name := "serve"
  shape := { options := [("--bind", "bind"), ("-b", "bind"), ("--advertise-ip", "advertise-ip"),
                         ("--version", "version"), ("--max-concurrent", "max-concurrent"),
                         ("--max-wait-num", "max-wait-num"), ("--max-wait-ms", "max-wait-ms")],
             words := 1 }
  action g := do
    let o : ServeOptions := { service := "" }
    let advertised ← valueOr g "advertise-ip" o.advertised Ip.parse?
    let maxConcurrent ← valueOr g "max-concurrent" o.maxConcurrent (readUnsigned 64)
    let maxWaitNum ← valueOr g "max-wait-num" o.maxWaitNum (readUnsigned 64)
    let maxWait ← valueOr g "max-wait-ms" o.maxWait (readUnsigned 64)
    let bind := (g.value? "bind").getD o.bind
    let version := (g.value? "version").getD o.version
    some do
      let service ← g.word? 0
      some (.serve { service, bind, advertised, version, maxConcurrent, maxWaitNum, maxWait })

def commands : List Command :=
  [registerCommand, deregisterCommand, listCommand, resolveCommand, callCommand, serveCommand]

/-- What may stand before the name of a command. -/
def outerShape : Shape where
  options := [("--registry", "registry"), ("--cluster", "cluster")]
  commands := commands.map (·.name)

/-- What the arguments behind a command's name ask for. -/
def Command.read (c : Command) (outer : Given) (args : List String) : Asked :=
  match scan c.shape false {} (if outer.help then "help" :: args else args) with
  | none => .misuse
  | some (g, _) =>
    match c.action g with
    | none => .misuse
    | some action =>
      if g.help then .help
      else
        match action with
        | none => .misuse
        | some action =>
          .run { registry := outer.value? "registry", cluster := outer.value? "cluster", action }

/-- What a command line asks for. -/
def read (args : List String) : Asked :=
  match scan outerShape false {} args with
  | none => .misuse
  | some (outer, none) => if outer.help then .help else .misuse
  | some (outer, some (name, rest)) =>
    match commands.find? (·.name == name) with
    | none => .misuse
    | some c => c.read outer rest

/-- What is said to those who ask for help or for something else. -/
def usage : String :=
  "Usage: [--registry URLS] [--cluster NAME] COMMAND\n"
    ++ "Commands: " ++ String.intercalate ", " (commands.map (·.name))

end Muster.CommandLine

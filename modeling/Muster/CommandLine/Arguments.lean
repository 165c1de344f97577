/-
Arguments of a command line, cut into options and words. An option takes the argument behind it as
its value, whatever that looks like; a double dash ends the options; and a call for help is no place
for further options.
-/
namespace Muster.CommandLine

/-- What a command takes: options by the names they are written with, each with the name it goes
by, and a number of words. The first word may also be the name of a command of its own, which takes
the rest. -/
structure Shape where
  options : List (String × String) := []
  words : Nat := 0
  commands : List String := []
deriving Repr

/-- What has been given to a command. -/
structure Given where
  values : List (String × String) := []
  words : List String := []
  help : Bool := false
deriving DecidableEq, Repr

namespace Given

def value? (g : Given) (name : String) : Option String := g.values.lookup name

def word? (g : Given) (i : Nat) : Option String := g.words[i]?

end Given

/-- The arguments that call for help. -/
def isHelp (arg : String) : Bool := arg = "--help" || arg = "help"

/-- Cuts arguments up; nothing when the command does not take them. A command within comes with the
arguments behind its name. `ended` tells that the options have ended. -/
def scan (shape : Shape) :
    (ended : Bool) → Given → List String → Option (Given × Option (String × List String))
  | _, g, [] => some (g, none)
  | ended, g, arg :: rest =>
    if !ended && isHelp arg then scan shape ended { g with help := true } rest
    else if !ended && arg = "--" then scan shape true g rest
    else if !ended && arg.startsWith "-" then
      if g.help then none
      else
        match shape.options.lookup arg, rest with
        | some name, value :: rest =>
          if (g.value? name).isSome then none
          else scan shape ended { g with values := g.values ++ [(name, value)] } rest
        | _, _ => none
    else if shape.commands.contains arg then some (g, some (arg, rest))
    else if g.words.length < shape.words then
      scan shape ended { g with words := g.words ++ [arg] } rest
    else none

end Muster.CommandLine

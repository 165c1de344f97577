/-
The settings of a client: the scheme of bare service names, and those of resolvers and channels.
-/
import Muster.Channel.Options
import Muster.Resolver.Config
import Muster.Target

namespace Muster.Client

def defaultScheme : String := "corral"

structure Config where
  scheme : String := defaultScheme
  resolver : Resolver.Config := {}
  dial : Channel.Options := {}
deriving DecidableEq, Repr

def Config.validate (c : Config) : Except String Unit :=
  if c.scheme = "" then .error "scheme must not be empty"
  else
    match c.resolver.validate with
    | .error e => .error e
    | .ok () => c.dial.validate

/-- The target of a bare service name. -/
def Config.targetOf (c : Config) (service : String) : Target := .ofService c.scheme service

end Muster.Client

/-
The settings of a resolver. Times are in milliseconds.
-/
namespace Muster.Resolver

structure Config where
  /-- The quiet period after each resolution. -/
  minInterval : Nat := 3000
  /-- A resolution is due after this long even without a trigger. -/
  refreshInterval : Nat := 30000
  /-- Attempts of one resolution. -/
  maxAttempts : Nat := 3
deriving DecidableEq, Repr

def Config.validate (c : Config) : Except String Unit :=
  if c.maxAttempts = 0 then .error "max_attempts must be at least 1"
  else if c.refreshInterval = 0 then .error "refresh_interval must be greater than 0"
  else .ok ()

end Muster.Resolver

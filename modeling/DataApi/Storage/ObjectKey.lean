import DataApi.Storage.PrefixResolver

/-!
# Full keys of objects

A call may bring its own prefix resolver, which then decides; otherwise the configured one does, and
without that the default. The full key of an object is its prefix and its key.
-/

namespace DataApi

structure CallOptions (m : Type → Type) where
  level : AccessLevel := .guest
  /-- The identity at which the call is aimed. -/
  target : Option String := none
  /-- The resolver for this call alone. -/
  resolver : Option (PrefixResolver m) := none

structure StorageConfig (m : Type → Type) where
  resolver : Option (PrefixResolver m) := none

namespace PrefixResolver

variable {m : Type → Type}

/-- The resolver that decides: that of the call, else the configured one, else the default. -/
def select (options : Option (CallOptions m)) (config : Option (StorageConfig m))
    (fallback : PrefixResolver m) : PrefixResolver m :=
  ((options.bind (·.resolver)).or (config.bind (·.resolver))).getD fallback

/-- The full key of an object. -/
def fullKey [Monad m] (r : PrefixResolver m) (options : CallOptions m) (key : String) :
    m (Except PrefixError String) := do
  return (← r.resolve options.level options.target).map (· ++ key)

end PrefixResolver

end DataApi

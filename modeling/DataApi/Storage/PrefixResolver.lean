import DataApi.Storage.AccessLevel

/-!
# Prefixes of object keys

A prefix resolver decides what stands before the key of an object, from the access level of the
call and the identity it is aimed at, if any. The effects of a resolver are those of a monad `m`,
as an identity may have to be looked up. The resolver that is aware of access levels looks it up
only if the level is scoped to an identity and the call names none.
-/

namespace DataApi

/-- Why the identity of the caller could not be determined. -/
structure AuthError where
  description : String
  recoverySuggestion : String
  deriving DecidableEq

def AuthError.message (e : AuthError) : String := e.description

inductive PrefixError where
  | auth (e : AuthError)
  /-- The resolver is not made for the call. -/
  | configuration (description : String)
  deriving DecidableEq

def PrefixError.message : PrefixError → String
  | .auth e => "Could not resolve the identity for the key prefix: " ++ e.description
  | .configuration description => "Invalid prefix resolver configuration: " ++ description

/-- A way to find the prefix for a call. -/
structure PrefixResolver (m : Type → Type) where
  title : String
  /-- The prefix for an access level, aimed at an identity or not. -/
  resolve : AccessLevel → Option String → m (Except PrefixError String)

namespace PrefixResolver

variable {m : Type → Type} [Monad m]

/-- Keys are used as they are. -/
def passThrough : PrefixResolver m where
  title := "PassThroughPrefixResolver"
  resolve _ _ := pure (.ok "")

/-- The prefix of the access level. Where the level is scoped to an identity and the call is aimed
at none, it is that of the caller. -/
def accessLevelAware (lookup : m (Except AuthError String)) : PrefixResolver m where
  title := "AccessLevelAwarePrefixResolver \x7b .. \x7d"
  resolve level target :=
    if level.isIdentityScoped then
      match target with
      | some identity => pure (.ok (level.keyPrefix (some identity)))
      | none => do
          match ← lookup with
          | .ok identity => pure (.ok (level.keyPrefix (some identity)))
          | .error e => pure (.error (.auth e))
    else pure (.ok (level.keyPrefix none))

end PrefixResolver

end DataApi

import DataApi.Proofs.Storage.KeySpace

/-!
# The resolver that decides

The resolver that a call brings decides, whatever is configured; without one the configured resolver
does, whatever the default is; and the default decides where there is neither. To find a full key
is to ask the deciding resolver once and to put the key behind the prefix that it gives. The others
are not asked, so neither what they would answer nor what they would do to the world can be told
from the result.

The resolver that is aware of access levels asks for the caller only where the prefix takes their
identity: for a level that is scoped to an identity, in a call that is aimed at none. Other calls
come to the same for every caller, and those are the only ones that fail with the lookup.
-/

namespace DataApi

namespace PrefixResolver

section

variable {m : Type → Type} {options? : Option (CallOptions m)}
  {config? : Option (StorageConfig m)} {r : PrefixResolver m}

theorem select_of_call (h : options?.bind (·.resolver) = some r)
    (config? : Option (StorageConfig m)) (fallback : PrefixResolver m) :
    select options? config? fallback = r := by
  rw [select, h, Option.some_or, Option.getD_some]

theorem select_of_config (hcall : options?.bind (·.resolver) = none)
    (h : config?.bind (·.resolver) = some r) (fallback : PrefixResolver m) :
    select options? config? fallback = r := by
  rw [select, hcall, h, Option.none_or, Option.getD_some]

theorem select_of_none (hcall : options?.bind (·.resolver) = none)
    (hconfig : config?.bind (·.resolver) = none) (fallback : PrefixResolver m) :
    select options? config? fallback = fallback := by
  rw [select, hcall, hconfig, Option.none_or, Option.getD_none]

variable [Monad m] [LawfulMonad m] {options : CallOptions m} {key : String}

theorem fullKey_eq_map (r : PrefixResolver m) (options : CallOptions m) (key : String) :
    r.fullKey options key =
      Except.map (· ++ key) <$> r.resolve options.level options.target :=
  (map_eq_pure_bind _ _).symm

/-- The caller does not show in the full key of an object that is open to everyone, nor in that of a
call which is aimed at an identity. -/
theorem exists_fullKey_of_not_own (key : String)
    (h : options.level = .guest ∨ options.target ≠ none) :
    ∃ full, ∀ lookup, (accessLevelAware lookup).fullKey options key = pure (.ok full) := by
  by_cases hlevel : options.level = .guest
  · refine ⟨AccessLevel.guest.keyPrefix none ++ key, fun lookup => ?_⟩
    rw [fullKey_eq_map, hlevel, resolve_guest, map_pure]
    rfl
  · obtain ⟨identity, htarget⟩ := Option.ne_none_iff_exists'.1 (h.resolve_left hlevel)
    refine ⟨options.level.keyPrefix (some identity) ++ key, fun lookup => ?_⟩
    rw [fullKey_eq_map, htarget, resolve_aimed lookup hlevel, map_pure]
    rfl

theorem fullKey_own (hlevel : options.level ≠ .guest) (htarget : options.target = none)
    (lookup : m (Except AuthError String)) :
    (accessLevelAware lookup).fullKey options key =
      (fun caller => (caller.map fun identity =>
        options.level.keyPrefix (some identity) ++ key).mapError .auth) <$> lookup := by
  rw [fullKey_eq_map, htarget, resolve_own lookup hlevel, ← comp_map]
  refine congrArg (· <$> lookup) (funext fun caller => ?_)
  cases caller <;> rfl

end

section

variable {σ : Type} {lookup : StateM σ (Except AuthError String)} {options : CallOptions (StateM σ)}
  {key : String} {world : σ} {e : PrefixError}

/-- Where access levels count, a call fails exactly when it needs the caller and their lookup
fails. -/
theorem fullKey_accessLevelAware_eq_error_iff :
    (((accessLevelAware lookup).fullKey options key).run world).1 = .error e ↔
      options.level.isIdentityScoped = true ∧ options.target = none ∧
        ∃ a, (lookup.run world).1 = .error a ∧ e = .auth a := by
  rw [AccessLevel.isIdentityScoped_iff]
  by_cases h : options.level = .guest ∨ options.target ≠ none
  · obtain ⟨full, hfull⟩ := exists_fullKey_of_not_own key h
    rw [hfull, fst_run_pure]
    refine iff_of_false nofun ?_
    rintro ⟨hlevel, htarget, _⟩
    exact h.elim hlevel fun haimed => haimed htarget
  · rw [not_or, not_not] at h
    rw [fullKey_own h.1 h.2, fst_run_map, mapError_eq_error_iff]
    simp only [map_eq_error_iff, h.1, h.2, ne_eq, not_false_eq_true, true_and, eq_comm (a := e)]

/-- What comes of a call whose resolver is selected. The full key is made of the prefix that the
resolver of the call gives, or of its error, whatever is configured and whatever the default is. A
call without one takes the configured resolver, whatever the default is, and without either it takes
the default. When the one that decides is aware of access levels, all lookups give one and the same
full key for a level that is open to everyone and for a call that is aimed at an identity. It fails
exactly when it is neither and the lookup fails, with what the lookup says. -/
theorem fullKey_select_outcome {σ : Type} (options : CallOptions (StateM σ)) (key : String) :
    (∀ (call? : Option (CallOptions (StateM σ))) r, call?.bind (·.resolver) = some r →
      ∀ config? fallback, (select call? config? fallback).fullKey options key =
        Except.map (· ++ key) <$> r.resolve options.level options.target) ∧
    (∀ (call? : Option (CallOptions (StateM σ))) (config? : Option (StorageConfig (StateM σ))) r,
      call?.bind (·.resolver) = none → config?.bind (·.resolver) = some r →
      ∀ fallback, (select call? config? fallback).fullKey options key =
        Except.map (· ++ key) <$> r.resolve options.level options.target) ∧
    (∀ (call? : Option (CallOptions (StateM σ))) (config? : Option (StorageConfig (StateM σ))),
      call?.bind (·.resolver) = none → config?.bind (·.resolver) = none →
      ∀ fallback, (select call? config? fallback).fullKey options key =
        Except.map (· ++ key) <$> fallback.resolve options.level options.target) ∧
    (options.level = .guest ∨ options.target ≠ none → ∃ full, ∀ call? config? fallback lookup,
      select call? config? fallback = accessLevelAware lookup →
        (select call? config? fallback).fullKey options key = pure (.ok full)) ∧
    ∀ call? config? fallback lookup, select call? config? fallback = accessLevelAware lookup →
      ∀ world e, (((select call? config? fallback).fullKey options key).run world).1 = .error e ↔
        options.level.isIdentityScoped = true ∧ options.target = none ∧
          ∃ a, (lookup.run world).1 = .error a ∧ e = .auth a := by
  refine ⟨?_, ?_, ?_, ?_, ?_⟩
  · intro call? r hcall config? fallback
    rw [select_of_call hcall, fullKey_eq_map]
  · intro call? config? r hcall hconfig fallback
    rw [select_of_config hcall hconfig, fullKey_eq_map]
  · intro call? config? hcall hconfig fallback
    rw [select_of_none hcall hconfig, fullKey_eq_map]
  · intro h
    obtain ⟨full, hfull⟩ := exists_fullKey_of_not_own key h
    refine ⟨full, fun call? config? fallback lookup haware => ?_⟩
    rw [haware, hfull]
  · intro call? config? fallback lookup haware world e
    rw [haware]
    exact fullKey_accessLevelAware_eq_error_iff

def closed : PrefixResolver (StateM Nat) where
  title := "closed"
  resolve _ _ := do
    modify (· + 1)
    return .error (.configuration "closed")

def expired : StateM Nat (Except AuthError String) := do
  modify (· + 1)
  return .error ⟨"the session is over", "sign in again"⟩

/-- A call with a resolver of its own does not ask the closed ones, a call that is aimed at an
identity does not ask for the caller, and a call for an object of the caller's own fails with
them. -/
theorem fullKey_select_outcome_expired :
    let bare : CallOptions (StateM Nat) := { level := .ownerOnly, resolver := some passThrough }
    let aimed : CallOptions (StateM Nat) := { level := .ownerWrites, target := some "u2" }
    let own : CallOptions (StateM Nat) := { level := .ownerOnly }
    ((select (some bare) (some { resolver := some closed }) closed).fullKey bare "a.png").run 0 =
      (.ok "a.png", 0) ∧
    (select (some aimed) none (accessLevelAware expired)).fullKey aimed "a.png" =
      (select none (some {}) (accessLevelAware (signedIn "u1"))).fullKey aimed "a.png" ∧
    (((select (some own) (some { resolver := some (accessLevelAware expired) }) closed).fullKey own
      "a.png").run 0).1 = .error (.auth ⟨"the session is over", "sign in again"⟩) := by
  intro bare aimed own
  obtain ⟨hcall, _⟩ := fullKey_select_outcome bare "a.png"
  obtain ⟨_, _, _, hsame, _⟩ := fullKey_select_outcome aimed "a.png"
  obtain ⟨_, _, _, _, hfails⟩ := fullKey_select_outcome own "a.png"
  refine ⟨?_, ?_, ?_⟩
  · rw [hcall (some bare) passThrough rfl]
    rfl
  · obtain ⟨full, hfull⟩ := hsame (.inr (by simp [aimed]))
    rw [hfull _ _ _ expired rfl, hfull _ _ _ (signedIn "u1") rfl]
  · exact (hfails _ _ _ expired rfl 0 _).2 ⟨rfl, rfl, _, rfl, rfl⟩

end

end PrefixResolver

end DataApi

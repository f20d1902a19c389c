import DataApi.Proofs.Fallible
import DataApi.Storage.ObjectKey

/-!
# Key spaces of identities and access levels

A full key starts with the folder of its level, and where the level is scoped to an identity the
folder of that identity follows. Neither name holds a slash, so each of them ends at the first slash
behind it, and what is left is the key, slashes and all. Hence the full key of an object determines
the level, the identity and the key it was made from: no choice of key reaches the folder of another
level or another identity. An identity with a slash in it would reach into the folder of the
identity before that slash.

A lookup may read and change the state of the world it is run in. The two calls that are compared
need not share one.
-/

namespace DataApi

theorem eq_of_append_cons_eq {α : Type} {separator : α} {u v r t : List α}
    (hu : separator ∉ u) (hv : separator ∉ v)
    (h : u ++ separator :: r = v ++ separator :: t) : u = v ∧ r = t := by
  induction u generalizing v with
  | nil =>
      cases v with
      | nil => exact ⟨rfl, (List.cons.inj h).2⟩
      | cons c v =>
          obtain ⟨rfl, _⟩ := List.cons.inj h
          exact absurd List.mem_cons_self hv
  | cons c u ih =>
      cases v with
      | nil =>
          obtain ⟨rfl, _⟩ := List.cons.inj h
          exact absurd List.mem_cons_self hu
      | cons c' v =>
          obtain ⟨rfl, hrest⟩ := List.cons.inj h
          rw [List.mem_cons, not_or] at hu hv
          obtain ⟨rfl, hr⟩ := ih hu.2 hv.2 hrest
          exact ⟨rfl, hr⟩

theorem eq_of_append_slash_eq {u v r t : String} (hu : '/' ∉ u.toList) (hv : '/' ∉ v.toList)
    (h : u ++ "/" ++ r = v ++ "/" ++ t) : u = v ∧ r = t := by
  have hsplit : u.toList ++ '/' :: r.toList = v.toList ++ '/' :: t.toList := by
    simpa using congrArg String.toList h
  obtain ⟨huv, hrt⟩ := eq_of_append_cons_eq hu hv hsplit
  exact ⟨String.toList_inj.1 huv, String.toList_inj.1 hrt⟩

namespace AccessLevel

theorem slash_not_mem_folder (level : AccessLevel) : '/' ∉ level.folder.toList := by
  cases level <;> decide

theorem isIdentityScoped_iff {level : AccessLevel} :
    level.isIdentityScoped = true ↔ level ≠ .guest := by
  cases level <;> simp [isIdentityScoped]

/-- A key with a prefix starts with the folder of the level, whatever the identity. -/
theorem level_eq_of_keyPrefix_append_eq {level level' : AccessLevel}
    {owner? owner?' : Option String} {key key' : String}
    (h : level.keyPrefix owner? ++ key = level'.keyPrefix owner?' ++ key') : level = level' := by
  have hfolder (l : AccessLevel) (o : Option String) (k : String) :
      ∃ rest, l.keyPrefix o ++ k = l.folder ++ "/" ++ rest := by
    cases o with
    | none => exact ⟨k, rfl⟩
    | some identity => exact ⟨identity ++ "/" ++ k, by simp [keyPrefix, String.append_assoc]⟩
  obtain ⟨rest, hrest⟩ := hfolder level owner? key
  obtain ⟨rest', hrest'⟩ := hfolder level' owner?' key'
  rw [hrest, hrest'] at h
  exact folder_injective
    (eq_of_append_slash_eq level.slash_not_mem_folder level'.slash_not_mem_folder h).1

theorem eq_of_keyPrefix_append_eq {level : AccessLevel} {identity identity' key key' : String}
    (hidentity : '/' ∉ identity.toList) (hidentity' : '/' ∉ identity'.toList)
    (h : level.keyPrefix (some identity) ++ key = level.keyPrefix (some identity') ++ key') :
    identity = identity' ∧ key = key' := by
  simp only [keyPrefix, String.append_assoc, String.append_right_inj] at h
  simp only [← String.append_assoc] at h
  exact eq_of_append_slash_eq hidentity hidentity' h

/-- An identity that holds a slash reaches into the folder of another one. -/
example : ownerOnly.keyPrefix (some "a/b") ++ "c" = ownerOnly.keyPrefix (some "a") ++ "b/c" := by
  decide

end AccessLevel

/-- The identity that is in effect for a call: the one it is aimed at, or else that of the caller.
-/
def CallOptions.identity? {m : Type → Type} (options : CallOptions m)
    (caller : Except AuthError String) : Option String :=
  options.target.or caller.toOption

namespace PrefixResolver

section

variable {m : Type → Type} [Monad m] (lookup : m (Except AuthError String))

theorem resolve_guest (target : Option String) :
    (accessLevelAware lookup).resolve .guest target = pure (.ok (AccessLevel.guest.keyPrefix none)) :=
  rfl

theorem resolve_aimed {level : AccessLevel} (hlevel : level ≠ .guest) (identity : String) :
    (accessLevelAware lookup).resolve level (some identity) =
      pure (.ok (level.keyPrefix (some identity))) :=
  if_pos (AccessLevel.isIdentityScoped_iff.2 hlevel)

theorem resolve_own [LawfulMonad m] {level : AccessLevel} (hlevel : level ≠ .guest) :
    (accessLevelAware lookup).resolve level none =
      (fun caller => (caller.map fun identity => level.keyPrefix (some identity)).mapError .auth) <$>
        lookup := by
  have hscoped := AccessLevel.isIdentityScoped_iff.2 hlevel
  rw [map_eq_pure_bind]
  refine (if_pos hscoped).trans (bind_congr fun caller => ?_)
  cases caller <;> rfl

end

variable {σ τ : Type} {lookup : StateM σ (Except AuthError String)}
  {lookup' : StateM τ (Except AuthError String)}
  {options : CallOptions (StateM σ)} {options' : CallOptions (StateM τ)}
  {world : σ} {world' : τ} {key key' full : String}

theorem fst_run_pure {α : Type} (a : α) : ((pure a : StateM σ α).run world).1 = a := rfl

theorem fst_run_map {α β : Type} (f : α → β) (x : StateM σ α) :
    ((f <$> x).run world).1 = f (x.run world).1 := rfl

theorem fst_run_fullKey (r : PrefixResolver (StateM σ)) :
    ((r.fullKey options key).run world).1 =
      ((r.resolve options.level options.target).run world).1.map (· ++ key) := rfl

theorem fullKey_accessLevelAware_eq_ok_iff :
    (((accessLevelAware lookup).fullKey options key).run world).1 = .ok full ↔
      options.level = .guest ∧ AccessLevel.guest.keyPrefix none ++ key = full ∨
      options.level ≠ .guest ∧ ∃ identity, options.identity? (lookup.run world).1 = some identity ∧
        options.level.keyPrefix (some identity) ++ key = full := by
  rw [fst_run_fullKey]
  by_cases hlevel : options.level = .guest
  · rw [hlevel, resolve_guest, fst_run_pure]
    simp [Except.map]
  · cases htarget : options.target with
    | some identity =>
        rw [resolve_aimed lookup hlevel, fst_run_pure]
        simp [Except.map, CallOptions.identity?, htarget, hlevel]
    | none =>
        rw [resolve_own lookup hlevel, fst_run_map]
        cases hcaller : (lookup.run world).1 with
        | ok identity =>
            simp [Except.map, Except.mapError, CallOptions.identity?, Except.toOption, htarget,
              hlevel]
        | error e =>
            simp [Except.map, Except.mapError, CallOptions.identity?, Except.toOption, htarget,
              hlevel]

/-- The full key of an object determines the level of the call, the key, and the identity in effect
unless the level is open to everyone: two calls that arrive at one full key agree in all of them,
whoever makes them, wherever each is aimed at, and whatever slashes the keys hold. -/
theorem fullKey_determines_call
    (h : (((accessLevelAware lookup).fullKey options key).run world).1 = .ok full)
    (h' : (((accessLevelAware lookup').fullKey options' key').run world').1 = .ok full)
    (hslash : options.level ≠ .guest → ∀ identity,
      options.identity? (lookup.run world).1 = some identity → '/' ∉ identity.toList)
    (hslash' : options'.level ≠ .guest → ∀ identity,
      options'.identity? (lookup'.run world').1 = some identity → '/' ∉ identity.toList) :
    options.level = options'.level ∧ key = key' ∧
      (options.level ≠ .guest → ∃ identity,
        options.identity? (lookup.run world).1 = some identity ∧
          options'.identity? (lookup'.run world').1 = some identity) := by
  rcases fullKey_accessLevelAware_eq_ok_iff.1 h with
    ⟨hlevel, hfull⟩ | ⟨hlevel, identity, hidentity, hfull⟩
  · rcases fullKey_accessLevelAware_eq_ok_iff.1 h' with ⟨hlevel', hfull'⟩ | ⟨hlevel', _, _, hfull'⟩
    · have hkey : key = key' := (String.append_right_inj _).1 (hfull.trans hfull'.symm)
      exact ⟨hlevel.trans hlevel'.symm, hkey, absurd hlevel⟩
    · have hguest := AccessLevel.level_eq_of_keyPrefix_append_eq (hfull.trans hfull'.symm)
      exact absurd hguest.symm hlevel'
  · rcases fullKey_accessLevelAware_eq_ok_iff.1 h' with
      ⟨_, hfull'⟩ | ⟨hlevel', identity', hidentity', hfull'⟩
    · have hguest := AccessLevel.level_eq_of_keyPrefix_append_eq (hfull.trans hfull'.symm)
      exact absurd hguest hlevel
    · have hsame := hfull.trans hfull'.symm
      have hlevels := AccessLevel.level_eq_of_keyPrefix_append_eq hsame
      rw [← hlevels] at hsame
      obtain ⟨rfl, hkey⟩ := AccessLevel.eq_of_keyPrefix_append_eq
        (hslash hlevel identity hidentity) (hslash' hlevel' identity' hidentity') hsame
      exact ⟨hlevels, hkey, fun _ => ⟨identity, hidentity, hidentity'⟩⟩

def signedIn (identity : String) : StateM Nat (Except AuthError String) := do
  modify (· + 1)
  return .ok identity

def signedOut : StateM Unit (Except AuthError String) :=
  return .error ⟨"not signed in", "sign in"⟩

/-- Someone reads an object of their own, which another one reads who is not signed in. -/
theorem fullKey_determines_call_sharedPicture :
    let own : CallOptions (StateM Nat) := { level := .ownerWrites }
    let aimed : CallOptions (StateM Unit) := { level := .ownerWrites, target := some "u1" }
    ∃ full, (((accessLevelAware (signedIn "u1")).fullKey own "a/b.png").run 0).1 = .ok full ∧
      (((accessLevelAware signedOut).fullKey aimed "a/b.png").run ()).1 = .ok full ∧
      ∃ identity, own.identity? (.ok "u1") = some identity ∧ '/' ∉ identity.toList ∧
        aimed.identity? (signedOut.run ()).1 = some identity := by
  intro own aimed
  have hown : (((accessLevelAware (signedIn "u1")).fullKey own "a/b.png").run 0).1 =
      .ok "protected/u1/a/b.png" := by decide
  have haimed : (((accessLevelAware signedOut).fullKey aimed "a/b.png").run ()).1 =
      .ok "protected/u1/a/b.png" := by decide
  have hslash : own.level ≠ .guest → ∀ identity,
      own.identity? ((signedIn "u1").run 0).1 = some identity → '/' ∉ identity.toList := by
    rintro _ _ ⟨⟩
    decide
  have hslash' : aimed.level ≠ .guest → ∀ identity,
      aimed.identity? (signedOut.run ()).1 = some identity → '/' ∉ identity.toList := by
    rintro _ _ ⟨⟩
    decide
  obtain ⟨_, _, hidentity⟩ := fullKey_determines_call hown haimed hslash hslash'
  obtain ⟨identity, hidentity, hidentity'⟩ := hidentity (by decide)
  exact ⟨_, hown, haimed, identity, hidentity, hslash (by decide) identity hidentity, hidentity'⟩

end PrefixResolver

end DataApi

import DataApi.Proofs.Build.FirstFailure
import Mathlib.Data.List.Nodup

/-!
# Documents for one operation

The usual documents choose their operation first and never again. What the other decorators declare
is then known from the list alone, and where no name occurs in it with two types, a policy is never
called upon: `applyAll_outline_of_signaturesAgree` says that the decorators go through exactly when
each of them can make its declarations. So a document for one operation can fail for three reasons
besides the schema: the operation belongs to another kind of document, an instance lacks a key, or a
predicate does not translate (`buildDocument_directive_eq_error_cases`).
-/

namespace DataApi

def SignaturesAgree (l : List (String × String)) : Prop :=
  ∀ a ∈ l, ∀ b ∈ l, a.1 = b.1 → a.2 = b.2

theorem typesAgree_of_signaturesAgree {declarations : List (String × Variable)}
    (h : SignaturesAgree (signatures declarations)) : TypesAgree declarations :=
  fun _ he _ hf hname => h _ (List.mem_map_of_mem he) _ (List.mem_map_of_mem hf) hname

namespace SignaturesAgree

theorem of_nodup {l : List (String × String)} (h : (l.map Prod.fst).Nodup) : SignaturesAgree l :=
  fun _ ha _ hb hname => congrArg Prod.snd (List.inj_on_of_nodup_map h ha hb hname)

theorem of_eq_type {l : List (String × String)} {type : String} (h : ∀ a ∈ l, a.2 = type) :
    SignaturesAgree l :=
  fun a ha b hb _ => (h a ha).trans (h b hb).symm

theorem of_append_left {l r : List (String × String)} (h : SignaturesAgree (l ++ r)) :
    SignaturesAgree l :=
  fun a ha b hb => h a (List.mem_append_left _ ha) b (List.mem_append_left _ hb)

end SignaturesAgree

namespace Decorator

variable {s : Schema} {kind : OperationKind} {config : Config} {op? : Option Operation}

theorem apply_outline_of_signaturesAgree {decorator : Decorator}
    {declared : List (String × Variable)} (hop : decorator.operation? = none)
    (hagree : SignaturesAgree (signatures declared ++ decorator.signature s kind op?)) :
    decorator.apply s config (.outline s kind config op? declared) =
      (decorator.declarationsAfter s kind op?).map fun more =>
        .outline s kind config op? (declared ++ more) := by
  cases hmore : decorator.declarationsAfter s kind op? with
  | error e =>
      rw [apply_of_operation?_eq_none _ hop, declarations_outline, hmore]
      rfl
  | ok more =>
      have hbefore : config.collisions.Admits declared :=
        fun _ => typesAgree_of_signaturesAgree hagree.of_append_left
      have hall : config.collisions.Admits (declared ++ more) := by
        rw [← signatures_declarationsAfter hmore, ← signatures_append] at hagree
        exact fun _ => typesAgree_of_signaturesAgree hagree
      refine (apply_outline_eq_ok_iff hbefore).2 ⟨?_, more, hmore, hall, ?_⟩
      · rw [hop]
        exact nofun
      · rw [hop]
        rfl

/-- Decorators that choose no operation and agree on types add all they declare to an outline, if
each of them can make its declarations. -/
theorem applyAll_outline_of_signaturesAgree {decorators : List Decorator}
    {declared : List (String × Variable)}
    (hops : ∀ decorator ∈ decorators, decorator.operation? = none)
    (hagree : SignaturesAgree
      (signatures declared ++ decorators.flatMap (signature s kind op?))) :
    applyAll s config (.outline s kind config op? declared) decorators =
      (registrations s kind op? decorators).map fun more =>
        .outline s kind config op? (declared ++ more) := by
  induction decorators generalizing declared with
  | nil => simp [applyAll, registrations, pure, Except.pure, Except.map]
  | cons decorator rest ih =>
      have hop : decorator.operation? = none := hops decorator List.mem_cons_self
      rw [List.flatMap_cons, ← List.append_assoc] at hagree
      have hstep : applyAll s config (.outline s kind config op? declared) (decorator :: rest) =
          decorator.apply s config (.outline s kind config op? declared) >>= fun d =>
            applyAll s config d rest := rfl
      rw [hstep, apply_outline_of_signaturesAgree hop hagree.of_append_left, registrations, hop,
        Option.none_or]
      cases hfirst : decorator.declarationsAfter s kind op? with
      | error e => rfl
      | ok first =>
          rw [← signatures_declarationsAfter hfirst, ← signatures_append] at hagree
          have hrest := ih (fun other hother => hops other (List.mem_cons_of_mem _ hother)) hagree
          simp only [List.append_assoc] at hrest
          refine hrest.trans ?_
          cases registrations s kind op? rest with
          | error e => rfl
          | ok others => rfl

theorem registrations_eq_error_cases {decorators : List Decorator} {op : Operation}
    {e : BuildError} (h : registrations s kind (some op) decorators = .error e) :
    (∃ key, e = .missingKeyField key) ∨ ∃ filter, e = .filter filter := by
  induction decorators generalizing op with
  | nil => nomatch h
  | cons decorator rest ih =>
      rcases bind_eq_error_iff.1 h with h | ⟨first, _, h⟩
      · rcases declarations_eq_error_cases h with ⟨_, _, hname, _⟩ | hcause
        · exact absurd hname (s.rootField_ne_empty op)
        · exact hcause
      · rcases bind_eq_error_iff.1 h with h | ⟨others, _, h⟩
        · cases hop : decorator.operation? with
          | none => exact ih (by rwa [hop] at h)
          | some other => exact ih (by rwa [hop] at h)
        · nomatch h

end Decorator

variable {s : Schema} {kind : OperationKind} {config : Config} {op : Operation}
  {decorators : List Decorator}

/-- A document for one operation, whose decorators agree on types: the operation must be of its
kind, and then every decorator must be able to make its declarations. -/
theorem buildDocument_directive (hvalid : s.Valid)
    (hops : ∀ decorator ∈ decorators, decorator.operation? = none)
    (hagree : SignaturesAgree (decorators.flatMap (Decorator.signature s kind (some op)))) :
    buildDocument s kind config (.directive op :: decorators) =
      if op.kind = kind then
        (Decorator.registrations s kind (some op) decorators).map
          (.outline s kind config (some op))
      else .error (.operationMismatch op kind) := by
  have hcons : Decorator.applyAll s config { kind } (.directive op :: decorators) =
      Decorator.direct s config { kind } op >>= fun d =>
        Decorator.applyAll s config d decorators := rfl
  rw [buildDocument_of_valid hvalid, hcons, Decorator.direct]
  by_cases hkind : op.kind = kind
  · have hrun : Decorator.applyAll s config (.outline s kind config (some op) []) decorators = _ :=
      Decorator.applyAll_outline_of_signaturesAgree hops hagree
    rw [if_pos hkind, if_pos hkind]
    refine (congrArg (· >>= _) hrun).trans ?_
    cases Decorator.registrations s kind (some op) decorators with
    | error e => rfl
    | ok declared => rfl
  · rw [if_neg hkind, if_neg hkind]
    rfl

theorem buildDocument_directive_eq_error_cases
    (hops : ∀ decorator ∈ decorators, decorator.operation? = none)
    (hagree : SignaturesAgree (decorators.flatMap (Decorator.signature s kind (some op))))
    {e : BuildError} (h : buildDocument s kind config (.directive op :: decorators) = .error e) :
    (∃ defect, e = .invalidSchema s.name defect) ∨
      (op.kind ≠ kind ∧ e = .operationMismatch op kind) ∨
      (∃ key, e = .missingKeyField key) ∨ ∃ filter, e = .filter filter := by
  by_cases hschema : ∃ defect, e = .invalidSchema s.name defect
  · exact .inl hschema
  · have hvalid : s.Valid :=
      valid_of_buildDocument_eq_error h fun defect he => hschema ⟨defect, he⟩
    rw [buildDocument_directive hvalid hops hagree] at h
    by_cases hkind : op.kind = kind
    · rw [if_pos hkind] at h
      cases hdeclared : Decorator.registrations s kind (some op) decorators with
      | ok declared =>
          rw [hdeclared] at h
          nomatch h
      | error e' =>
          rw [hdeclared] at h
          obtain rfl : e' = e := Except.error.inj h
          exact .inr (.inr (Decorator.registrations_eq_error_cases hdeclared))
    · rw [if_neg hkind] at h
      exact .inr (.inl ⟨hkind, (Except.error.inj h).symm⟩)

end DataApi

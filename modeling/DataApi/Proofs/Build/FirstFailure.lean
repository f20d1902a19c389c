import DataApi.Proofs.Build.Signature

/-!
# Why a document is not built

One cause is reported, the first: an invalid schema before everything else, then the first decorator
that fails on what those before it have built, and last a document that nothing was selected for.
What the decorators before it have built is an outline, so that name, operation and selection are
there together or not at all, and they are there exactly when an operation was chosen. Hence a
decorator that derives a type fails for want of an operation exactly when none was chosen before it,
even if the model has no name, and a list that goes through is incomplete exactly when it chooses
none.
-/

namespace DataApi

namespace Decorator

variable {s : Schema} {kind : OperationKind} {config : Config}

/-- A decorator is the first one of a list to fail, on the document that the decorators `before` it
have built. -/
structure FirstFailing (s : Schema) (kind : OperationKind) (config : Config)
    (decorators before : List Decorator) (decorator : Decorator) (e : BuildError) : Prop where
  split : ∃ after, decorators = before ++ decorator :: after
  fails : ∃ d, applyAll s config { kind } before = .ok d ∧ decorator.apply s config d = .error e

theorem applyAll_eq_error_iff {decorators : List Decorator} {e : BuildError} :
    applyAll s config { kind } decorators = .error e ↔
      ∃ before decorator, FirstFailing s kind config decorators before decorator e := by
  rw [applyAll, foldlM_eq_error_iff]
  constructor
  · rintro ⟨before, decorator, after, d, hsplit, hbefore, hfails⟩
    exact ⟨before, decorator, ⟨after, hsplit⟩, d, hbefore, hfails⟩
  · rintro ⟨before, decorator, ⟨after, hsplit⟩, d, hbefore, hfails⟩
    exact ⟨before, decorator, after, d, hsplit, hbefore, hfails⟩

/-- Whatever the decorators of a list have built is the outline of the list. -/
theorem applyAll_eq_outline {decorators : List Decorator} {d : Document}
    (h : applyAll s config { kind } decorators = .ok d) :
    ∃ declared, d = .outline s kind config (lastOperation? decorators) declared := by
  obtain ⟨_, declared, _, _, hd⟩ := applyAll_eq_ok_iff.1 h
  exact ⟨declared, hd⟩

theorem name_eq_empty_iff {decorators : List Decorator} {d : Document}
    (h : applyAll s config { kind } decorators = .ok d) :
    d.name = "" ↔ ∀ op, .directive op ∉ decorators := by
  obtain ⟨declared, rfl⟩ := applyAll_eq_outline h
  rw [← lastOperation?_eq_none_iff, Document.outline]
  cases lastOperation? decorators with
  | none => simp
  | some op => simpa using s.rootField_ne_empty op

theorem selection?_eq_none_iff {decorators : List Decorator} {d : Document}
    (h : applyAll s config { kind } decorators = .ok d) :
    d.selection? = none ↔ ∀ op, .directive op ∉ decorators := by
  obtain ⟨declared, rfl⟩ := applyAll_eq_outline h
  rw [← lastOperation?_eq_none_iff, Document.outline, Option.map_eq_none_iff]

theorem kind_eq {decorators : List Decorator} {d : Document}
    (h : applyAll s config { kind } decorators = .ok d) : d.kind = kind := by
  obtain ⟨declared, rfl⟩ := applyAll_eq_outline h
  rfl

theorem declarations_eq_error_cases {decorator : Decorator} {d : Document} {e : BuildError}
    (h : decorator.declarations s d = .error e) :
    (∃ i, decorator.inputDecorator? = some i ∧ d.name = "" ∧ e = .missingDirective i) ∨
      (∃ key, e = .missingKeyField key) ∨ ∃ filter, e = .filter filter := by
  cases hi : decorator.inputDecorator? with
  | some i =>
      obtain ⟨input, hform⟩ := declarations_of_inputDecorator? (s := s) hi
      rw [hform, bind_eq_error_iff] at h
      rcases h with h | ⟨type, _, h⟩
      · obtain ⟨hname, he⟩ := inputType_eq_error_iff.1 h
        exact .inl ⟨i, rfl, hname, he⟩
      · rcases bind_eq_error_iff.1 h with h | ⟨value, _, h⟩
        · obtain ⟨key, _, he⟩ := mapError_eq_error_iff.1 h
          exact .inr (.inl ⟨key, he.symm⟩)
        · nomatch h
  | none =>
      cases decorator with
      | directive op => nomatch h
      | model m how => nomatch hi
      | modelId binding =>
          cases binding with
          | delete m => nomatch hi
          | byId id => nomatch h
          | byKey ids =>
              obtain ⟨key, _, he⟩ := mapError_eq_error_iff.1 h
              exact .inr (.inl ⟨key, he.symm⟩)
      | filter p =>
          rcases bind_eq_error_iff.1 h with h | ⟨filter?, _, h⟩
          · obtain ⟨filter, _, he⟩ := mapError_eq_error_iff.1 h
            exact .inr (.inr ⟨filter, he.symm⟩)
          · nomatch h
      | pagination page => nomatch h

theorem apply_eq_error_cases {decorator : Decorator} {d : Document} {e : BuildError}
    (h : decorator.apply s config d = .error e) :
    (∃ op, decorator = .directive op ∧ op.kind ≠ d.kind ∧ e = .operationMismatch op d.kind) ∨
      (∃ i, decorator.inputDecorator? = some i ∧ d.name = "" ∧ e = .missingDirective i) ∨
      (∃ key, e = .missingKeyField key) ∨ (∃ filter, e = .filter filter) ∨
      ∃ c, e = .collision c := by
  cases hop : decorator.operation? with
  | some op =>
      obtain rfl := eq_directive_of_operation? hop
      rw [apply, direct] at h
      by_cases hkind : op.kind = d.kind
      · rw [if_pos hkind] at h
        cases h
      · rw [if_neg hkind] at h
        exact .inl ⟨op, rfl, hkind, (Except.error.inj h).symm⟩
  | none =>
      rw [apply_of_operation?_eq_none d hop, bind_eq_error_iff] at h
      rcases h with h | ⟨declared, _, h⟩
      · rcases declarations_eq_error_cases h with hmissing | hkey | hfilter
        · exact .inr (.inl hmissing)
        · exact .inr (.inr (.inl hkey))
        · exact .inr (.inr (.inr (.inl hfilter)))
      · obtain ⟨c, _, he⟩ := mapError_eq_error_iff.1 h
        exact .inr (.inr (.inr (.inr ⟨c, he.symm⟩)))

theorem apply_eq_error_operationMismatch_iff {decorator : Decorator} {d : Document}
    {op : Operation} {k : OperationKind} :
    decorator.apply s config d = .error (.operationMismatch op k) ↔
      decorator = .directive op ∧ op.kind ≠ d.kind ∧ k = d.kind := by
  constructor
  · intro h
    rcases apply_eq_error_cases h with ⟨op', hd, hkind, he⟩ | ⟨_, _, _, he⟩ | ⟨_, he⟩ | ⟨_, he⟩ |
      ⟨_, he⟩
    · obtain ⟨rfl, rfl⟩ := BuildError.operationMismatch.inj he
      exact ⟨hd, hkind, rfl⟩
    all_goals nomatch he
  · rintro ⟨rfl, hkind, rfl⟩
    exact if_neg hkind

theorem apply_eq_error_missingDirective_iff {decorator : Decorator} {d : Document}
    {i : InputDecorator} :
    decorator.apply s config d = .error (.missingDirective i) ↔
      decorator.inputDecorator? = some i ∧ d.name = "" := by
  constructor
  · intro h
    rcases apply_eq_error_cases h with ⟨_, _, _, he⟩ | ⟨i', hi, hname, he⟩ | ⟨_, he⟩ | ⟨_, he⟩ |
      ⟨_, he⟩
    · nomatch he
    · obtain rfl := BuildError.missingDirective.inj he
      exact ⟨hi, hname⟩
    all_goals nomatch he
  · rintro ⟨hi, hname⟩
    have hop : decorator.operation? = none := by
      rw [operation?_eq_none_iff]
      rintro op rfl
      nomatch hi
    obtain ⟨input, hform⟩ := declarations_of_inputDecorator? (s := s) hi
    rw [apply_of_operation?_eq_none d hop, hform, inputType_eq_error_iff.2 ⟨hname, rfl⟩]
    rfl

theorem apply_eq_error_collision_iff {decorator : Decorator} {d : Document} {c : Collision} :
    decorator.apply s config d = .error (.collision c) ↔
      ∃ declared, decorator.declarations s d = .ok declared ∧
        d.register config.collisions declared = .error c := by
  cases hop : decorator.operation? with
  | some op =>
      obtain rfl := eq_directive_of_operation? hop
      have hdirect : direct s config d op ≠ .error (.collision c) := by
        unfold direct
        split <;> simp
      refine iff_of_false hdirect ?_
      rintro ⟨declared, hdeclared, hregister⟩
      obtain rfl := Except.ok.inj hdeclared
      nomatch hregister
  | none =>
      rw [apply_of_operation?_eq_none d hop, bind_eq_error_iff]
      simp only [mapError_eq_error_iff, BuildError.collision.injEq, exists_eq_right]
      refine or_iff_right fun h => ?_
      rcases declarations_eq_error_cases h with ⟨_, _, _, he⟩ | ⟨_, he⟩ | ⟨_, he⟩
      all_goals nomatch he

namespace FirstFailing

variable {decorators before : List Decorator} {decorator : Decorator} {e : BuildError}

theorem eq_missingDirective_iff (h : FirstFailing s kind config decorators before decorator e)
    {i : InputDecorator} :
    e = .missingDirective i ↔ decorator.inputDecorator? = some i ∧ ∀ op, .directive op ∉ before := by
  obtain ⟨d, hd, hfails⟩ := h.fails
  have hcause : decorator.apply s config d = .error (.missingDirective i) ↔ _ :=
    apply_eq_error_missingDirective_iff
  rwa [hfails, Except.error.injEq, name_eq_empty_iff hd] at hcause

theorem eq_operationMismatch_iff (h : FirstFailing s kind config decorators before decorator e)
    {op : Operation} {k : OperationKind} :
    e = .operationMismatch op k ↔ decorator = .directive op ∧ op.kind ≠ kind ∧ k = kind := by
  obtain ⟨d, hd, hfails⟩ := h.fails
  have hcause : decorator.apply s config d = .error (.operationMismatch op k) ↔ _ :=
    apply_eq_error_operationMismatch_iff
  rwa [hfails, Except.error.injEq, kind_eq hd] at hcause

end FirstFailing

end Decorator

theorem buildDocument_of_valid {s : Schema} (hvalid : s.Valid) (kind : OperationKind)
    (config : Config) (decorators : List Decorator) :
    buildDocument s kind config decorators = (do
      let d ← Decorator.applyAll s config { kind } decorators
      if d.selection?.isNone then throw .incomplete
      return d) := by
  have hstate : (((Builder.new s kind).withConfig config).decorateAll decorators).state =
      Decorator.applyAll s config { kind } decorators := by
    rw [Builder.state_decorateAll, Builder.withConfig, Builder.new,
      Schema.validate_eq_ok_iff.2 hvalid]
    rfl
  rw [buildDocument, Builder.build, hstate]

theorem buildDocument_of_invalid {s : Schema} {e : BuildError} (h : s.validate = .error e)
    (kind : OperationKind) (config : Config) (decorators : List Decorator) :
    buildDocument s kind config decorators = .error e := by
  rw [buildDocument, Builder.build, Builder.state_decorateAll, Builder.withConfig, Builder.new, h]
  rfl

theorem buildDocument_eq_error_iff_of_valid {s : Schema} (hvalid : s.Valid) {kind : OperationKind}
    {config : Config} {decorators : List Decorator} {e : BuildError} :
    buildDocument s kind config decorators = .error e ↔
      (∃ before decorator,
        Decorator.FirstFailing s kind config decorators before decorator e) ∨
      (∃ d, Decorator.applyAll s config { kind } decorators = .ok d) ∧ e = .incomplete ∧
        ∀ op, .directive op ∉ decorators := by
  rw [buildDocument_of_valid hvalid, bind_eq_error_iff, Decorator.applyAll_eq_error_iff]
  refine or_congr_right ⟨?_, ?_⟩
  · rintro ⟨d, hd, hbuild⟩
    cases hsel : d.selection? with
    | none =>
        rw [hsel] at hbuild
        exact ⟨⟨d, hd⟩, (Except.error.inj hbuild).symm, (Decorator.selection?_eq_none_iff hd).1 hsel⟩
    | some members =>
        rw [hsel] at hbuild
        nomatch hbuild
  · rintro ⟨⟨d, hd⟩, rfl, hnone⟩
    refine ⟨d, hd, ?_⟩
    rw [(Decorator.selection?_eq_none_iff hd).2 hnone]
    rfl

theorem Schema.validate_eq_error_iff {s : Schema} {e : BuildError} :
    s.validate = .error e ↔ ∃ defect, s.defect? = some defect ∧ e = .invalidSchema s.name defect := by
  unfold validate
  cases s.defect? with
  | none => simp
  | some defect => simp [eq_comm]

theorem valid_of_buildDocument_eq_error {s : Schema} {kind : OperationKind} {config : Config}
    {decorators : List Decorator} {e : BuildError}
    (h : buildDocument s kind config decorators = .error e)
    (hschema : ∀ defect, e ≠ .invalidSchema s.name defect) : s.Valid := by
  cases hvalidate : s.validate with
  | ok u => exact Schema.validate_eq_ok_iff.1 hvalidate
  | error e' =>
      rw [buildDocument_of_invalid hvalidate] at h
      obtain ⟨defect, _, rfl⟩ := Schema.validate_eq_error_iff.1 hvalidate
      exact absurd (Except.error.inj h).symm (hschema defect)

/-- An error that neither the schema nor the end of the list can give is the one of the first
decorator that fails. -/
theorem buildDocument_eq_error_iff_firstFailing {s : Schema} {kind : OperationKind}
    {config : Config} {decorators : List Decorator} {e : BuildError}
    (hschema : ∀ defect, e ≠ .invalidSchema s.name defect) (hcomplete : e ≠ .incomplete) :
    buildDocument s kind config decorators = .error e ↔
      s.Valid ∧ ∃ before decorator,
        Decorator.FirstFailing s kind config decorators before decorator e := by
  constructor
  · intro h
    have hvalid := valid_of_buildDocument_eq_error h hschema
    rcases (buildDocument_eq_error_iff_of_valid hvalid).1 h with hfirst | ⟨_, he, _⟩
    · exact ⟨hvalid, hfirst⟩
    · exact absurd he hcomplete
  · rintro ⟨hvalid, hfirst⟩
    exact (buildDocument_eq_error_iff_of_valid hvalid).2 (.inl hfirst)

/-- A document fails to be built for the first cause there is: what is wrong with the schema,
whatever the decorators; or else the first decorator that fails on what those before it have built,
whatever follows; or else, if nothing fails on the way, for want of an operation. The want of an
operation is found earlier by a decorator that derives a type from it, if there is none before this
decorator, and an operation of another kind is found where it is chosen. -/
theorem build_fails_with_first_cause (s : Schema) (kind : OperationKind) (config : Config)
    (decorators : List Decorator) :
    (∀ e, s.validate = .error e → (∃ defect, e = .invalidSchema s.name defect) ∧
      buildDocument s kind config decorators = .error e) ∧
    (s.Valid → ∀ before decorator e,
      Decorator.FirstFailing s kind config decorators before decorator e →
        buildDocument s kind config decorators = .error e) ∧
    (s.Valid →
      (∀ before decorator e, ¬Decorator.FirstFailing s kind config decorators before decorator e) →
        ∀ e, buildDocument s kind config decorators = .error e ↔
          e = .incomplete ∧ ∀ op, .directive op ∉ decorators) ∧
    (∀ i, buildDocument s kind config decorators = .error (.missingDirective i) ↔
      s.Valid ∧ ∃ before decorator e,
        Decorator.FirstFailing s kind config decorators before decorator e ∧
          decorator.inputDecorator? = some i ∧ ∀ op, .directive op ∉ before) ∧
    (∀ op k, buildDocument s kind config decorators = .error (.operationMismatch op k) ↔
      s.Valid ∧ ∃ before decorator e,
        Decorator.FirstFailing s kind config decorators before decorator e ∧
          decorator = .directive op ∧ op.kind ≠ kind ∧ k = kind) := by
  refine ⟨fun e he => ?_, fun hvalid before decorator e hfirst => ?_, fun hvalid hnone e => ?_,
    fun i => ?_, fun op k => ?_⟩
  · obtain ⟨defect, _, hdefect⟩ := Schema.validate_eq_error_iff.1 he
    exact ⟨⟨defect, hdefect⟩, buildDocument_of_invalid he kind config decorators⟩
  · exact (buildDocument_eq_error_iff_of_valid hvalid).2 (.inl ⟨before, decorator, hfirst⟩)
  · have hreached : ∃ d, Decorator.applyAll s config { kind } decorators = .ok d := by
      cases hrun : Decorator.applyAll s config { kind } decorators with
      | ok d => exact ⟨d, rfl⟩
      | error e' =>
          obtain ⟨before, decorator, hfirst⟩ := Decorator.applyAll_eq_error_iff.1 hrun
          exact absurd hfirst (hnone before decorator e')
    rw [buildDocument_eq_error_iff_of_valid hvalid]
    constructor
    · rintro (⟨before, decorator, hfirst⟩ | ⟨_, he, hop⟩)
      · exact absurd hfirst (hnone before decorator e)
      · exact ⟨he, hop⟩
    · exact fun h => .inr ⟨hreached, h⟩
  · have hschema : ∀ defect, BuildError.missingDirective i ≠ .invalidSchema s.name defect := nofun
    rw [buildDocument_eq_error_iff_firstFailing hschema nofun]
    refine and_congr_right fun _ => exists_congr fun before => exists_congr fun decorator => ?_
    constructor
    · exact fun hfirst => ⟨_, hfirst, hfirst.eq_missingDirective_iff.1 rfl⟩
    · rintro ⟨e, hfirst, hcause⟩
      exact hfirst.eq_missingDirective_iff.2 hcause ▸ hfirst
  · have hschema : ∀ defect, BuildError.operationMismatch op k ≠ .invalidSchema s.name defect :=
      nofun
    rw [buildDocument_eq_error_iff_firstFailing hschema nofun]
    refine and_congr_right fun _ => exists_congr fun before => exists_congr fun decorator => ?_
    constructor
    · exact fun hfirst => ⟨_, hfirst, hfirst.eq_operationMismatch_iff.1 rfl⟩
    · rintro ⟨e, hfirst, hcause⟩
      exact hfirst.eq_operationMismatch_iff.2 hcause ▸ hfirst

/-- The input comes before any operation, so that neither the operation of another kind nor the
unknown operator behind it is looked at. -/
theorem build_fails_with_first_cause_input :
    buildDocument .post .mutation {} [.pagination { limit := some 5 },
      .model (.ofList [("id", .string "1")]) .create, .directive .get,
      .filter (.compare "title" (.named "matches" (.string "x")))] =
      .error (.missingDirective .model) := by
  have hvalid : Schema.post.Valid := Schema.defect?_eq_none_iff.1 rfl
  obtain ⟨_, hfirst, _⟩ := build_fails_with_first_cause .post .mutation {}
    [.pagination { limit := some 5 }, .model (.ofList [("id", .string "1")]) .create,
      .directive .get, .filter (.compare "title" (.named "matches" (.string "x")))]
  exact hfirst hvalid [.pagination { limit := some 5 }] _ _ ⟨⟨_, rfl⟩, _, rfl, rfl⟩

end DataApi

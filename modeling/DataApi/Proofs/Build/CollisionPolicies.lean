import DataApi.Proofs.Build.FirstFailure

/-!
# Rejecting collisions and overwriting them

A decorator asks the policy twice: when the variables it declares are collected, and when they are
declared in the document. Under either policy it then goes through with the same document, or fails
for a reason that has nothing to do with the policy; all that rejecting adds is that it may collide.
So the outcome under `overwrite` is the outcome under `reject` unless that one is a collision
(`apply_agreesUnlessCollision`). The relation is kept by taking one step after the other, hence it
holds of lists of decorators and of what they build.
-/

namespace DataApi

/-- The second outcome is the first one, unless the first one is a collision. -/
def AgreesUnlessCollision {α : Type} (x y : Except BuildError α) : Prop :=
  x = y ∨ ∃ c, x = .error (.collision c)

namespace AgreesUnlessCollision

variable {α β : Type} {x y : Except BuildError α}

theorem refl (x : Except BuildError α) : AgreesUnlessCollision x x := .inl rfl

theorem bind {f g : α → Except BuildError β} (h : AgreesUnlessCollision x y)
    (hstep : ∀ a, AgreesUnlessCollision (f a) (g a)) :
    AgreesUnlessCollision (x >>= f) (y >>= g) := by
  rcases h with rfl | ⟨c, rfl⟩
  · cases x with
    | error e => exact refl _
    | ok a => exact hstep a
  · exact .inr ⟨c, rfl⟩

theorem foldlM {f g : β → α → Except BuildError β}
    (hstep : ∀ b a, AgreesUnlessCollision (f b a) (g b a)) (xs : List α) (b : β) :
    AgreesUnlessCollision (xs.foldlM f b) (xs.foldlM g b) := by
  induction xs generalizing b with
  | nil => exact refl _
  | cons x xs ih =>
      rw [List.foldlM_cons, List.foldlM_cons]
      exact (hstep b x).bind ih

theorem eq_ok {a : α} (h : AgreesUnlessCollision x y) (hx : x = .ok a) : y = .ok a := by
  rcases h with rfl | ⟨c, rfl⟩
  · exact hx
  · nomatch hx

theorem eq_error {e : BuildError} (h : AgreesUnlessCollision x y) (hx : x = .error e)
    (he : ∀ c, e ≠ .collision c) : y = .error e := by
  rcases h with rfl | ⟨c, rfl⟩
  · exact hx
  · exact absurd (Except.error.inj hx).symm (he c)

end AgreesUnlessCollision

theorem Document.register_overwrite (d : Document) (declarations : List (String × Variable)) :
    d.register .overwrite declarations =
      .ok { d with declared := d.declared.insertAll declarations } :=
  Document.register_eq_ok_iff.2 ⟨rfl, nofun⟩

theorem Document.register_agreesUnlessCollision (d : Document)
    (declarations : List (String × Variable)) :
    AgreesUnlessCollision ((d.register .reject declarations).mapError .collision)
      ((d.register .overwrite declarations).mapError .collision) := by
  cases hreject : d.register .reject declarations with
  | error c => exact .inr ⟨c, rfl⟩
  | ok e =>
      obtain ⟨rfl, _⟩ := Document.register_eq_ok_iff.1 hreject
      rw [Document.register_overwrite]
      exact .refl _

namespace Decorator

variable {s : Schema} {typename : Bool}

/-- A decorator does the same under both policies, unless it collides. -/
theorem apply_agreesUnlessCollision (d : Document) (decorator : Decorator) :
    AgreesUnlessCollision (decorator.apply s { collisions := .reject, typename } d)
      (decorator.apply s { collisions := .overwrite, typename } d) := by
  cases hop : decorator.operation? with
  | some op =>
      obtain rfl := eq_directive_of_operation? hop
      exact .refl _
  | none =>
      rw [apply_of_operation?_eq_none d hop, apply_of_operation?_eq_none d hop]
      exact AgreesUnlessCollision.bind (.refl _) fun declared =>
        d.register_agreesUnlessCollision declared

theorem apply_overwrite_ne_collision (d : Document) (decorator : Decorator) (c : Collision) :
    decorator.apply s { collisions := .overwrite, typename } d ≠ .error (.collision c) := by
  rw [ne_eq, apply_eq_error_collision_iff]
  rintro ⟨declared, _, hregister⟩
  rw [Document.register_overwrite] at hregister
  nomatch hregister

theorem applyAll_agreesUnlessCollision (d : Document) (decorators : List Decorator) :
    AgreesUnlessCollision (applyAll s { collisions := .reject, typename } d decorators)
      (applyAll s { collisions := .overwrite, typename } d decorators) :=
  AgreesUnlessCollision.foldlM apply_agreesUnlessCollision decorators d

end Decorator

theorem buildDocument_agreesUnlessCollision (s : Schema) (kind : OperationKind) (typename : Bool)
    (decorators : List Decorator) :
    AgreesUnlessCollision
      (buildDocument s kind { collisions := .reject, typename } decorators)
      (buildDocument s kind { collisions := .overwrite, typename } decorators) := by
  cases hvalidate : s.validate with
  | error e =>
      rw [buildDocument_of_invalid hvalidate, buildDocument_of_invalid hvalidate]
      exact .refl _
  | ok u =>
      have hvalid : s.Valid := Schema.validate_eq_ok_iff.1 hvalidate
      rw [buildDocument_of_valid hvalid, buildDocument_of_valid hvalid]
      exact (Decorator.applyAll_agreesUnlessCollision _ decorators).bind fun _ => .refl _

theorem buildDocument_overwrite_ne_collision (s : Schema) (kind : OperationKind) (typename : Bool)
    (decorators : List Decorator) (c : Collision) :
    buildDocument s kind { collisions := .overwrite, typename } decorators ≠
      .error (.collision c) := by
  have hschema : ∀ defect, BuildError.collision c ≠ .invalidSchema s.name defect := nofun
  rw [ne_eq, buildDocument_eq_error_iff_firstFailing hschema nofun]
  rintro ⟨_, before, decorator, hfirst⟩
  obtain ⟨d, _, hfails⟩ := hfirst.fails
  exact Decorator.apply_overwrite_ne_collision d decorator c hfails

/-- Overwriting builds what rejecting builds, with the variables in the same order, and fails where
rejecting fails with the same error, unless that error is a collision. It never collides itself. -/
theorem buildDocument_overwrite_of_reject (s : Schema) (kind : OperationKind) (typename : Bool)
    (decorators : List Decorator) :
    (∀ d, buildDocument s kind { collisions := .reject, typename } decorators = .ok d →
      buildDocument s kind { collisions := .overwrite, typename } decorators = .ok d) ∧
    (∀ e, buildDocument s kind { collisions := .reject, typename } decorators = .error e →
      (∀ c, e ≠ .collision c) →
        buildDocument s kind { collisions := .overwrite, typename } decorators = .error e) ∧
    ∀ c, buildDocument s kind { collisions := .overwrite, typename } decorators ≠
      .error (.collision c) := by
  have hagrees := buildDocument_agreesUnlessCollision s kind typename decorators
  exact ⟨fun d hd => hagrees.eq_ok hd, fun e he hcollision => hagrees.eq_error he hcollision,
    buildDocument_overwrite_ne_collision s kind typename decorators⟩

def repeatedUpdate (second : Instance) : List Decorator :=
  [.directive .update, .model (.ofList [("id", .string "7")]) .update, .modelId (.byId "7"),
    .model second .update]

theorem buildDocument_overwrite_of_reject_repeatedUpdate :
    (∃ d, buildDocument .post .mutation { collisions := .reject }
        (repeatedUpdate (.ofList [("id", .string "8")])) = .ok d ∧
      buildDocument .post .mutation { collisions := .overwrite }
        (repeatedUpdate (.ofList [("id", .string "8")])) = .ok d ∧
      d.declared.keys = ["input", "id"]) ∧
    buildDocument .post .mutation { collisions := .overwrite }
      (repeatedUpdate (.ofList [("title", .string "a")])) =
      .error (.missingKeyField ⟨"Post", "id"⟩) := by
  obtain ⟨hok, _⟩ := buildDocument_overwrite_of_reject .post .mutation true
    (repeatedUpdate (.ofList [("id", .string "8")]))
  obtain ⟨_, herror, _⟩ := buildDocument_overwrite_of_reject .post .mutation true
    (repeatedUpdate (.ofList [("title", .string "a")]))
  exact ⟨⟨_, rfl, hok _ rfl, rfl⟩, herror _ rfl nofun⟩

end DataApi

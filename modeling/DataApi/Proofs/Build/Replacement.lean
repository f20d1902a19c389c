import DataApi.Proofs.Build.Signature

/-!
# The last decorator of a kind

Two decorators of a kind both choose an operation, or declare the same names with the same types,
in the same order. So what the first one does to a document is undone by the second one down to the
places of the variables: it writes the same entries, and the names that it would have to put at the
end stand there already. Nor can the first one bring the second one to fail, as a document that
takes the declarations of one has nothing against those of the other, and whatever else can go wrong
with a decorator only depends on the kind and the name of the document.
-/

namespace DataApi

namespace Decorator

/-- Two decorators of which the second one replaces what the first one does: they may differ in the
operation, in the way an instance is written, and in all data. Both predicates must restrict
something, and pages must agree in what is set of them. -/
inductive SameKind : Decorator → Decorator → Prop where
  | directive (op other : Operation) : SameKind (.directive op) (.directive other)
  | model (m n : Instance) (kind other : MutationKind) : SameKind (.model m kind) (.model n other)
  | delete (m n : Instance) : SameKind (.modelId (.delete m)) (.modelId (.delete n))
  | byId (id other : String) : SameKind (.modelId (.byId id)) (.modelId (.byId other))
  | byKey (ids others : OrderedMap String) :
      SameKind (.modelId (.byKey ids)) (.modelId (.byKey others))
  | filter (p q : Predicate) (f g : Json) (hp : p.filter? = .ok (some f))
      (hq : q.filter? = .ok (some g)) : SameKind (.filter p) (.filter q)
  | pagination (page other : Page) (hlimit : page.limit.isSome = other.limit.isSome)
      (htoken : page.nextToken.isSome = other.nextToken.isSome) :
      SameKind (.pagination page) (.pagination other)

variable {s : Schema} {config : Config} {d e : Document} {first second : Decorator}

theorem SameKind.signatures_eq (h : SameKind first second) {l r : List (String × Variable)}
    (hl : first.declarations s d = .ok l) (hr : second.declarations s d = .ok r) :
    signatures l = signatures r := by
  cases h with
  | directive op other => rw [← Except.ok.inj hl, ← Except.ok.inj hr]
  | model m n kind other =>
      obtain ⟨_, input, _, rfl⟩ := inputDeclaration_of_eq_ok hl
      obtain ⟨_, input', _, rfl⟩ := inputDeclaration_of_eq_ok hr
      rfl
  | delete m n =>
      obtain ⟨_, input, _, rfl⟩ := inputDeclaration_of_eq_ok hl
      obtain ⟨_, input', _, rfl⟩ := inputDeclaration_of_eq_ok hr
      rfl
  | byId id other =>
      rw [← Except.ok.inj hl, ← Except.ok.inj hr]
      cases s.customKeyFields?.bind List.head? <;> rfl
  | byKey ids others =>
      rw [signatures_keyIdentifiers (mapError_eq_ok_iff.1 hl),
        signatures_keyIdentifiers (mapError_eq_ok_iff.1 hr)]
  | filter p q f g hp hq =>
      rw [declarations, hp] at hl
      rw [declarations, hq] at hr
      rw [← Except.ok.inj hl, ← Except.ok.inj hr]
      cases d.kind <;> rfl
  | pagination page other hlimit htoken =>
      rw [← Except.ok.inj hl, ← Except.ok.inj hr, signatures_pageDeclarations,
        signatures_pageDeclarations, map_eq_of_isSome_eq hlimit, map_eq_of_isSome_eq htoken]

theorem apply_directive_directive {op other : Operation}
    (h : apply s config d (.directive op) = .ok e) :
    apply s config e (.directive other) = apply s config d (.directive other) := by
  obtain ⟨_, rfl⟩ := direct_eq_ok_iff.1 h
  rfl

/-- A decorator that declares the names and types of another one is not affected by it. -/
theorem apply_of_signatures_eq (hfirst : first.operation? = none)
    (hsecond : second.operation? = none)
    (hsame : ∀ l r, first.declarations s d = .ok l → second.declarations s d = .ok r →
      signatures l = signatures r)
    (h : first.apply s config d = .ok e) :
    second.apply s config e = second.apply s config d := by
  rw [apply_of_operation?_eq_none d hfirst] at h
  obtain ⟨l, hl, h⟩ := bind_eq_ok_iff.1 h
  have hregister := mapError_eq_ok_iff.1 h
  have hdeclarations : second.declarations s e = second.declarations s d := by
    obtain ⟨rfl, _⟩ := Document.register_eq_ok_iff.1 hregister
    exact declarations_congr rfl rfl second
  rw [apply_of_operation?_eq_none e hsecond, apply_of_operation?_eq_none d hsecond, hdeclarations]
  cases hr : second.declarations s d with
  | error cause => rfl
  | ok r =>
      have hagain := Document.register_of_signatures_eq hregister (hsame l r hl hr)
      exact congrArg (Except.mapError BuildError.collision) hagain

/-- A decorator does to a document what it does to the document that another decorator of its kind
has left, down to the order of the variables, and fails on one as it fails on the other. In
particular a decorator changes nothing in a document that it has left itself. -/
theorem apply_after_sameKind (s : Schema) (config : Config) (d : Document) :
    (∀ first second e, SameKind first second → first.apply s config d = .ok e →
      second.apply s config e = second.apply s config d) ∧
    ∀ (decorator : Decorator) e, decorator.apply s config d = .ok e →
      decorator.apply s config e = .ok e := by
  refine ⟨fun first second e hkind h => ?_, fun decorator e h => ?_⟩
  · have hdeclare (hfirst : first.operation? = none) (hsecond : second.operation? = none) :
        second.apply s config e = second.apply s config d :=
      apply_of_signatures_eq hfirst hsecond (fun l r hl hr => hkind.signatures_eq hl hr) h
    cases hkind with
    | directive op other => exact apply_directive_directive h
    | model m n kind other => exact hdeclare rfl rfl
    | delete m n => exact hdeclare rfl rfl
    | byId id other => exact hdeclare rfl rfl
    | byKey ids others => exact hdeclare rfl rfl
    | filter p q f g hp hq => exact hdeclare rfl rfl
    | pagination page other hlimit htoken => exact hdeclare rfl rfl
  · cases hop : decorator.operation? with
    | some op =>
        obtain rfl := eq_directive_of_operation? hop
        rw [apply_directive_directive h, h]
    | none =>
        have hsame (l r : List (String × Variable)) (hl : decorator.declarations s d = .ok l)
            (hr : decorator.declarations s d = .ok r) : signatures l = signatures r :=
          congrArg signatures (Except.ok.inj (hl.symm.trans hr))
        rw [apply_of_signatures_eq hop hop hsame h, h]

end Decorator

def Schema.shelf : Schema where
  name := "Shelf"
  primaryKey := .custom ["id", "row", "id"]
  fields := [.id, { name := "row", type := .scalar .id }]

/-- The second key takes the places that the first one has found behind a variable of the document,
and being bound once more it stays as it is. -/
theorem Decorator.apply_after_sameKind_shelf :
    let d : Document :=
      { kind := .query, name := "getShelf", declared := .ofList [("row", ⟨"ID!", .string "r0"⟩)] }
    let first : Decorator := .modelId (.byKey (.ofList [("id", "i1"), ("row", "r1")]))
    let second : Decorator := .modelId (.byKey (.ofList [("row", "r2"), ("id", "i2")]))
    ∃ e f, first.apply .shelf {} d = .ok e ∧ second.apply .shelf {} d = .ok f ∧
      f.declared.keys = ["row", "id"] ∧ second.apply .shelf {} e = .ok f ∧
      second.apply .shelf {} f = .ok f := by
  intro d first second
  have he : ∃ e, first.apply .shelf {} d = .ok e := ⟨_, rfl⟩
  have hf : ∃ f, second.apply .shelf {} d = .ok f := ⟨_, rfl⟩
  obtain ⟨e, he⟩ := he
  obtain ⟨f, hf⟩ := hf
  obtain ⟨hreplaces, hagain⟩ := Decorator.apply_after_sameKind .shelf {} d
  refine ⟨e, f, he, hf, ?_, ?_, hagain second f hf⟩
  · rw [← Except.ok.inj hf]
    rfl
  · rw [hreplaces first second e (.byKey _ _) he, hf]

end DataApi

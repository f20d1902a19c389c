import DataApi.Proofs.Document.Merging

/-!
# Staged and direct declaration

A document that registers declarations collects them among themselves first and merges what was
collected. Declaring them one by one, straight among the variables of the document, goes through for
the same lists and leaves the same variables in the same places.

What is reported when it does not go through can differ: a list that is at odds with itself collides
before the document is looked at. A list that is not collides in both ways with the type that its
first conflicting name has in the document, so there the two ways cannot be told apart at all.
-/

namespace DataApi

namespace Variables

/-- Declares the variables of a list one by one, as long as nothing collides. -/
def declareEach (policy : CollisionPolicy) (vs : Variables)
    (declarations : List (String × Variable)) : Except Collision Variables :=
  declarations.foldlM (fun vs e => declare policy vs e.1 e.2) vs

theorem declareEach_eq_result (policy : CollisionPolicy) (vs : Variables)
    (declarations : List (String × Variable)) :
    declareEach policy vs declarations = (absorb policy vs declarations).result := by
  induction declarations generalizing vs with
  | nil => rfl
  | cons e rest ih =>
      rw [declareEach, List.foldlM_cons]
      cases h : declare policy vs e.1 e.2 with
      | ok ws =>
          rw [absorb_cons_of_ok rest h]
          exact ih ws
      | error c =>
          rw [absorb_cons_of_error rest h]
          rfl

/-- The collision of a declaration with a variable of `vs`, if they differ in type. -/
def clash? (vs : Variables) (e : String × Variable) : Option Collision :=
  (vs.get? e.1).bind fun old =>
    if old.type = e.2.type then none else some ⟨e.1, old.type, e.2.type⟩

theorem clash?_eq_some_iff {vs : Variables} {e : String × Variable} {c : Collision} :
    vs.clash? e = some c ↔
      ∃ old, vs.get? e.1 = some old ∧ old.type ≠ e.2.type ∧ c = ⟨e.1, old.type, e.2.type⟩ := by
  unfold clash?
  cases vs.get? e.1 with
  | none => simp
  | some old => by_cases h : old.type = e.2.type <;> simp [h, eq_comm]

theorem clash?_eq_none_iff {vs : Variables} {e : String × Variable} :
    vs.clash? e = none ↔ ¬vs.Conflicts e := by
  simp only [Option.eq_none_iff_forall_ne_some, ne_eq, clash?_eq_some_iff, Conflicts]
  constructor
  · rintro h ⟨old, hold, htype⟩
    exact h _ ⟨old, hold, htype, rfl⟩
  · rintro h c ⟨old, hold, htype, _⟩
    exact h ⟨old, hold, htype⟩

theorem clash?_congr {vs : Variables} {e f : String × Variable} (hname : e.1 = f.1)
    (htype : e.2.type = f.2.type) : vs.clash? e = vs.clash? f := by
  rw [clash?, clash?, hname, htype]

/-- Declarations that are typed consistently collide where the first of them clashes with a variable
that was there before. -/
theorem result_absorb_of_typesAgree {vs : Variables} {declarations : List (String × Variable)}
    (h : TypesAgree declarations) :
    (absorb .reject vs declarations).result =
      match declarations.findSome? vs.clash? with
      | none => .ok (vs.insertAll declarations)
      | some c => .error c := by
  cases hfirst : declarations.findSome? vs.clash? with
  | none =>
      rw [List.findSome?_eq_none_iff] at hfirst
      refine absorb_result_eq_ok_iff.2 ⟨rfl, fun _ => typesAgree_append_iff.2 ⟨h, fun e he => ?_⟩⟩
      exact clash?_eq_none_iff.1 (hfirst e he)
  | some c =>
      obtain ⟨before, e, after, rfl, hclash, hbefore⟩ := List.findSome?_eq_some_iff.1 hfirst
      obtain ⟨old, hold, htype, rfl⟩ := clash?_eq_some_iff.1 hclash
      rw [absorb_append_of_conflict h hold htype fun f hf => clash?_eq_none_iff.1 (hbefore f hf)]
      rfl

def clashUnder? (vs : Variables) (declarations : List (String × Variable)) (name : String) :
    Option Collision :=
  (declarations.lookup name).bind fun v => vs.clash? (name, v)

theorem clash?_eq_clashUnder? {vs : Variables} {declarations : List (String × Variable)}
    (h : TypesAgree declarations) {e : String × Variable} (he : e ∈ declarations) :
    vs.clash? e = vs.clashUnder? declarations e.1 := by
  obtain ⟨v, hv⟩ := lookup_eq_some_of_mem_map_fst (List.mem_map_of_mem (f := Prod.fst) he)
  rw [clashUnder?, hv, Option.bind_some]
  exact clash?_congr rfl (h e he (e.1, v) (mem_of_lookup_eq_some hv) rfl)

theorem findSome?_clash?_entries_ofList {vs : Variables}
    {declarations : List (String × Variable)} (h : TypesAgree declarations) :
    (OrderedMap.ofList declarations).entries.findSome? vs.clash? =
      declarations.findSome? vs.clash? := by
  have hnames {l : List (String × Variable)} (hl : l ⊆ declarations) :
      l.findSome? vs.clash? = (l.map Prod.fst).findSome? (vs.clashUnder? declarations) := by
    rw [List.findSome?_map, ← List.head?_filterMap, ← List.head?_filterMap]
    exact congrArg List.head?
      (List.filterMap_congr fun e he => clash?_eq_clashUnder? h (hl he))
  calc (OrderedMap.ofList declarations).entries.findSome? vs.clash?
      = (OrderedMap.ofList declarations).keys.findSome? (vs.clashUnder? declarations) :=
        hnames (entries_ofList_subset declarations)
    _ = (declarations.map Prod.fst).findSome? (vs.clashUnder? declarations) := by
        rw [OrderedMap.keys_ofList, findSome?_eraseDups]
    _ = declarations.findSome? vs.clash? := (hnames (List.Subset.refl _)).symm

/-- Declarations that are admitted by themselves come to the same, collision included, when they are
collected before. -/
theorem result_absorb_entries_ofList {policy : CollisionPolicy} {vs : Variables}
    {declarations : List (String × Variable)} (h : policy.Admits declarations) :
    (absorb policy vs (OrderedMap.ofList declarations).entries).result =
      (absorb policy vs declarations).result := by
  cases policy with
  | overwrite =>
      have hdirect : absorb .overwrite vs declarations = ⟨vs.insertAll declarations, none⟩ :=
        absorb_eq_iff.2 ⟨rfl, nofun⟩
      rw [absorb_overwrite, OrderedMap.insertAll_entries_ofList, hdirect]
  | reject =>
      have hagree : TypesAgree declarations := h rfl
      rw [result_absorb_of_typesAgree (typesAgree_entries _), result_absorb_of_typesAgree hagree,
        findSome?_clash?_entries_ofList hagree, OrderedMap.insertAll_entries_ofList]

end Variables

namespace Document

open Variables

/-- Registering declarations in a document is declaring them one by one among its variables: the
one goes through exactly when the other does, it then leaves the same variables, and nothing else
in the document changes. If the declarations are not at odds among themselves, a collision is the
same one too. -/
theorem register_agrees_with_declareEach (d : Document) (policy : CollisionPolicy)
    (declarations : List (String × Variable)) :
    (∀ e, d.register policy declarations = .ok e ↔
      ∃ vs, declareEach policy d.declared declarations = .ok vs ∧ e = { d with declared := vs }) ∧
    (policy.Admits declarations → d.register policy declarations =
      (declareEach policy d.declared declarations).map fun vs => { d with declared := vs }) := by
  simp only [declareEach_eq_result]
  refine ⟨fun e => ?_, fun hadmits => ?_⟩
  · simp only [register_eq_ok_iff, absorb_result_eq_ok_iff]
    constructor
    · rintro ⟨he, hadmits⟩
      exact ⟨_, ⟨rfl, hadmits⟩, he⟩
    · rintro ⟨vs, ⟨rfl, hadmits⟩, he⟩
      exact ⟨he, hadmits⟩
  · rw [register, ofDeclarations_eq_ok_iff.2 ⟨rfl, hadmits⟩, ok_bind,
      result_absorb_entries_ofList hadmits]
    cases (absorb policy d.declared declarations).result <;> rfl

/-- A key that lists the identifier twice goes through and leaves one, in both ways. A limit that
the document has under another type stops both of them. -/
theorem register_agrees_with_declareEach_limit :
    let d : Document :=
      { kind := .query
        declared := .ofList [("row", ⟨"ID!", .string "r0"⟩), ("limit", ⟨"ID!", .string "gold"⟩)] }
    let key : List (String × Variable) :=
      [("id", ⟨"ID!", .string "i1"⟩), ("row", ⟨"ID!", .string "r1"⟩), ("id", ⟨"ID!", .string "i2"⟩)]
    let page : List (String × Variable) :=
      [("id", ⟨"ID!", .string "i1"⟩), ("limit", ⟨"Int", .int 10⟩), ("id", ⟨"ID!", .string "i2"⟩)]
    (∃ vs, declareEach .reject d.declared key = .ok vs ∧ vs.keys = ["row", "limit", "id"] ∧
      d.register .reject key = .ok { d with declared := vs }) ∧
    CollisionPolicy.reject.Admits page ∧
      d.register .reject page = .error ⟨"limit", "ID!", "Int"⟩ := by
  intro d key page
  have hadmits : CollisionPolicy.reject.Admits page := by
    intro _
    unfold TypesAgree
    decide
  refine ⟨⟨_, rfl, rfl, ?_⟩, hadmits, ?_⟩
  · exact ((register_agrees_with_declareEach d .reject key).1 _).2 ⟨_, rfl, rfl⟩
  · rw [(register_agrees_with_declareEach d .reject page).2 hadmits]
    rfl

/-- A list that is at odds with itself and with the document collides in one place or the other. -/
example :
    let d : Document := { kind := .query, declared := .ofList [("limit", ⟨"ID!", .string "gold"⟩)] }
    let odds : List (String × Variable) :=
      [("limit", ⟨"Int", .int 10⟩), ("limit", ⟨"String", .null⟩)]
    d.register .reject odds = .error ⟨"limit", "Int", "String"⟩ ∧
      declareEach .reject d.declared odds = .error ⟨"limit", "ID!", "Int"⟩ :=
  ⟨rfl, rfl⟩

end Document

end DataApi

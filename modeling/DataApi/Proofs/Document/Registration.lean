import DataApi.Document.Basic
import DataApi.Proofs.Fallible
import DataApi.Proofs.OrderedMap.History

/-!
# Which declarations a document takes

A list of declarations is typed consistently when no name occurs in it under two types. This only
depends on the pairs of a name and a type that occur, the signatures of the list. Rejecting
collisions is the same as asking for consistent types: `register_eq_ok_iff` says that a document
takes a list of declarations exactly when its own variables together with the list are typed
consistently, or when declarations overwrite, and that it then holds the variables of both.
-/

namespace DataApi

def signatures (declarations : List (String × Variable)) : List (String × String) :=
  declarations.map fun e => (e.1, e.2.type)

/-- No name is declared under two types. -/
def TypesAgree (declarations : List (String × Variable)) : Prop :=
  ∀ e ∈ declarations, ∀ f ∈ declarations, e.1 = f.1 → e.2.type = f.2.type

def CollisionPolicy.Admits (policy : CollisionPolicy) (declarations : List (String × Variable)) :
    Prop :=
  policy = .reject → TypesAgree declarations

theorem mem_signatures_iff {declarations : List (String × Variable)} {name type : String} :
    (name, type) ∈ signatures declarations ↔
      ∃ e ∈ declarations, e.1 = name ∧ e.2.type = type := by
  simp [signatures]

theorem TypesAgree.of_signatures_subset {l r : List (String × Variable)} (hr : TypesAgree r)
    (h : signatures l ⊆ signatures r) : TypesAgree l := by
  intro e he f hf hname
  have he' : (e.1, e.2.type) ∈ signatures r := h (mem_signatures_iff.2 ⟨e, he, rfl, rfl⟩)
  have hf' : (f.1, f.2.type) ∈ signatures r := h (mem_signatures_iff.2 ⟨f, hf, rfl, rfl⟩)
  obtain ⟨e', he', hen, het⟩ := mem_signatures_iff.1 he'
  obtain ⟨f', hf', hfn, hft⟩ := mem_signatures_iff.1 hf'
  rw [← het, ← hft]
  exact hr e' he' f' hf' (by rw [hen, hfn, hname])

theorem signatures_append (l r : List (String × Variable)) :
    signatures (l ++ r) = signatures l ++ signatures r :=
  List.map_append

theorem signatures_map_fst (declarations : List (String × Variable)) :
    (signatures declarations).map Prod.fst = declarations.map Prod.fst :=
  List.map_map

theorem signatures_append_subset {l l' r r' : List (String × Variable)}
    (hl : signatures l ⊆ signatures l') (hr : signatures r ⊆ signatures r') :
    signatures (l ++ r) ⊆ signatures (l' ++ r') := by
  rw [signatures_append, signatures_append, List.append_subset]
  exact ⟨List.subset_append_of_subset_left _ hl, List.subset_append_of_subset_right _ hr⟩

theorem CollisionPolicy.Admits.of_signatures_subset {policy : CollisionPolicy}
    {l r : List (String × Variable)} (hr : policy.Admits r)
    (h : signatures l ⊆ signatures r) : policy.Admits l :=
  fun hp => (hr hp).of_signatures_subset h

theorem CollisionPolicy.Admits.of_append_left {policy : CollisionPolicy}
    {l r : List (String × Variable)} (h : policy.Admits (l ++ r)) : policy.Admits l := by
  refine h.of_signatures_subset ?_
  rw [signatures_append]
  exact List.subset_append_left _ _

theorem CollisionPolicy.Admits.of_append_right {policy : CollisionPolicy}
    {l r : List (String × Variable)} (h : policy.Admits (l ++ r)) : policy.Admits r := by
  refine h.of_signatures_subset ?_
  rw [signatures_append]
  exact List.subset_append_right _ _

namespace Variables

theorem typesAgree_entries (vs : Variables) : TypesAgree vs.entries := by
  intro e he f hf hname
  obtain ⟨name, v⟩ := e
  obtain ⟨other, w⟩ := f
  obtain rfl : name = other := hname
  have hv := OrderedMap.mem_entries_iff.1 he
  have hw := OrderedMap.mem_entries_iff.1 hf
  rw [hv] at hw
  rw [Option.some.inj hw]

theorem mem_entries_insert_iff {vs : Variables} {name : String} {v : Variable}
    {e : String × Variable} :
    e ∈ (vs.insert name v).entries ↔ e = (name, v) ∨ e ∈ vs.entries ∧ e.1 ≠ name := by
  obtain ⟨other, w⟩ := e
  rw [OrderedMap.mem_entries_iff, OrderedMap.mem_entries_iff, OrderedMap.get?_insert]
  by_cases h : other = name
  · simp [h, eq_comm]
  · simp [h]

theorem declare_eq_ok_iff {policy : CollisionPolicy} {vs ws : Variables} {name : String}
    {v : Variable} :
    declare policy vs name v = .ok ws ↔
      ws = vs.insert name v ∧
        (policy = .reject → ∀ old, vs.get? name = some old → old.type = v.type) := by
  unfold declare
  cases hold : vs.get? name with
  | none => simp [eq_comm]
  | some old =>
      by_cases hc : policy = .reject ∧ old.type ≠ v.type
      · simp [hc]
      · have himp : policy = .reject → old.type = v.type := by
          intro hp
          by_contra hne
          exact hc ⟨hp, hne⟩
        simp only [if_neg hc, Except.ok.injEq, Option.some.injEq, forall_eq']
        exact ⟨fun h => ⟨h.symm, himp⟩, fun h => h.1.symm⟩

theorem signatures_subset_insert {vs : Variables} {name : String} {v : Variable}
    (h : ∀ old, vs.get? name = some old → old.type = v.type) :
    signatures vs.entries ⊆ signatures (vs.insert name v).entries := by
  rintro ⟨other, type⟩ hmem
  obtain ⟨e, he, rfl, rfl⟩ := mem_signatures_iff.1 hmem
  by_cases hname : e.1 = name
  · have hold : vs.get? name = some e.2 := by
      rw [← OrderedMap.mem_entries_iff, ← hname]
      exact he
    refine mem_signatures_iff.2 ⟨(name, v), ?_, hname.symm, (h e.2 hold).symm⟩
    exact mem_entries_insert_iff.2 (.inl rfl)
  · exact mem_signatures_iff.2 ⟨e, mem_entries_insert_iff.2 (.inr ⟨he, hname⟩), rfl, rfl⟩

theorem entries_insert_subset (vs : Variables) (name : String) (v : Variable) :
    (vs.insert name v).entries ⊆ (name, v) :: vs.entries := by
  intro e he
  rcases mem_entries_insert_iff.1 he with rfl | ⟨he, _⟩
  · exact List.mem_cons_self
  · exact List.mem_cons_of_mem _ he

/-- Declaring the first of several variables leaves the same question for the others. -/
theorem typesAgree_append_cons_iff {vs : Variables} {e : String × Variable}
    {rest : List (String × Variable)} :
    TypesAgree (vs.entries ++ e :: rest) ↔
      (∀ old, vs.get? e.1 = some old → old.type = e.2.type) ∧
        TypesAgree ((vs.insert e.1 e.2).entries ++ rest) := by
  constructor
  · intro h
    refine ⟨?_, ?_⟩
    · intro old hold
      exact h (e.1, old) (List.mem_append_left _ (OrderedMap.mem_entries_iff.2 hold)) e
        (by simp) rfl
    · have hsub : (vs.insert e.1 e.2).entries ++ rest ⊆ vs.entries ++ e :: rest := by
        intro f hf
        rcases List.mem_append.1 hf with hf | hf
        · rcases List.mem_cons.1 (entries_insert_subset vs e.1 e.2 hf) with rfl | hf
          · simp
          · exact List.mem_append_left _ hf
        · simp [hf]
      exact fun f hf g hg => h f (hsub hf) g (hsub hg)
  · rintro ⟨hold, h⟩
    refine h.of_signatures_subset ?_
    have hself : (e.1, e.2.type) ∈ signatures (vs.insert e.1 e.2).entries :=
      mem_signatures_iff.2 ⟨e, mem_entries_insert_iff.2 (.inl rfl), rfl, rfl⟩
    rw [signatures_append, signatures_append]
    intro s hs
    rcases List.mem_append.1 hs with hs | hs
    · exact List.mem_append_left _ (signatures_subset_insert hold hs)
    · rcases List.mem_cons.1 hs with rfl | hs
      · exact List.mem_append_left _ hself
      · exact List.mem_append_right _ hs

theorem absorb_result_eq_ok_iff {policy : CollisionPolicy} {vs ws : Variables}
    {declarations : List (String × Variable)} :
    (absorb policy vs declarations).result = .ok ws ↔
      ws = vs.insertAll declarations ∧ policy.Admits (vs.entries ++ declarations) := by
  induction declarations generalizing vs with
  | nil =>
      have hadmits : policy.Admits vs.entries := fun _ => typesAgree_entries vs
      simp [Progress.result, hadmits, eq_comm]
  | cons e rest ih =>
      rw [OrderedMap.insertAll_cons, CollisionPolicy.Admits, typesAgree_append_cons_iff,
        imp_and]
      cases hd : declare policy vs e.1 e.2 with
      | ok us =>
          obtain ⟨rfl, hold⟩ := declare_eq_ok_iff.1 hd
          rw [absorb_cons_of_ok rest hd, ih]
          exact and_congr_right fun _ => ⟨fun h => ⟨hold, h⟩, fun h => h.2⟩
      | error c =>
          rw [absorb_cons_of_error rest hd]
          have hnot : ¬(policy = .reject → ∀ old, vs.get? e.1 = some old →
              old.type = e.2.type) := by
            intro hold
            have hok := declare_eq_ok_iff.2 ⟨rfl, hold⟩
            rw [hd] at hok
            nomatch hok
          constructor
          · intro h
            nomatch h
          · exact fun h => absurd h.2.1 hnot

theorem declare_eq_error_iff {policy : CollisionPolicy} {vs : Variables} {name : String}
    {v : Variable} {c : Collision} :
    declare policy vs name v = .error c ↔
      policy = .reject ∧ ∃ old, vs.get? name = some old ∧ old.type ≠ v.type ∧
        c = ⟨name, old.type, v.type⟩ := by
  unfold declare
  cases hold : vs.get? name with
  | none => simp
  | some old =>
      by_cases hc : policy = .reject ∧ old.type ≠ v.type
      · simp only [if_pos hc, Except.error.injEq, Option.some.injEq]
        constructor
        · exact fun h => ⟨hc.1, old, rfl, hc.2, h.symm⟩
        · rintro ⟨_, _, rfl, _, rfl⟩
          rfl
      · simp only [if_neg hc, reduceCtorEq, false_iff, Option.some.injEq]
        rintro ⟨hp, _, rfl, htype, _⟩
        exact hc ⟨hp, htype⟩

theorem collides_of_absorb_result {policy : CollisionPolicy} {vs : Variables}
    {declarations : List (String × Variable)} {c : Collision}
    (h : (absorb policy vs declarations).result = .error c) :
    c.existing ≠ c.incoming ∧ (c.name, c.existing) ∈ signatures (vs.entries ++ declarations) ∧
      (c.name, c.incoming) ∈ signatures declarations := by
  induction declarations generalizing vs with
  | nil => nomatch h
  | cons e rest ih =>
      cases hd : declare policy vs e.1 e.2 with
      | ok us =>
          obtain ⟨rfl, _⟩ := declare_eq_ok_iff.1 hd
          rw [absorb_cons_of_ok rest hd] at h
          obtain ⟨htypes, hexisting, hincoming⟩ := ih h
          refine ⟨htypes, ?_, List.mem_cons_of_mem _ hincoming⟩
          rw [signatures_append] at hexisting ⊢
          rcases List.mem_append.1 hexisting with hexisting | hexisting
          · have hsub := List.map_subset _ (entries_insert_subset vs e.1 e.2) hexisting
            rcases List.mem_cons.1 hsub with hself | hold
            · exact List.mem_append_right _ (hself ▸ List.mem_cons_self)
            · exact List.mem_append_left _ hold
          · exact List.mem_append_right _ (List.mem_cons_of_mem _ hexisting)
      | error c' =>
          rw [absorb_cons_of_error rest hd] at h
          obtain rfl : c' = c := Except.error.inj h
          obtain ⟨_, old, hold, htypes, rfl⟩ := declare_eq_error_iff.1 hd
          refine ⟨htypes, ?_, List.mem_cons_self⟩
          rw [signatures_append]
          exact List.mem_append_left _
            (mem_signatures_iff.2 ⟨_, OrderedMap.mem_entries_iff.2 hold, rfl, rfl⟩)

theorem ofDeclarations_eq_ok_iff {policy : CollisionPolicy} {vs : Variables}
    {declarations : List (String × Variable)} :
    ofDeclarations policy declarations = .ok vs ↔
      vs = OrderedMap.ofList declarations ∧ policy.Admits declarations :=
  absorb_result_eq_ok_iff

theorem entries_insertAll_subset (vs : Variables) (declarations : List (String × Variable)) :
    (vs.insertAll declarations).entries ⊆ vs.entries ++ declarations := by
  rintro ⟨name, v⟩ h
  rw [OrderedMap.mem_entries_iff, OrderedMap.get?_insertAll, Option.or_eq_some_iff] at h
  rcases h with h | ⟨_, h⟩
  · exact List.mem_append_right _ (List.mem_reverse.1 (mem_of_lookup_eq_some h))
  · exact List.mem_append_left _ (OrderedMap.mem_entries_iff.2 h)

theorem entries_ofList_subset (declarations : List (String × Variable)) :
    (OrderedMap.ofList declarations).entries ⊆ declarations := by
  rintro ⟨name, v⟩ h
  rw [OrderedMap.mem_entries_iff, OrderedMap.get?_ofList] at h
  exact List.mem_reverse.1 (mem_of_lookup_eq_some h)

theorem signatures_entries_ofList_subset (declarations : List (String × Variable)) :
    signatures (OrderedMap.ofList declarations).entries ⊆ signatures declarations :=
  List.map_subset _ (entries_ofList_subset declarations)

theorem signatures_subset_entries_ofList {declarations : List (String × Variable)}
    (h : TypesAgree declarations) :
    signatures declarations ⊆ signatures (OrderedMap.ofList declarations).entries := by
  rintro ⟨name, type⟩ hs
  obtain ⟨e, he, rfl, rfl⟩ := mem_signatures_iff.1 hs
  have hkey : e.1 ∈ (OrderedMap.ofList declarations).keys := by
    rw [OrderedMap.keys_ofList, List.mem_eraseDups]
    exact List.mem_map_of_mem he
  rw [OrderedMap.mem_keys_iff_isSome_get?, Option.isSome_iff_exists] at hkey
  obtain ⟨v, hv⟩ := hkey
  have hmem := OrderedMap.mem_entries_iff.2 hv
  refine mem_signatures_iff.2 ⟨(e.1, v), hmem, rfl, ?_⟩
  exact h (e.1, v) (entries_ofList_subset declarations hmem) e he rfl

/-- Whether declarations are admitted does not depend on whether some of them, which are admitted
by themselves, have been collected before. -/
theorem admits_collected_iff {policy : CollisionPolicy} {declarations : List (String × Variable)}
    (hd : policy.Admits declarations) (l r : List (String × Variable)) :
    policy.Admits (l ++ ((OrderedMap.ofList declarations).entries ++ r)) ↔
      policy.Admits (l ++ (declarations ++ r)) := by
  constructor
  · intro h hp
    refine (h hp).of_signatures_subset ?_
    have hsub := signatures_subset_entries_ofList (hd hp)
    exact signatures_append_subset (fun _ h => h) (signatures_append_subset hsub fun _ h => h)
  · intro h
    refine h.of_signatures_subset ?_
    have hsub := signatures_entries_ofList_subset declarations
    exact signatures_append_subset (fun _ h => h) (signatures_append_subset hsub fun _ h => h)

end Variables

namespace Document

/-- A document takes declarations exactly when its policy admits them on top of the variables it
has; it then declares them one after the other. -/
theorem register_eq_ok_iff {policy : CollisionPolicy} {d e : Document}
    {declarations : List (String × Variable)} :
    d.register policy declarations = .ok e ↔
      e = { d with declared := d.declared.insertAll declarations } ∧
        policy.Admits (d.declared.entries ++ declarations) := by
  have hsplit : d.register policy declarations = .ok e ↔
      ∃ incoming, Variables.ofDeclarations policy declarations = .ok incoming ∧
        ∃ declared, (Variables.absorb policy d.declared incoming.entries).result = .ok declared ∧
          { d with declared } = e := by
    rw [register, bind_eq_ok_iff]
    simp only [bind_eq_ok_iff, pure, Except.pure, Except.ok.injEq]
  have hcollected : policy.Admits declarations →
      (policy.Admits (d.declared.entries ++ (OrderedMap.ofList declarations).entries) ↔
        policy.Admits (d.declared.entries ++ declarations)) := fun hd => by
    simpa using Variables.admits_collected_iff hd d.declared.entries []
  rw [hsplit]
  constructor
  · rintro ⟨incoming, hin, declared, hdecl, rfl⟩
    obtain ⟨rfl, hd⟩ := Variables.ofDeclarations_eq_ok_iff.1 hin
    obtain ⟨rfl, hadmits⟩ := Variables.absorb_result_eq_ok_iff.1 hdecl
    rw [OrderedMap.insertAll_entries_ofList]
    exact ⟨rfl, (hcollected hd).1 hadmits⟩
  · rintro ⟨rfl, hadmits⟩
    have hd : policy.Admits declarations := hadmits.of_append_right
    refine ⟨_, Variables.ofDeclarations_eq_ok_iff.2 ⟨rfl, hd⟩, _,
      Variables.absorb_result_eq_ok_iff.2 ⟨rfl, (hcollected hd).2 hadmits⟩, ?_⟩
    rw [OrderedMap.insertAll_entries_ofList]

/-- What a document takes after it has taken declarations of the same names and types, it takes as
if it had not. -/
theorem register_of_signatures_eq {policy : CollisionPolicy} {d e : Document}
    {declarations others : List (String × Variable)}
    (h : d.register policy declarations = .ok e)
    (hsame : signatures declarations = signatures others) :
    e.register policy others = d.register policy others := by
  obtain ⟨rfl, hadmits⟩ := register_eq_ok_iff.1 h
  have hothers : signatures others ⊆ signatures declarations := hsame ▸ List.Subset.refl _
  have hkeys : declarations.map Prod.fst = others.map Prod.fst := by
    rw [← signatures_map_fst, ← signatures_map_fst, hsame]
  have hbefore : policy.Admits (d.declared.entries ++ others) :=
    hadmits.of_signatures_subset (signatures_append_subset (List.Subset.refl _) hothers)
  have hafter : policy.Admits ((d.declared.insertAll declarations).entries ++ others) := by
    refine hadmits.of_signatures_subset ?_
    have hsub := List.map_subset (fun e => (e.1, e.2.type))
      (Variables.entries_insertAll_subset d.declared declarations)
    rw [signatures_append, List.append_subset]
    refine ⟨hsub, List.Subset.trans hothers ?_⟩
    rw [signatures_append]
    exact List.subset_append_right _ _
  rw [register_eq_ok_iff.2 ⟨rfl, hbefore⟩, register_eq_ok_iff.2 ⟨rfl, hafter⟩,
    OrderedMap.insertAll_insertAll_of_keys _ hkeys]

/-- What collides is a declaration with an earlier one of the same name, be it in the document or in
the list, and they differ in type. -/
theorem collides_of_register {policy : CollisionPolicy} {d : Document}
    {declarations : List (String × Variable)} {c : Collision}
    (h : d.register policy declarations = .error c) :
    c.existing ≠ c.incoming ∧
      (c.name, c.existing) ∈ signatures (d.declared.entries ++ declarations) ∧
      (c.name, c.incoming) ∈ signatures declarations := by
  rcases bind_eq_error_iff.1 h with hcollect | ⟨incoming, hincoming, h⟩
  · obtain ⟨htypes, hexisting, hincoming⟩ := Variables.collides_of_absorb_result hcollect
    refine ⟨htypes, ?_, hincoming⟩
    rw [signatures_append]
    exact List.mem_append_right _ hexisting
  · obtain ⟨rfl, _⟩ := Variables.ofDeclarations_eq_ok_iff.1 hincoming
    have hsub := Variables.signatures_entries_ofList_subset declarations
    rcases bind_eq_error_iff.1 h with habsorb | ⟨_, _, hdone⟩
    · obtain ⟨htypes, hexisting, hincoming⟩ := Variables.collides_of_absorb_result habsorb
      exact ⟨htypes, signatures_append_subset (List.Subset.refl _) hsub hexisting, hsub hincoming⟩
    · nomatch hdone

end Document

end DataApi

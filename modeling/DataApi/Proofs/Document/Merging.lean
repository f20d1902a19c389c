import DataApi.Proofs.Document.Registration

/-!
# Merging one set of variables into another

The variables of one set are declared in another one, in their order. As they have different names,
what was merged before does not change what the others meet, so each of them collides or not by
itself: with the type that its name had to begin with (`absorb_of_first_conflict`). The first that
collides ends the merge. What has been merged by then stays, and the variable that collided is left
as it was, like everything behind it.
-/

namespace DataApi

namespace Variables

/-- A variable of the same name has another type in `vs`. -/
def Conflicts (vs : Variables) (e : String × Variable) : Prop :=
  ∃ old, vs.get? e.1 = some old ∧ old.type ≠ e.2.type

theorem absorb_eq_iff {policy : CollisionPolicy} {vs ws : Variables}
    {declarations : List (String × Variable)} :
    absorb policy vs declarations = ⟨ws, none⟩ ↔
      ws = vs.insertAll declarations ∧ policy.Admits (vs.entries ++ declarations) := by
  rw [← absorb_result_eq_ok_iff]
  obtain ⟨reached, collision?⟩ := absorb policy vs declarations
  cases collision? <;> simp [Progress.result]

theorem absorb_append {policy : CollisionPolicy} {vs us : Variables}
    {l : List (String × Variable)} (h : absorb policy vs l = ⟨us, none⟩)
    (r : List (String × Variable)) : absorb policy vs (l ++ r) = absorb policy us r := by
  induction l generalizing vs with
  | nil =>
      rw [absorb_nil, Progress.mk.injEq] at h
      rw [List.nil_append, h.1]
  | cons e l ih =>
      cases hd : declare policy vs e.1 e.2 with
      | ok ws =>
          rw [absorb_cons_of_ok _ hd] at h
          rw [List.cons_append, absorb_cons_of_ok _ hd, ih h]
      | error c =>
          rw [absorb_cons_of_error _ hd] at h
          nomatch h

/-- Declarations on top of variables are typed consistently when they are so among themselves and
none of them conflicts with a variable. -/
theorem typesAgree_append_iff {vs : Variables} {declarations : List (String × Variable)} :
    TypesAgree (vs.entries ++ declarations) ↔
      TypesAgree declarations ∧ ∀ e ∈ declarations, ¬vs.Conflicts e := by
  constructor
  · intro h
    refine ⟨h.of_signatures_subset ?_, ?_⟩
    · rw [signatures_append]
      exact List.subset_append_right _ _
    · rintro e he ⟨old, hold, htype⟩
      have hmem : (e.1, old) ∈ vs.entries := OrderedMap.mem_entries_iff.2 hold
      exact htype (h _ (List.mem_append_left _ hmem) e (List.mem_append_right _ he) rfl)
  · rintro ⟨hdeclarations, h⟩
    have hcross : ∀ e ∈ vs.entries, ∀ f ∈ declarations, e.1 = f.1 → e.2.type = f.2.type := by
      intro e he f hf hname
      by_contra htype
      exact h f hf ⟨e.2, hname ▸ OrderedMap.mem_entries_iff.1 he, htype⟩
    intro e he f hf hname
    rcases List.mem_append.1 he with he | he
    · rcases List.mem_append.1 hf with hf | hf
      · exact typesAgree_entries vs e he f hf hname
      · exact hcross e he f hf hname
    · rcases List.mem_append.1 hf with hf | hf
      · exact (hcross f hf e he hname.symm).symm
      · exact hdeclarations e he f hf hname

theorem typesAgree_entries_append_iff {vs ws : Variables} :
    TypesAgree (vs.entries ++ ws.entries) ↔ ∀ e ∈ ws.entries, ¬vs.Conflicts e :=
  typesAgree_append_iff.trans (and_iff_right (typesAgree_entries ws))

theorem absorb_overwrite (vs ws : Variables) :
    absorb .overwrite vs ws.entries = ⟨vs.insertAll ws.entries, none⟩ :=
  absorb_eq_iff.2 ⟨rfl, nofun⟩

theorem absorb_of_forall_not_conflicts (policy : CollisionPolicy) {vs ws : Variables}
    (h : ∀ e ∈ ws.entries, ¬vs.Conflicts e) :
    absorb policy vs ws.entries = ⟨vs.insertAll ws.entries, none⟩ :=
  absorb_eq_iff.2 ⟨rfl, fun _ => typesAgree_entries_append_iff.2 h⟩

theorem exists_first_conflict {vs ws : Variables} (h : ∃ e ∈ ws.entries, vs.Conflicts e) :
    ∃ (first : Variables) (e : String × Variable) (after : List (String × Variable)),
      ws.entries = first.entries ++ e :: after ∧ vs.Conflicts e ∧
        ∀ f ∈ first.entries, ¬vs.Conflicts f := by
  classical
  obtain ⟨e, he, hconflict⟩ := h
  have hfound : (ws.entries.find? fun f => decide (vs.Conflicts f)).isSome := by
    rw [List.find?_isSome]
    exact ⟨e, he, by simpa using hconflict⟩
  obtain ⟨e, hfind⟩ := Option.isSome_iff_exists.1 hfound
  obtain ⟨hconflict, before, after, hsplit, hbefore⟩ := List.find?_eq_some_iff_append.1 hfind
  have hnodup : (before.map Prod.fst).Nodup := by
    have hsub : before.Sublist ws.entries := by
      rw [hsplit]
      exact List.sublist_append_left _ _
    exact (hsub.map Prod.fst).nodup ws.nodup
  exact ⟨⟨before, hnodup⟩, e, after, hsplit, by simpa using hconflict,
    fun f hf => by simpa using hbefore f hf⟩

theorem get?_insertAll_of_split {vs ws first : Variables} {rest : List (String × Variable)}
    (h : ws.entries = first.entries ++ rest) {e : String × Variable} (he : e ∈ rest) :
    (vs.insertAll first.entries).get? e.1 = vs.get? e.1 := by
  have hnodup := ws.nodup
  rw [h, List.map_append, List.nodup_append] at hnodup
  have hfresh : e.1 ∉ first.entries.map Prod.fst := fun hmem =>
    hnodup.2.2 e.1 hmem e.1 (List.mem_map_of_mem he) rfl
  have hnone : first.get? e.1 = none := lookup_eq_none_of_not_mem hfresh
  rw [OrderedMap.get?_insertAll_entries, hnone, Option.none_or]

/-- Of declarations that are typed consistently, the first that conflicts with a variable is the
collision that ends them. -/
theorem absorb_append_of_conflict {vs : Variables} {before after : List (String × Variable)}
    {name : String} {old v : Variable} (hagree : TypesAgree (before ++ (name, v) :: after))
    (hold : vs.get? name = some old) (htype : old.type ≠ v.type)
    (hbefore : ∀ e ∈ before, ¬vs.Conflicts e) :
    absorb .reject vs (before ++ (name, v) :: after) =
      ⟨vs.insertAll before, some ⟨name, old.type, v.type⟩⟩ := by
  have hreached : absorb .reject vs before = ⟨vs.insertAll before, none⟩ := by
    have hfirst : TypesAgree before := fun e he f hf =>
      hagree e (List.mem_append_left _ he) f (List.mem_append_left _ hf)
    exact absorb_eq_iff.2 ⟨rfl, fun _ => typesAgree_append_iff.2 ⟨hfirst, hbefore⟩⟩
  have hfresh : name ∉ before.map Prod.fst := by
    intro hmem
    obtain ⟨e, he, hname⟩ := List.mem_map.1 hmem
    have hsame : e.2.type = v.type :=
      hagree e (List.mem_append_left _ he) (name, v) (by simp) hname
    exact hbefore e he ⟨old, hname ▸ hold, hsame ▸ htype⟩
  have hget : (vs.insertAll before).get? name = some old := by
    have hnone : before.reverse.lookup name = none :=
      lookup_eq_none_of_not_mem (by simpa using hfresh)
    rw [OrderedMap.get?_insertAll, hnone, Option.none_or, hold]
  have hdeclare : declare .reject (vs.insertAll before) name v = .error ⟨name, old.type, v.type⟩ :=
    declare_eq_error_iff.2 ⟨rfl, old, hget, htype, rfl⟩
  rw [absorb_append hreached, absorb_cons_of_error _ hdeclare]

theorem absorb_of_first_conflict {vs ws first : Variables} {name : String} {old v : Variable}
    {after : List (String × Variable)} (hsplit : ws.entries = first.entries ++ (name, v) :: after)
    (hold : vs.get? name = some old) (htype : old.type ≠ v.type)
    (hfirst : ∀ e ∈ first.entries, ¬vs.Conflicts e) :
    absorb .reject vs ws.entries =
      ⟨vs.insertAll first.entries, some ⟨name, old.type, v.type⟩⟩ := by
  have hagree := typesAgree_entries ws
  rw [hsplit] at hagree ⊢
  exact absorb_append_of_conflict hagree hold htype hfirst

theorem exists_conflicts_iff {vs ws : Variables} :
    (∃ e ∈ ws.entries, vs.Conflicts e) ↔
      ∃ name old v, vs.get? name = some old ∧ ws.get? name = some v ∧ old.type ≠ v.type := by
  constructor
  · rintro ⟨⟨name, v⟩, he, old, hold, htype⟩
    exact ⟨name, old, v, hold, OrderedMap.mem_entries_iff.1 he, htype⟩
  · rintro ⟨name, old, v, hold, hv, htype⟩
    exact ⟨(name, v), OrderedMap.mem_entries_iff.2 hv, old, hold, htype⟩

theorem exists_conflict_of_collision {policy : CollisionPolicy} {vs ws : Variables} {c : Collision}
    (h : (absorb policy vs ws.entries).collision? = some c) :
    ∃ e ∈ ws.entries, vs.Conflicts e := by
  by_contra hnone
  have hall : ∀ e ∈ ws.entries, ¬vs.Conflicts e := fun e he hconflict => hnone ⟨e, he, hconflict⟩
  rw [absorb_of_forall_not_conflicts policy hall] at h
  nomatch h

/-- What merging the variables `ws` into `vs` comes to. Overwriting always goes through, and
rejecting goes through unless a name has different types in the two sets. Then the collision is that
of the first such variable of `ws`, and what is reached is what merging the variables before it
comes to, while itself and all behind it are left alone. When a merge goes through, the new names
stand behind the old ones, the variables of `ws` are as in `ws` and the others as they were. -/
theorem absorb_entries_outcome (vs ws : Variables) :
    (absorb .overwrite vs ws.entries).collision? = none ∧
    ((∃ c, (absorb .reject vs ws.entries).collision? = some c) ↔
      ∃ name old v, vs.get? name = some old ∧ ws.get? name = some v ∧ old.type ≠ v.type) ∧
    (∀ reached c, absorb .reject vs ws.entries = ⟨reached, some c⟩ →
      ∃ (first : Variables) (name : String) (old v : Variable) (after : List (String × Variable)),
        ws.entries = first.entries ++ (name, v) :: after ∧
        vs.get? name = some old ∧ old.type ≠ v.type ∧ c = ⟨name, old.type, v.type⟩ ∧
        (∀ other u w, vs.get? other = some u → first.get? other = some w → u.type = w.type) ∧
        absorb .reject vs first.entries = ⟨reached, none⟩ ∧
        ∀ e ∈ (name, v) :: after, reached.get? e.1 = vs.get? e.1) ∧
    ∀ policy merged, absorb policy vs ws.entries = ⟨merged, none⟩ →
      merged.keys = vs.keys ++ ws.keys.filter (fun name => name ∉ vs.keys) ∧
      ∀ name, merged.get? name = (ws.get? name).or (vs.get? name) := by
  refine ⟨by rw [absorb_overwrite], ?_, ?_, ?_⟩
  · rw [← exists_conflicts_iff]
    refine ⟨fun ⟨c, hc⟩ => exists_conflict_of_collision hc, fun hconflict => ?_⟩
    obtain ⟨first, ⟨name, v⟩, after, hsplit, ⟨old, hold, htype⟩, hfirst⟩ :=
      exists_first_conflict hconflict
    rw [absorb_of_first_conflict hsplit hold htype hfirst]
    exact ⟨_, rfl⟩
  · intro reached c h
    have hcollision : (absorb .reject vs ws.entries).collision? = some c := by rw [h]
    obtain ⟨first, ⟨name, v⟩, after, hsplit, ⟨old, hold, htype⟩, hfirst⟩ :=
      exists_first_conflict (exists_conflict_of_collision hcollision)
    rw [absorb_of_first_conflict hsplit hold htype hfirst, Progress.mk.injEq,
      Option.some.injEq] at h
    obtain ⟨rfl, rfl⟩ := h
    refine ⟨first, name, old, v, after, hsplit, hold, htype, rfl, ?_,
      absorb_of_forall_not_conflicts .reject hfirst, fun e he => get?_insertAll_of_split hsplit he⟩
    intro other u w hu hw
    by_contra hne
    exact hfirst (other, w) (OrderedMap.mem_entries_iff.2 hw) ⟨u, hu, hne⟩
  · intro policy merged h
    obtain ⟨rfl, _⟩ := absorb_eq_iff.1 h
    exact ⟨OrderedMap.keys_insertAll_entries vs ws, OrderedMap.get?_insertAll_entries vs ws⟩

/-- A page and an identifier, merged into what has a limit of another type: the new name and the
identifier come before the limit, and the token behind it. -/
theorem absorb_entries_outcome_limit :
    let vs : Variables := .ofList [("id", ⟨"ID!", .string "7"⟩), ("limit", ⟨"ID!", .string "gold"⟩)]
    let ws : Variables := .ofList [("filter", ⟨"ModelPostFilterInput", .object []⟩),
      ("id", ⟨"ID!", .string "8"⟩), ("limit", ⟨"Int", .int 10⟩),
      ("nextToken", ⟨"String", .string "t"⟩)]
    ∃ reached, absorb .reject vs ws.entries = ⟨reached, some ⟨"limit", "ID!", "Int"⟩⟩ ∧
      reached.keys = ["id", "limit", "filter"] ∧
      ∃ first : Variables, absorb .reject vs first.entries = ⟨reached, none⟩ ∧
        first.keys <+: ws.keys := by
  intro vs ws
  obtain ⟨first, name, old, v, after, hsplit, _, _, _, _, hreached, _⟩ :=
    (absorb_entries_outcome vs ws).2.2.1 _ _ rfl
  have hprefix : first.keys <+: ws.keys := by
    rw [OrderedMap.keys, OrderedMap.keys, hsplit, List.map_append]
    exact List.prefix_append _ _
  exact ⟨_, rfl, rfl, first, hreached, hprefix⟩

end Variables

end DataApi

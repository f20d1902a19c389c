import DataApi.Proofs.Mutation.Input

/-!
# Which instance a mutation addresses

A deletion reads the key off the instance, a creation and an update gather it from the contributions
of all fields. They agree since every contribution to a name under which the instance has a value is
that value: a plain field has nothing else to contribute, and a field that belongs to another model
prefers the value of the target to that of the associated object. The server does not compute the
fields of the key, so each of them is contributed to if it is declared as a plain field at all.
-/

namespace DataApi

namespace Schema

variable {s : Schema} {m : Instance}

/-- A field has nothing to contribute to a name but the value that the instance has for it. -/
theorem eq_of_mem_field_contributions {f : Field} {name : String} {value other : Json}
    (hvalue : m.nonNull? name = some value) (h : (name, other) ∈ f.contributions s m) :
    other = value := by
  rcases contributions_cases s m f with hplain | ⟨model, keys, targets, htype⟩ | ⟨_, hnone, _⟩
  · rw [contributions_of_plain hplain] at h
    obtain ⟨sent, _, hpair⟩ := List.mem_map.1 h
    obtain ⟨rfl, rfl⟩ := Prod.mk.inj hpair
    rw [(Instance.nonNull?_eq_some_iff.1 hvalue).1, Option.getD_some]
  · simp only [Field.contributions, htype] at h
    obtain ⟨e, _, hpair⟩ := List.mem_map.1 h
    obtain ⟨rfl, rfl⟩ := Prod.mk.inj hpair
    rw [Instance.foreignKey, hvalue, Option.some_or, Option.getD_some]
  · rw [hnone] at h
    exact absurd h List.not_mem_nil

theorem get?_createInput_of_nonNull? {name : String} {value : Json}
    (hname : name ∈ (s.createInput m).keys) (hvalue : m.nonNull? name = some value) :
    (s.createInput m).get? name = some value := by
  rw [createInput_eq_contributeAll, mem_keys_contributeAll_iff] at hname
  have hnonempty : valuesUnder name (s.contributions m) ≠ [] := by
    obtain ⟨⟨_, other⟩, hmem, rfl⟩ := List.mem_map.1 hname
    exact List.ne_nil_of_mem (mem_valuesUnder_iff.2 hmem)
  have hall : ∀ other ∈ valuesUnder name (s.contributions m), other = value := by
    intro other hother
    obtain ⟨f, _, hmem⟩ := List.mem_flatMap.1 (mem_valuesUnder_iff.1 hother)
    exact eq_of_mem_field_contributions hvalue hmem
  have hne : value ≠ .null := (Instance.nonNull?_eq_some_iff.1 hvalue).2
  rw [createInput_eq_contributeAll, get?_contributeAll, if_pos hname,
    lastValue_of_forall_eq hne hnonempty hall]

theorem sentNames_of_mem_keyFields {f : Field} (hplain : f.type.association? = none)
    (hkey : f.name ∈ s.keyFields) : s.sentNames f = [f.name] := by
  have hsent : ¬ s.isServerComputed f = true := fun h => (isServerComputed_iff.1 h).2.2 hkey
  rw [sentNames_of_plain hplain, if_neg hsent]

theorem mem_keys_createInput_of_plain {f : Field} (hf : f ∈ s.fields)
    (hplain : f.type.association? = none) (hkey : f.name ∈ s.keyFields) :
    f.name ∈ (s.createInput m).keys := by
  have hmem : (f.name, (m.get? f.name).getD .null) ∈ f.contributions s m := by
    rw [contributions_of_plain hplain, sentNames_of_mem_keyFields hplain hkey, List.map_singleton]
    exact List.mem_cons_self
  rw [createInput_eq_contributeAll, mem_keys_contributeAll_iff]
  exact List.mem_map_of_mem (List.mem_flatMap.2 ⟨f, hf, hmem⟩)

/-- Creations, updates and deletions of an instance agree in which instance they address. If the key
fields are plain ones, an instance that can be deleted can be updated, and both a creation and an
update send the values that the deletion has for the key. Whatever else is sent goes by the same
rule: a value that the instance has is sent as it is. -/
theorem mutations_agree_on_key {s : Schema}
    (hplain : ∀ name ∈ s.keyFields, ∃ f ∈ s.fields, f.name = name ∧ f.type.association? = none)
    (m : Instance) :
    ∃ created, s.mutationInput m .create = .ok created ∧
      (∀ name ∈ created.keys, ∀ value, m.nonNull? name = some value →
        created.get? name = some value) ∧
      ∀ key, s.mutationInput m .delete = .ok key →
        ∃ updated, s.mutationInput m .update = .ok updated ∧
          ∀ field ∈ s.keyFields, ∃ value, key.get? field = some value ∧
            created.get? field = some value ∧ updated.get? field = some value := by
  refine ⟨s.createInput m, rfl, fun name hname value => get?_createInput_of_nonNull? hname, ?_⟩
  intro key hkey
  have hvalues : ∀ field ∈ s.keyFields, ∃ value, key.get? field = some value ∧
      (s.createInput m).get? field = some value ∧
      ((s.createInput m).filterValues fun value => !value.isNull).get? field = some value := by
    intro field hfield
    obtain ⟨value, hvalue, hget⟩ := (keyInput_fields hkey).2 field hfield
    obtain ⟨f, hf, rfl, htype⟩ := hplain field hfield
    have hcreated := get?_createInput_of_nonNull? (mem_keys_createInput_of_plain hf htype hfield)
      hvalue
    have hne : value ≠ .null := (Instance.nonNull?_eq_some_iff.1 hvalue).2
    refine ⟨value, hget, hcreated, ?_⟩
    rw [OrderedMap.get?_filterValues, hcreated, Option.filter_eq_some_iff]
    exact ⟨rfl, by simpa [← Json.isNull_iff] using hne⟩
  refine ⟨_, updateInput_eq_ok_iff.2 ⟨rfl, fun field hfield => ?_⟩, hvalues⟩
  obtain ⟨value, _, _, hupdated⟩ := hvalues field hfield
  rw [OrderedMap.mem_keys_iff_isSome_get?, hupdated]
  rfl

def enrolment : Schema where
  name := "Enrolment"
  primaryKey := .custom ["course", "student"]
  fields := [
    { name := "studentItem", type := .model (.belongsTo "Student" ["id"] ["student"]) },
    { name := "course", type := .scalar .id, readOnly := true },
    { name := "student", type := .scalar .id },
    { name := "courseItem", type := .model (.belongsTo "Course" ["id"] ["course"]) }]

def movedEnrolment : Instance :=
  .ofList [("studentItem", .object [("id", .string "s9")]), ("student", .string "s1"),
    ("course", .string "c1"), ("courseItem", .object [("id", .string "c9")])]

theorem mutations_agree_on_key_movedEnrolment :
    (∀ name ∈ enrolment.keyFields,
      ∃ f ∈ enrolment.fields, f.name = name ∧ f.type.association? = none) ∧
    ∃ key created updated, enrolment.mutationInput movedEnrolment .delete = .ok key ∧
      enrolment.mutationInput movedEnrolment .create = .ok created ∧
      enrolment.mutationInput movedEnrolment .update = .ok updated ∧
      key.keys = ["course", "student"] ∧ updated.keys = ["student", "course"] ∧
      ∃ value, key.get? "course" = some value ∧ created.get? "course" = some value ∧
        updated.get? "course" = some value := by
  have hplain : ∀ name ∈ enrolment.keyFields,
      ∃ f ∈ enrolment.fields, f.name = name ∧ f.type.association? = none := by decide
  have hkey : ∃ key, enrolment.mutationInput movedEnrolment .delete = .ok key := ⟨_, rfl⟩
  obtain ⟨key, hkey⟩ := hkey
  obtain ⟨created, hcreated, _, hagree⟩ := mutations_agree_on_key hplain movedEnrolment
  obtain ⟨updated, hupdated, hvalues⟩ := hagree key hkey
  refine ⟨hplain, key, created, updated, hkey, hcreated, hupdated, ?_, ?_,
    hvalues "course" (by decide)⟩
  · rw [← Except.ok.inj hkey]
    rfl
  · rw [← Except.ok.inj hupdated]
    rfl

end Schema

end DataApi

import DataApi.Proofs.Mutation.Stored

/-!
# Sending what was sent

The input of a creation is an instance itself: foreign keys stand under their own names in it, and
the associated objects are gone. Taken as an instance it gives the same input again, and so does the
input of an update, whose missing entries are filled up with the nulls that were left out.

What is sent is determined by the values of the instance under the names that are sent and by the
associated objects behind the names of belongs-to fields. The latter are read only where the former
leave a gap. A second pass finds the same values, as a value that an instance has is sent as it is,
and it finds the same gaps, as long as nothing that is sent stands where an associated object would
be looked for. This is what keeps the names of belongs-to fields apart from the stored names.
-/

namespace DataApi

namespace Instance

theorem get?_of_mem_keys {m : Instance} {name : String} (h : name ∈ m.keys) :
    m.get? name = some ((m.nonNull? name).getD .null) := by
  obtain ⟨value, hvalue⟩ :=
    Option.isSome_iff_exists.1 ((m.mem_keys_iff_isSome_get? name).1 h)
  cases hnonNull : m.nonNull? name with
  | some other => exact (nonNull?_eq_some_iff.1 hnonNull).1
  | none =>
      rcases nonNull?_eq_none_iff.1 hnonNull with hget | hget
      · rw [hget] at hvalue
        nomatch hvalue
      · exact hget

theorem nonNull?_filterValues (m : Instance) (name : String) :
    nonNull? (m.filterValues fun value => !value.isNull) name = m.nonNull? name := by
  rw [nonNull?, nonNull?, OrderedMap.get?_filterValues, Option.filter_filter]
  simp only [Bool.and_self]

end Instance

namespace Schema

/-- No belongs-to field has a name that something is stored under. -/
def NamesApart (s : Schema) : Prop :=
  ∀ f ∈ s.fields, f.type.isBelongsTo = true → ∀ g ∈ s.fields, f.name ∉ g.storedNames

instance (s : Schema) : Decidable s.NamesApart :=
  inferInstanceAs (Decidable (∀ f ∈ s.fields, _ → ∀ g ∈ s.fields, f.name ∉ g.storedNames))

variable {s : Schema} {m n : Instance}

theorem map_fst_field_contributions_congr (s : Schema) (f : Field) (m n : Instance) :
    (f.contributions s m).map Prod.fst = (f.contributions s n).map Prod.fst := by
  cases htype : f.type with
  | model association =>
      cases association <;> simp only [Field.contributions, htype, List.map_map, Function.comp_def]
  | _ =>
      simp only [Field.contributions, htype]
      split <;> rfl

theorem keys_createInput_congr (s : Schema) (m n : Instance) :
    (s.createInput m).keys = (s.createInput n).keys := by
  simp only [createInput_eq_contributeAll, keys_contributeAll, contributions, List.map_flatMap,
    map_fst_field_contributions_congr s _ m n]

/-- Where the instance has no value, neither under the name nor for an associated object, a field
has none to contribute. -/
theorem eq_null_of_mem_field_contributions {f : Field} {name : String} {value : Json}
    (hname : m.nonNull? name = none)
    (hassociated : f.type.isBelongsTo = true → m.nonNull? f.name = none)
    (h : (name, value) ∈ f.contributions s m) : value = .null := by
  rcases contributions_cases s m f with hplain | ⟨_, keys, targets, htype⟩ | ⟨_, hnone, _⟩
  · rw [contributions_of_plain hplain] at h
    obtain ⟨sent, _, hpair⟩ := List.mem_map.1 h
    obtain ⟨rfl, rfl⟩ := Prod.mk.inj hpair
    rcases Instance.nonNull?_eq_none_iff.1 hname with hget | hget
    · rw [hget, Option.getD_none]
    · rw [hget, Option.getD_some]
  · simp only [Field.contributions, htype] at h
    obtain ⟨pair, _, hpair⟩ := List.mem_map.1 h
    obtain ⟨rfl, rfl⟩ := Prod.mk.inj hpair
    have hobject : m.associatedValue? f.name pair.1 = none := by
      rw [htype] at hassociated
      rcases Instance.nonNull?_eq_none_iff.1 (hassociated rfl) with hget | hget
      · rw [Instance.associatedValue?, hget]
      · rw [Instance.associatedValue?, hget]
    rw [Instance.foreignKey_eq, hname, hobject, Option.none_or, Option.getD_none]
  · rw [hnone] at h
    exact absurd h List.not_mem_nil

theorem get?_createInput_of_no_associated {name : String}
    (hname : name ∈ (s.createInput m).keys)
    (hassociated : ∀ f ∈ s.fields, f.type.isBelongsTo = true → m.nonNull? f.name = none) :
    (s.createInput m).get? name = some ((m.nonNull? name).getD .null) := by
  cases hvalue : m.nonNull? name with
  | some value => exact get?_createInput_of_nonNull? hname hvalue
  | none =>
      have hall : ∀ value ∈ valuesUnder name (s.contributions m), value = .null := by
        intro value hmem
        obtain ⟨f, hf, hcontribution⟩ := List.mem_flatMap.1 (mem_valuesUnder_iff.1 hmem)
        exact eq_null_of_mem_field_contributions hvalue (hassociated f hf) hcontribution
      rw [createInput_eq_contributeAll, mem_keys_contributeAll_iff] at hname
      rw [createInput_eq_contributeAll, get?_contributeAll, if_pos hname,
        lastValue_of_forall_null hall, Option.getD_none]

theorem NamesApart.nonNull?_createInput (hapart : s.NamesApart) (m : Instance) {f : Field}
    (hf : f ∈ s.fields) (hbelongs : f.type.isBelongsTo = true) :
    Instance.nonNull? (s.createInput m) f.name = none := by
  have hnot : f.name ∉ (s.createInput m).keys := by
    intro hmem
    obtain ⟨g, hg, hstored⟩ := exists_storedNames_of_mem_keys_createInput hmem
    exact hapart f hf hbelongs g hg hstored
  rw [OrderedMap.mem_keys_iff_isSome_get?, Option.not_isSome_iff_eq_none] at hnot
  exact Instance.nonNull?_eq_none_iff.2 (.inl hnot)

/-- An instance that has the values that are sent of another one, and no others, is sent alike. -/
theorem NamesApart.createInput_eq (hapart : s.NamesApart)
    (h : ∀ name, n.nonNull? name = Instance.nonNull? (s.createInput m) name) :
    s.createInput n = s.createInput m := by
  have hkeys := keys_createInput_congr s n m
  have hassociated : ∀ f ∈ s.fields, f.type.isBelongsTo = true → n.nonNull? f.name = none :=
    fun f hf hbelongs => (h f.name).trans (hapart.nonNull?_createInput m hf hbelongs)
  refine OrderedMap.ext_of_keys_of_get? hkeys fun name => ?_
  by_cases hname : name ∈ (s.createInput n).keys
  · rw [get?_createInput_of_no_associated hname hassociated, h name,
      Instance.get?_of_mem_keys (hkeys ▸ hname)]
  · have hname' : name ∉ (s.createInput m).keys := hkeys ▸ hname
    rw [OrderedMap.mem_keys_iff_isSome_get?, Option.not_isSome_iff_eq_none] at hname hname'
    rw [hname, hname']

/-- What a creation sends of an instance, taken as an instance itself, is sent again, by a creation
as well as by an update; and so is what an update sends. -/
theorem mutationInput_of_mutationInput (hapart : s.NamesApart) (m : Instance) :
    ∃ created, s.mutationInput m .create = .ok created ∧
      s.mutationInput created .create = .ok created ∧
      s.mutationInput created .update = s.mutationInput m .update ∧
      ∀ updated, s.mutationInput m .update = .ok updated →
        s.mutationInput updated .update = .ok updated := by
  have hcreated : s.createInput (s.createInput m) = s.createInput m :=
    hapart.createInput_eq fun _ => rfl
  refine ⟨s.createInput m, rfl, congrArg Except.ok hcreated, updateInput_congr rfl rfl hcreated,
    fun updated hupdated => ?_⟩
  have hsame : s.createInput updated = s.createInput m := by
    rw [(updateInput_eq_ok_iff.1 hupdated).1]
    exact hapart.createInput_eq fun name => Instance.nonNull?_filterValues (s.createInput m) name
  exact (updateInput_congr rfl rfl hsame).trans hupdated

def article : Schema where
  name := "Article"
  fields := [
    { name := "id", type := .scalar .id },
    { name := "author", type := .model (.belongsTo "User" ["id", "team"] ["authorId", "teamId"]) },
    { name := "slug", type := .scalar .string },
    { name := "editor", type := .model (.belongsTo "User" ["team", "id"] ["teamId", "editorId"]) },
    { name := "authorId", type := .scalar .id }]

def editedArticle : Instance :=
  .ofList [("author", .object [("id", .string "p1"), ("team", .string "t1")]),
    ("editor", .object [("id", .null), ("team", .string "t2")]), ("id", .string "a1")]

/-- The objects are read in the first pass alone. The entry of the editor is `null` both times, and
the update leaves it out. -/
theorem mutationInput_of_mutationInput_editedArticle :
    article.NamesApart ∧ ∃ created updated,
      article.mutationInput editedArticle .create = .ok created ∧
      article.mutationInput created .create = .ok created ∧
      article.mutationInput editedArticle .update = .ok updated ∧
      article.mutationInput created .update = .ok updated ∧
      article.mutationInput updated .update = .ok updated ∧
      created.keys = ["id", "authorId", "teamId", "slug", "editorId"] ∧
      updated.keys = ["id", "authorId", "teamId"] ∧
      updated.get? "teamId" = some (.string "t2") := by
  have hapart : article.NamesApart := by decide
  obtain ⟨created, hcreated, hagain, hupdate, hupdated⟩ :=
    mutationInput_of_mutationInput hapart editedArticle
  have hfirst : ∃ updated, article.mutationInput editedArticle .update = .ok updated := ⟨_, rfl⟩
  obtain ⟨updated, hfirst⟩ := hfirst
  refine ⟨hapart, created, updated, hcreated, hagain, hfirst, hupdate.trans hfirst,
    hupdated updated hfirst, ?_, ?_, ?_⟩
  · rw [← Except.ok.inj hcreated]
    rfl
  · rw [← Except.ok.inj hfirst]
    rfl
  · rw [← Except.ok.inj hfirst]
    rfl

end Schema

end DataApi

import DataApi.Proofs.Build.Signature
import DataApi.Proofs.Mutation.Contribution
import DataApi.Proofs.Mutation.Key

/-!
# What is sent of an instance

The names under which something is sent are those of the schema: a plain field is sent under its own
name, unless the server computes it, and a field that belongs to another model under its targets.
What the instance holds has no influence on them. Under each name goes the last value that the
fields offer for it, where a belongs-to field has the value of the target itself to offer before
that of the associated object; nothing offered is `null`. An update sends the same without the
nulls, if that leaves a value for every field of the key.

That the targets of a field are paired off with keys, none of them left over, is what makes a schema
valid.
-/

namespace DataApi

def Instance.associatedValue? (m : Instance) (field key : String) : Option Json :=
  match m.get? field with
  | some (.object entries) => entries.lookup key
  | _ => none

theorem Instance.foreignKey_eq (m : Instance) (field key target : String) :
    m.foreignKey field key target =
      ((m.nonNull? target).or (m.associatedValue? field key)).getD .null := by
  have hassociated : (m.get? field).bind (·.get? key) = m.associatedValue? field key := by
    unfold associatedValue?
    cases m.get? field with
    | none => rfl
    | some value => cases value <;> rfl
  rw [foreignKey, hassociated]

namespace Schema

def sentNames (s : Schema) (f : Field) : List String :=
  match f.type with
  | .scalar _ | .enum _ | .embedded _ =>
      if f.readOnly = true ∧ f.required = false ∧ f.name ∉ s.keyFields then [] else [f.name]
  | .model (.belongsTo _ _ targets) => targets
  | .model (.hasOne _ _) | .model (.hasMany _) => []

/-- The values that a field has to offer for a name, in order. -/
def offers (s : Schema) (m : Instance) (name : String) (f : Field) : List Json :=
  match f.type with
  | .scalar _ | .enum _ | .embedded _ =>
      if name ∈ s.sentNames f then (m.get? name).toList else []
  | .model (.belongsTo _ keys targets) =>
      ((keys.zip targets).filter fun e => e.2 == name).flatMap fun e =>
        ((m.nonNull? name).or (m.associatedValue? f.name e.1)).toList
  | .model (.hasOne _ _) | .model (.hasMany _) => []

variable {s : Schema} {m : Instance}

theorem isServerComputed_iff {f : Field} :
    s.isServerComputed f = true ↔
      f.readOnly = true ∧ f.required = false ∧ f.name ∉ s.keyFields := by
  simp [isServerComputed, ← isKeyField_iff, and_assoc]

theorem createInput_eq_contributeAll (s : Schema) (m : Instance) :
    s.createInput m = contributeAll (s.contributions m) := rfl

theorem sentNames_of_plain {f : Field} (hplain : f.type.association? = none) :
    s.sentNames f = if s.isServerComputed f then [] else [f.name] := by
  simp only [isServerComputed_iff]
  cases htype : f.type with
  | model association => rw [htype] at hplain; nomatch hplain
  | _ => simp only [sentNames, htype]

theorem contributions_of_plain {f : Field} (hplain : f.type.association? = none) :
    f.contributions s m = (s.sentNames f).map fun name => (name, (m.get? name).getD .null) := by
  rw [sentNames_of_plain hplain]
  cases htype : f.type with
  | model association => rw [htype] at hplain; nomatch hplain
  | _ =>
      simp only [Field.contributions, htype]
      split <;> rfl

theorem offers_of_plain {f : Field} (hplain : f.type.association? = none) (name : String) :
    s.offers m name f = if name ∈ s.sentNames f then (m.get? name).toList else [] := by
  cases htype : f.type with
  | model association => rw [htype] at hplain; nomatch hplain
  | _ => simp only [offers, htype]

/-- A field is a plain one, or holds the key of another model, or is never sent. -/
theorem contributions_cases (s : Schema) (m : Instance) (f : Field) :
    f.type.association? = none ∨
      (∃ model keys targets, f.type = .model (.belongsTo model keys targets)) ∨
      s.sentNames f = [] ∧ f.contributions s m = [] ∧ ∀ name, s.offers m name f = [] := by
  obtain ⟨name, type, required, readOnly⟩ := f
  cases type with
  | model association =>
      cases association with
      | belongsTo model keys targets => exact .inr (.inl ⟨model, keys, targets, rfl⟩)
      | hasOne model keys => exact .inr (.inr ⟨rfl, rfl, fun _ => rfl⟩)
      | hasMany model => exact .inr (.inr ⟨rfl, rfl, fun _ => rfl⟩)
  | _ => exact .inl rfl

theorem map_fst_contributions_of_isMatched {f : Field} (h : f.type.isMatched = true) :
    (f.contributions s m).map Prod.fst = s.sentNames f := by
  rcases contributions_cases s m f with hplain | ⟨model, keys, targets, htype⟩ | ⟨hsent, hnone, _⟩
  · rw [contributions_of_plain hplain, List.map_map]
    exact List.map_id _
  · simp only [htype, FieldType.isMatched, Bool.and_eq_true, beq_iff_eq] at h
    simp only [Field.contributions, sentNames, htype, List.map_map]
    exact List.map_snd_zip (Nat.le_of_eq h.2.symm)
  · rw [hnone, hsent, List.map_nil]

theorem map_fst_contributions (hvalid : s.Valid) :
    (s.contributions m).map Prod.fst = s.fields.flatMap s.sentNames := by
  rw [contributions, List.map_flatMap]
  exact List.flatMap_congr fun f hf => map_fst_contributions_of_isMatched (hvalid.isMatched f hf)

theorem nonNulls_contributions_of_plain {f : Field} (hplain : f.type.association? = none)
    (name : String) :
    nonNulls (valuesUnder name (f.contributions s m)) = nonNulls (s.offers m name f) := by
  rw [contributions_of_plain hplain, offers_of_plain hplain, sentNames_of_plain hplain]
  cases s.isServerComputed f with
  | true => rfl
  | false =>
      rw [if_neg Bool.false_ne_true, List.map_singleton]
      by_cases hname : f.name = name
      · subst hname
        rw [valuesUnder_singleton_self, nonNulls_getD_null, if_pos List.mem_cons_self]
      · have hother : name ∉ [f.name] := by simpa using Ne.symm hname
        rw [valuesUnder_of_not_mem (by simpa using hother), if_neg hother]

theorem nonNulls_contributions_of_belongsTo {f : Field} {model : String}
    {keys targets : List String} (htype : f.type = .model (.belongsTo model keys targets))
    (name : String) :
    nonNulls (valuesUnder name (f.contributions s m)) = nonNulls (s.offers m name f) := by
  have hvalues : valuesUnder name (f.contributions s m) =
      ((keys.zip targets).filter fun e => e.2 == name).map fun e =>
        ((m.nonNull? name).or (m.associatedValue? f.name e.1)).getD .null := by
    simp only [Field.contributions, htype, valuesUnder, List.filter_map, List.map_map,
      Instance.foreignKey_eq]
    refine List.map_congr_left fun e he => ?_
    obtain rfl : e.2 = name := by simpa using (List.mem_filter.1 he).2
    rfl
  rw [hvalues, nonNulls_map_getD_null]
  simp only [offers, htype]

/-- What a field contributes to a name is what it has to offer for it, up to nulls. -/
theorem nonNulls_contributions (name : String) (f : Field) :
    nonNulls (valuesUnder name (f.contributions s m)) = nonNulls (s.offers m name f) := by
  rcases contributions_cases s m f with hplain | ⟨_, _, _, htype⟩ | ⟨_, hnone, hoffers⟩
  · exact nonNulls_contributions_of_plain hplain name
  · exact nonNulls_contributions_of_belongsTo htype name
  · rw [hnone, hoffers, valuesUnder_of_not_mem (by simp)]

theorem keys_createInput (hvalid : s.Valid) (m : Instance) :
    (s.createInput m).keys = (s.fields.flatMap s.sentNames).eraseDups := by
  rw [createInput_eq_contributeAll, keys_contributeAll, map_fst_contributions hvalid]

theorem lastValue_contributions (name : String) :
    lastValue (valuesUnder name (s.contributions m)) =
      lastValue (s.fields.flatMap (s.offers m name)) := by
  refine lastValue_congr ?_
  simp only [contributions, valuesUnder_flatMap, nonNulls_flatMap, nonNulls_contributions]

/-- Under each name is the last value that is offered for it. -/
theorem get?_createInput {name : String} (h : name ∈ (s.createInput m).keys) :
    (s.createInput m).get? name = some (lastValue (s.fields.flatMap (s.offers m name))) := by
  rw [createInput_eq_contributeAll, mem_keys_contributeAll_iff] at h
  rw [createInput_eq_contributeAll, get?_contributeAll, if_pos h, lastValue_contributions]

theorem mem_keys_nonNulls_createInput_iff {name : String} :
    name ∈ ((s.createInput m).filterValues fun value => !value.isNull).keys ↔
      ∃ f ∈ s.fields, ∃ value ∈ s.offers m name f, value ≠ .null := by
  rw [createInput_eq_contributeAll, mem_keys_filterValues_contributeAll_iff,
    ← lastValue_ne_null_iff, lastValue_contributions, lastValue_ne_null_iff]
  simp only [List.mem_flatMap]
  constructor
  · rintro ⟨value, ⟨f, hf, hvalue⟩, hne⟩
    exact ⟨f, hf, value, hvalue, hne⟩
  · rintro ⟨f, hf, value, hvalue, hne⟩
    exact ⟨value, ⟨f, hf, hvalue⟩, hne⟩

/-- What an update misses is the first field of the key that no field has a value to offer for. -/
theorem updateInput_eq_error_iff_offers {e : MissingKeyField} :
    s.updateInput m = .error e ↔
      ∃ field, s.FirstMissing
        (fun other => ∃ f ∈ s.fields, ∃ value ∈ s.offers m other f, value ≠ .null) field ∧
          e = ⟨s.name, field⟩ := by
  rw [updateInput_eq_error_iff]
  simp only [mem_keys_nonNulls_createInput_iff]

end Schema

theorem Decorator.declarations_model {s : Schema} {d : Document} (hname : d.name ≠ "")
    (m : Instance) (how : MutationKind) :
    (Decorator.model m how).declarations s d =
      ((s.mutationInput m how).mapError .missingKeyField).map fun input =>
        [inputDeclaration (Naming.mutationInput d.name) input] := by
  rw [declarations, inputType_eq_ok_iff.2 ⟨hname, rfl⟩]
  rfl

/-- The input of a creation has the names of the schema, whatever the instance holds: the names of
the plain fields that the server does not compute, and all targets of the fields that belong to
another model, in the order of the fields. Under each of them is the last value that is offered for
it. An update sends the entries of the creation that are not `null`, and it fails exactly for the
first field of the key that none of them is left for. -/
theorem mutation_inputs_read_off_fields {s : Schema} (hvalid : s.Valid) (m : Instance)
    {d : Document} (hname : d.name ≠ "") :
    ∃ created updated : OrderedMap Json,
      (Decorator.model m .create).declarations s d =
        .ok [Decorator.inputDeclaration (Naming.mutationInput d.name) created] ∧
      created.keys = (s.fields.flatMap s.sentNames).eraseDups ∧
      (∀ name ∈ created.keys,
        created.get? name = some (lastValue (s.fields.flatMap (s.offers m name)))) ∧
      updated.entries = created.entries.filter (fun e => !e.2.isNull) ∧
      (∀ declared, (Decorator.model m .update).declarations s d = .ok declared ↔
        (∀ field ∈ s.keyFields, field ∈ updated.keys) ∧
          declared = [Decorator.inputDeclaration (Naming.mutationInput d.name) updated]) ∧
      ∀ e, (Decorator.model m .update).declarations s d = .error e ↔
        ∃ before field after, s.keyFields = before ++ field :: after ∧
          (∀ other ∈ before, other ∈ updated.keys) ∧ field ∉ updated.keys ∧
          e = .missingKeyField ⟨s.name, field⟩ := by
  have hupdate := Decorator.declarations_model (s := s) hname m .update
  refine ⟨s.createInput m, (s.createInput m).filterValues fun value => !value.isNull,
    Decorator.declarations_model hname m .create, Schema.keys_createInput hvalid m,
    fun name h => Schema.get?_createInput h, rfl, fun declared => ?_, fun e => ?_⟩
  · rw [hupdate, map_eq_ok_iff]
    simp only [mapError_eq_ok_iff, Schema.mutationInput, Schema.updateInput_eq_ok_iff]
    constructor
    · rintro ⟨_, ⟨rfl, hkeys⟩, rfl⟩
      exact ⟨hkeys, rfl⟩
    · rintro ⟨hkeys, rfl⟩
      exact ⟨_, ⟨rfl, hkeys⟩, rfl⟩
  · rw [hupdate, map_eq_error_iff, mapError_eq_error_iff]
    simp only [Schema.mutationInput, Schema.updateInput_eq_error_iff]
    constructor
    · rintro ⟨_, ⟨field, ⟨before, after, hsplit, hbefore, hfield⟩, rfl⟩, rfl⟩
      exact ⟨before, field, after, hsplit, hbefore, hfield, rfl⟩
    · rintro ⟨before, field, after, hsplit, hbefore, hfield, rfl⟩
      exact ⟨_, ⟨field, ⟨before, after, hsplit, hbefore, hfield⟩, rfl⟩, rfl⟩

def Schema.essay : Schema where
  name := "Essay"
  primaryKey := .custom ["id", "slug"]
  fields := [
    { name := "id", type := .scalar .id, readOnly := true },
    { name := "createdAt", type := .scalar .dateTime, readOnly := true },
    { name := "author", type := .model (.belongsTo "Person" ["id", "name"] ["authorId", "byline"]) },
    { name := "slug", type := .scalar .string },
    { name := "editor", type := .model (.belongsTo "Person" ["name", "id"] ["byline", "editorId"]) },
    { name := "authorId", type := .scalar .id }]

def draftEssay : Instance :=
  .ofList [("author", .object [("id", .string "p1"), ("name", .string "Ann")]),
    ("editor", .object [("id", .null), ("name", .string "Bea")]), ("id", .string "e1"),
    ("createdAt", .string "now")]

/-- The byline is that of the editor, who comes last, and the plain field does not take the author
away. The slug is missed by an update, although the other field of the key is there. -/
theorem mutation_inputs_read_off_fields_draftEssay :
    let d : Document := { kind := .mutation, name := "updateEssay" }
    Schema.essay.Valid ∧ d.name ≠ "" ∧ ∃ created : OrderedMap Json,
      (Decorator.model draftEssay .create).declarations .essay d =
        .ok [Decorator.inputDeclaration "UpdateEssayInput!" created] ∧
      created.keys = ["id", "authorId", "byline", "slug", "editorId"] ∧
      created.get? "byline" = some (.string "Bea") ∧
      created.get? "authorId" = some (.string "p1") ∧
      (Decorator.model draftEssay .update).declarations .essay d =
        .error (.missingKeyField ⟨"Essay", "slug"⟩) := by
  intro d
  have hvalid : Schema.essay.Valid := Schema.defect?_eq_none_iff.1 (by decide)
  have hname : d.name ≠ "" := by decide
  obtain ⟨created, updated, hcreated, hkeys, hvalues, hupdated, _, herror⟩ :=
    mutation_inputs_read_off_fields hvalid draftEssay hname
  have hnames : created.keys = ["id", "authorId", "byline", "slug", "editorId"] := by
    rw [hkeys]
    decide
  have hbyline : created.get? "byline" = some (.string "Bea") := by
    rw [hvalues "byline" (by simp [hnames])]
    rfl
  have hauthor : created.get? "authorId" = some (.string "p1") := by
    rw [hvalues "authorId" (by simp [hnames])]
    rfl
  have hid : created.get? "id" = some (.string "e1") := by
    rw [hvalues "id" (by simp [hnames])]
    rfl
  have hslug : created.get? "slug" = some .null := by
    rw [hvalues "slug" (by simp [hnames])]
    rfl
  have htype : Naming.mutationInput d.name = "UpdateEssayInput!" := by decide
  have hleft : updated = created.filterValues fun value => !value.isNull := OrderedMap.ext hupdated
  have hmem (name : String) : name ∈ updated.keys ↔
      ((created.get? name).filter fun value => !value.isNull).isSome := by
    rw [OrderedMap.mem_keys_iff_isSome_get?, hleft, OrderedMap.get?_filterValues]
  refine ⟨hvalid, hname, created, htype ▸ hcreated, hnames, hbyline, hauthor, ?_⟩
  refine (herror _).2 ⟨["id"], "slug", [], rfl, ?_, ?_, rfl⟩
  · intro other hother
    rw [List.mem_singleton.1 hother, hmem, hid]
    rfl
  · rw [hmem, hslug]
    decide

end DataApi

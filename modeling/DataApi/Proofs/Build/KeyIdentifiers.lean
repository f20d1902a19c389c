import DataApi.Proofs.Build.Replacement
import DataApi.Proofs.Document.Merging

/-!
# Identifying an instance by its key

A map of identifiers may come in any order and may hold more than the key. What is declared is read
off the key: one identifier for each of its fields, in its order, and the first field without an
identifier is what is missing. In the document the variables that are there stay where they are, and
the other fields of the key follow, each once (`KeyBound`). Only a key field that the document has
under another type can then be a collision. Where the key is the field `id` and nothing else, the
map does what its identifier for `id` does alone.
-/

namespace DataApi

namespace Document

theorem register_of_forall_eq {policy : CollisionPolicy} (d : Document)
    {declarations : List (String × Variable)} {e : String × Variable} (hne : declarations ≠ [])
    (h : ∀ f ∈ declarations, f = e) : d.register policy declarations = d.register policy [e] := by
  have hadmits {l : List (String × Variable)} (hl : ∀ f ∈ l, f = e) : policy.Admits l :=
    fun _ f hf g hg _ => by rw [hl f hf, hl g hg]
  have hcollected : OrderedMap.ofList declarations = OrderedMap.ofList [e] := by
    obtain ⟨f, rest, rfl⟩ := List.exists_cons_of_ne_nil hne
    obtain ⟨rfl, hrest⟩ := List.forall_mem_cons.1 h
    have hsplit : OrderedMap.ofList (f :: rest) = (OrderedMap.ofList [f]).insertAll rest :=
      OrderedMap.ofList_append [f] rest
    rw [hsplit]
    refine OrderedMap.insertAll_of_forall_get?_eq fun g hg => ?_
    rw [hrest g hg, OrderedMap.get?_ofList]
    exact List.lookup_cons_self
  rw [register, register, Variables.ofDeclarations_eq_ok_iff.2 ⟨rfl, hadmits h⟩, hcollected,
    Variables.ofDeclarations_eq_ok_iff.2 ⟨rfl, hadmits (List.forall_mem_singleton.2 rfl)⟩]

end Document

/-- The document `e` is the document `d` in which every field of the key is bound to its identifier
in `ids`. -/
structure KeyBound (s : Schema) (ids : OrderedMap String) (d e : Document) : Prop where
  /-- The variables that are there keep their places, and the new ones follow in the order of the
  key. -/
  keys_eq : e.declared.keys =
    d.declared.keys ++ s.keyFields.eraseDups.filter fun field => field ∉ d.declared.keys
  bound : ∀ field ∈ s.keyFields, ∃ id, ids.get? field = some id ∧
    e.declared.get? field = some ⟨Naming.idType, .string id⟩
  unbound : ∀ name, name ∉ s.keyFields → e.declared.get? name = d.declared.get? name
  /-- The document is the same apart from its variables. -/
  rest_eq : e = { d with declared := e.declared }

namespace Decorator

variable {s : Schema} {config : Config} {d : Document} {ids : OrderedMap String}

theorem keyIdentifier_eq_error_iff {field : String} {missing : MissingKeyField} :
    keyIdentifier s ids field = .error missing ↔
      field ∉ ids.keys ∧ missing = ⟨s.name, field⟩ := by
  rw [OrderedMap.mem_keys_iff_isSome_get?]
  unfold keyIdentifier
  cases ids.get? field with
  | none => simp [eq_comm]
  | some id => simp

theorem exists_keyIdentifier_iff {field : String} :
    (∃ e, keyIdentifier s ids field = .ok e) ↔ field ∈ ids.keys := by
  simp only [keyIdentifier_eq_ok_iff, OrderedMap.mem_keys_iff_isSome_get?,
    Option.isSome_iff_exists]
  exact ⟨fun ⟨_, id, hid, _⟩ => ⟨id, hid⟩, fun ⟨id, hid⟩ => ⟨_, id, hid, rfl⟩⟩

theorem exists_keyIdentifiers_iff {fields : List String} :
    (∃ l, fields.mapM (keyIdentifier s ids) = .ok l) ↔ ∀ field ∈ fields, field ∈ ids.keys := by
  simp only [exists_mapM_eq_ok_iff, exists_keyIdentifier_iff]

theorem apply_byKey (s : Schema) (config : Config) (d : Document) (ids : OrderedMap String) :
    apply s config d (.modelId (.byKey ids)) = (do
      let declared ← (s.keyFields.mapM (keyIdentifier s ids)).mapError .missingKeyField
      (d.register config.collisions declared).mapError .collision) :=
  rfl

theorem apply_byKey_eq_ok_iff {e : Document} :
    apply s config d (.modelId (.byKey ids)) = .ok e ↔
      ∃ l, s.keyFields.mapM (keyIdentifier s ids) = .ok l ∧
        e = { d with declared := d.declared.insertAll l } ∧
        config.collisions.Admits (d.declared.entries ++ l) := by
  rw [apply_byKey, bind_eq_ok_iff]
  simp only [mapError_eq_ok_iff, Document.register_eq_ok_iff]

theorem apply_byKey_eq_error_cases {cause : BuildError}
    (h : apply s config d (.modelId (.byKey ids)) = .error cause) :
    (∃ missing, s.keyFields.mapM (keyIdentifier s ids) = .error missing ∧
      cause = .missingKeyField missing) ∨ ∃ c, cause = .collision c := by
  rw [apply_byKey, bind_eq_error_iff] at h
  rcases h with h | ⟨l, _, h⟩
  · obtain ⟨missing, hmissing, hcause⟩ := mapError_eq_error_iff.1 h
    exact .inl ⟨missing, hmissing, hcause.symm⟩
  · obtain ⟨c, _, hcause⟩ := mapError_eq_error_iff.1 h
    exact .inr ⟨c, hcause.symm⟩

theorem apply_byKey_eq_error_missingKeyField_iff {missing : MissingKeyField} :
    apply s config d (.modelId (.byKey ids)) = .error (.missingKeyField missing) ↔
      s.keyFields.mapM (keyIdentifier s ids) = .error missing := by
  constructor
  · intro h
    rcases apply_byKey_eq_error_cases h with ⟨missing', hmissing, hcause⟩ | ⟨c, hcause⟩
    · rwa [BuildError.missingKeyField.inj hcause]
    · nomatch hcause
  · intro h
    rw [apply_byKey, h]
    rfl

theorem keyIdentifiers_eq_error_iff {fields : List String} {missing : MissingKeyField} :
    fields.mapM (keyIdentifier s ids) = .error missing ↔
      ∃ before field after, fields = before ++ field :: after ∧
        (∀ other ∈ before, other ∈ ids.keys) ∧ field ∉ ids.keys ∧
        missing = ⟨s.name, field⟩ := by
  rw [mapM_eq_error_iff]
  simp only [exists_keyIdentifier_iff, keyIdentifier_eq_error_iff]

/-- The identifiers of a key are admitted when the document has no key field under another type. -/
theorem admits_keyIdentifiers_iff {vs : Variables} {fields : List String}
    {l : List (String × Variable)} (h : fields.mapM (keyIdentifier s ids) = .ok l) :
    config.collisions.Admits (vs.entries ++ l) ↔
      (config.collisions = .reject →
        ∀ field ∈ fields, ∀ v, vs.get? field = some v → v.type = Naming.idType) := by
  obtain ⟨rfl, hbound⟩ := keyIdentifiers_fields h
  have htype : ∀ e ∈ l, e.2.type = Naming.idType := by
    intro e he
    obtain ⟨id, _, heq⟩ := hbound e he
    rw [heq]
    rfl
  have hagree : TypesAgree l := fun e he f hf _ => (htype e he).trans (htype f hf).symm
  have hconflicts (e : String × Variable) (he : e ∈ l) :
      ¬vs.Conflicts e ↔ ∀ v, vs.get? e.1 = some v → v.type = Naming.idType := by
    simp only [Variables.Conflicts, htype e he, not_exists, not_and, not_not]
  rw [CollisionPolicy.Admits, Variables.typesAgree_append_iff, and_iff_right hagree,
    List.forall_mem_map]
  exact imp_congr_right fun _ => forall₂_congr hconflicts

theorem exists_apply_byKey_eq_ok_iff :
    (∃ e, apply s config d (.modelId (.byKey ids)) = .ok e) ↔
      (∀ field ∈ s.keyFields, field ∈ ids.keys) ∧ (config.collisions = .reject →
        ∀ field ∈ s.keyFields, ∀ v, d.declared.get? field = some v → v.type = Naming.idType) := by
  simp only [apply_byKey_eq_ok_iff, ← exists_keyIdentifiers_iff (s := s)]
  constructor
  · rintro ⟨_, l, hl, _, hadmits⟩
    exact ⟨⟨l, hl⟩, (admits_keyIdentifiers_iff hl).1 hadmits⟩
  · rintro ⟨⟨l, hl⟩, htypes⟩
    exact ⟨_, l, hl, rfl, (admits_keyIdentifiers_iff hl).2 htypes⟩

theorem keyBound_of_apply {e : Document}
    (h : apply s config d (.modelId (.byKey ids)) = .ok e) : KeyBound s ids d e := by
  obtain ⟨l, hl, rfl, _⟩ := apply_byKey_eq_ok_iff.1 h
  obtain ⟨hnames, hbound⟩ := keyIdentifiers_fields hl
  refine ⟨?_, ?_, ?_, rfl⟩
  · have hkeys : (d.declared.insertAll (OrderedMap.ofList l).entries).keys = _ :=
      OrderedMap.keys_insertAll_entries d.declared (OrderedMap.ofList l)
    rwa [OrderedMap.insertAll_entries_ofList, OrderedMap.keys_ofList, hnames] at hkeys
  · intro field hfield
    rw [← hnames, ← List.mem_reverse, ← List.map_reverse] at hfield
    obtain ⟨v, hv⟩ := lookup_eq_some_of_mem_map_fst hfield
    obtain ⟨id, hid, heq⟩ := hbound _ (List.mem_reverse.1 (mem_of_lookup_eq_some hv))
    refine ⟨id, hid, ?_⟩
    rw [OrderedMap.get?_insertAll, hv, Option.some_or, (Prod.mk.inj heq).2]
  · intro name hname
    have hnone : l.reverse.lookup name = none :=
      lookup_eq_none_of_not_mem (by simpa [hnames] using hname)
    rw [OrderedMap.get?_insertAll, hnone, Option.none_or]

/-- Where the key is the field `id` and nothing else, both ways to identify declare the identifier
for `id` and nothing else. -/
theorem apply_byKey_eq_apply_byId (hkey : ∀ field, field ∈ s.keyFields ↔ field = Naming.id)
    {id : String} (hid : ids.get? Naming.id = some id) :
    apply s config d (.modelId (.byKey ids)) = apply s config d (.modelId (.byId id)) := by
  have hmem : Naming.id ∈ s.keyFields := (hkey _).2 rfl
  have hid_mem : Naming.id ∈ ids.keys := by
    rw [OrderedMap.mem_keys_iff_isSome_get?, hid]
    rfl
  obtain ⟨l, hl⟩ := exists_keyIdentifiers_iff (s := s).2 fun field hfield =>
    (hkey field).1 hfield ▸ hid_mem
  have hbyKey : d.register config.collisions l =
      d.register config.collisions [identifier Naming.id id] := by
    obtain ⟨hnames, hbound⟩ := keyIdentifiers_fields hl
    have hne : l ≠ [] := by
      rintro rfl
      rw [← hnames] at hmem
      nomatch hmem
    refine d.register_of_forall_eq hne fun e he => ?_
    have hfield : e.1 = Naming.id := (hkey _).1 (hnames ▸ List.mem_map_of_mem he)
    obtain ⟨id', hid', heq⟩ := hbound e he
    rw [hfield, hid] at hid'
    rw [heq, hfield, Option.some.inj hid']
  have hbyId : d.register config.collisions
      (((s.customKeyFields?.bind List.head?).map fun field => identifier field id).toList
        ++ [identifier Naming.id id]) =
      d.register config.collisions [identifier Naming.id id] := by
    refine d.register_of_forall_eq (by simp) fun e he => ?_
    rcases List.mem_append.1 he with he | he
    · obtain ⟨field, hfield, rfl⟩ := Option.map_eq_some_iff.1 (Option.mem_toList.1 he)
      rw [(hkey field).1 (Schema.mem_keyFields_of_head? hfield)]
    · exact List.mem_singleton.1 he
  rw [apply_byKey, hl]
  exact congrArg (Except.mapError BuildError.collision) (hbyKey.trans hbyId.symm)

/-- What identifying an instance by its key comes to. Of the map only the identifiers of key fields
count. The first key field that has none is missing; if each has one, the only thing to go wrong is
that collisions are rejected and the document has a key field under another type. Otherwise exactly
the fields of the key are bound. Where the key is the field `id` and nothing else, it is the same as
identifying by the identifier of the map for `id`. -/
theorem apply_byKey_outcome (s : Schema) (config : Config) (d : Document)
    (ids : OrderedMap String) :
    (∀ others : OrderedMap String, (∀ field ∈ s.keyFields, others.get? field = ids.get? field) →
      apply s config d (.modelId (.byKey others)) = apply s config d (.modelId (.byKey ids))) ∧
    ((∃ missing, apply s config d (.modelId (.byKey ids)) = .error (.missingKeyField missing)) ↔
      ∃ field ∈ s.keyFields, field ∉ ids.keys) ∧
    (∀ missing, apply s config d (.modelId (.byKey ids)) = .error (.missingKeyField missing) ↔
      ∃ before field after, s.keyFields = before ++ field :: after ∧
        (∀ other ∈ before, other ∈ ids.keys) ∧ field ∉ ids.keys ∧ missing = ⟨s.name, field⟩) ∧
    (∀ cause, apply s config d (.modelId (.byKey ids)) = .error cause →
      (∃ missing, cause = .missingKeyField missing) ∨ ∃ c, cause = .collision c) ∧
    ((∃ e, apply s config d (.modelId (.byKey ids)) = .ok e) ↔
      (∀ field ∈ s.keyFields, field ∈ ids.keys) ∧ (config.collisions = .reject →
        ∀ field ∈ s.keyFields, ∀ v, d.declared.get? field = some v → v.type = Naming.idType)) ∧
    (∀ e, apply s config d (.modelId (.byKey ids)) = .ok e → KeyBound s ids d e) ∧
    ((∀ field, field ∈ s.keyFields ↔ field = Naming.id) → ∀ id, ids.get? Naming.id = some id →
      apply s config d (.modelId (.byKey ids)) = apply s config d (.modelId (.byId id))) := by
  refine ⟨?_, ?_, ?_, ?_, exists_apply_byKey_eq_ok_iff, fun e => keyBound_of_apply,
    fun hkey id => apply_byKey_eq_apply_byId hkey⟩
  · intro others hsame
    have hmapM : s.keyFields.mapM (keyIdentifier s others) =
        s.keyFields.mapM (keyIdentifier s ids) :=
      mapM_congr fun field hfield => by rw [keyIdentifier, keyIdentifier, hsame field hfield]
    rw [apply_byKey, apply_byKey, hmapM]
  · simp only [apply_byKey_eq_error_missingKeyField_iff]
    rw [exists_eq_error_iff, exists_keyIdentifiers_iff]
    simp only [not_forall, exists_prop]
  · intro missing
    rw [apply_byKey_eq_error_missingKeyField_iff, keyIdentifiers_eq_error_iff]
  · intro cause h
    rcases apply_byKey_eq_error_cases h with ⟨missing, _, hcause⟩ | hcollision
    · exact .inl ⟨missing, hcause⟩
    · exact .inr hcollision

/-- A key that lists the identifier twice, bound by a map in another order and with a colour, in a
document that has one of its fields: the colour does not count, and is not enough. Where the key is
the identifier alone, the map counts for that alone. -/
theorem apply_byKey_outcome_shelf :
    let d : Document :=
      { kind := .query
        declared := .ofList [("limit", ⟨"Int", .int 10⟩), ("row", ⟨"ID!", .string "r0"⟩)] }
    let ids : OrderedMap String := .ofList [("colour", "red"), ("row", "r1"), ("id", "i1")]
    let key : OrderedMap String := .ofList [("id", "i1"), ("row", "r1")]
    let colour : OrderedMap String := .ofList [("colour", "red")]
    apply .shelf {} d (.modelId (.byKey ids)) = apply .shelf {} d (.modelId (.byKey key)) ∧
    (∃ e, apply .shelf {} d (.modelId (.byKey ids)) = .ok e ∧ KeyBound .shelf ids d e ∧
      e.declared.keys = ["limit", "row", "id"]) ∧
    apply .shelf {} d (.modelId (.byKey colour)) = .error (.missingKeyField ⟨"Shelf", "id"⟩) ∧
    apply .post {} d (.modelId (.byKey ids)) = apply .post {} d (.modelId (.byId "i1")) := by
  intro d ids key colour
  obtain ⟨hsame, _⟩ := apply_byKey_outcome .shelf {} d key
  obtain ⟨_, _, _, _, _, hbound, _⟩ := apply_byKey_outcome .shelf {} d ids
  obtain ⟨_, _, hmissing, _⟩ := apply_byKey_outcome .shelf {} d colour
  obtain ⟨_, _, _, _, _, _, hid⟩ := apply_byKey_outcome .post {} d ids
  obtain ⟨e, he⟩ : ∃ e, apply .shelf {} d (.modelId (.byKey ids)) = .ok e := ⟨_, rfl⟩
  refine ⟨hsame ids (by decide), ⟨e, he, hbound e he, ?_⟩, ?_, hid ?_ "i1" rfl⟩
  · rw [← Except.ok.inj he]
    rfl
  · exact (hmissing _).2 ⟨[], "id", ["row", "id"], rfl, by simp, by decide, rfl⟩
  · exact fun field => List.mem_singleton

end Decorator

end DataApi

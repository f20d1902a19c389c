import DataApi.Proofs.Mutation.Agreement

/-!
# What is stored and what is sent of it

A model stores its plain fields under their own names, and the keys of the models it belongs to
under the target names. Whatever a mutation sends, it sends under a stored name, and of these it
leaves out nothing but the plain fields that the server computes and that are no part of the key. So
a plain field that the server computes may as well not be there, and a field of the key is sent
whenever it is stored.

Associations are another matter. A read-only field that belongs to another model is sent all the
same. A field of the key that is declared as an association, and is the target of none, is stored
nowhere: the schema is valid and an instance can be deleted, but it cannot be updated.
-/

namespace DataApi

def FieldType.isBelongsTo : FieldType → Bool
  | .model (.belongsTo _ _ _) => true
  | _ => false

/-- The names under which a field is stored: its own, or the targets of a foreign key. -/
def Field.storedNames (f : Field) : List String :=
  match f.type with
  | .scalar _ | .enum _ | .embedded _ => [f.name]
  | .model (.belongsTo _ _ targets) => targets
  | .model (.hasOne _ _) | .model (.hasMany _) => []

namespace Schema

def withFields (s : Schema) (fields : List Field) : Schema := { s with fields }

variable {s : Schema} {m : Instance} {f : Field}

theorem storedNames_of_plain (hplain : f.type.association? = none) : f.storedNames = [f.name] := by
  cases htype : f.type with
  | model association => rw [htype] at hplain; nomatch hplain
  | _ => simp only [Field.storedNames, htype]

theorem association?_ne_none_of_isBelongsTo (hbelongs : f.type.isBelongsTo = true) :
    f.type.association? ≠ none := by
  cases htype : f.type with
  | model association => simp [FieldType.association?]
  | _ => rw [htype] at hbelongs; nomatch hbelongs

/-- All that is stored is sent, but for the plain fields that the server computes. -/
theorem sentNames_eq_storedNames
    (hsent : f.type.association? = none → s.isServerComputed f = false) :
    s.sentNames f = f.storedNames := by
  by_cases hplain : f.type.association? = none
  · rw [sentNames_of_plain hplain, storedNames_of_plain hplain, hsent hplain]
    rfl
  · cases htype : f.type with
    | model association => cases association <;> simp only [sentNames, Field.storedNames, htype]
    | _ => rw [htype] at hplain; exact absurd rfl hplain

theorem sentNames_subset_storedNames (s : Schema) (f : Field) : s.sentNames f ⊆ f.storedNames := by
  cases hcomputed : s.isServerComputed f with
  | false => rw [sentNames_eq_storedNames fun _ => hcomputed]; exact List.Subset.refl _
  | true =>
      by_cases hplain : f.type.association? = none
      · rw [sentNames_of_plain hplain, if_pos hcomputed]
        exact List.nil_subset _
      · rw [sentNames_eq_storedNames fun h => absurd h hplain]
        exact List.Subset.refl _

theorem fst_mem_storedNames {e : String × Json} (h : e ∈ f.contributions s m) :
    e.1 ∈ f.storedNames := by
  rcases contributions_cases s m f with hplain | ⟨_, keys, targets, htype⟩ | ⟨_, hnone, _⟩
  · rw [contributions_of_plain hplain] at h
    obtain ⟨name, hname, rfl⟩ := List.mem_map.1 h
    exact sentNames_subset_storedNames s f hname
  · simp only [Field.contributions, htype] at h
    obtain ⟨pair, hpair, rfl⟩ := List.mem_map.1 h
    simp only [Field.storedNames, htype]
    exact (List.of_mem_zip hpair).2
  · rw [hnone] at h
    exact absurd h List.not_mem_nil

theorem mem_keys_createInput_iff_contributed {name : String} :
    name ∈ (s.createInput m).keys ↔
      ∃ f ∈ s.fields, name ∈ (f.contributions s m).map Prod.fst := by
  rw [createInput_eq_contributeAll, mem_keys_contributeAll_iff, contributions, List.map_flatMap,
    List.mem_flatMap]

theorem exists_storedNames_of_mem_keys_createInput {name : String}
    (h : name ∈ (s.createInput m).keys) : ∃ f ∈ s.fields, name ∈ f.storedNames := by
  obtain ⟨f, hf, hname⟩ := mem_keys_createInput_iff_contributed.1 h
  obtain ⟨e, he, rfl⟩ := List.mem_map.1 hname
  exact ⟨f, hf, fst_mem_storedNames he⟩

theorem updateInput_congr {t : Schema} {n : Instance} (hname : s.name = t.name)
    (hkey : s.keyFields = t.keyFields) (h : s.createInput m = t.createInput n) :
    s.updateInput m = t.updateInput n := by
  simp only [updateInput, hname, hkey, h]

theorem createInput_withFields (s : Schema) (fields : List Field) (m : Instance) :
    (s.withFields fields).createInput m =
      contributeAll (fields.flatMap (Field.contributions s m)) := rfl

theorem contributions_of_isServerComputed (hcomputed : s.isServerComputed f = true)
    (hbelongs : f.type.isBelongsTo = false) : f.contributions s m = [] := by
  rcases contributions_cases s m f with hplain | ⟨_, _, _, htype⟩ | ⟨_, hnone, _⟩
  · rw [contributions_of_plain hplain, sentNames_of_plain hplain, if_pos hcomputed, List.map_nil]
  · rw [htype] at hbelongs
    nomatch hbelongs
  · exact hnone

theorem map_fst_contributions_of_isBelongsTo (hbelongs : f.type.isBelongsTo = true)
    (hmatched : f.type.isMatched = true) :
    (f.contributions s m).map Prod.fst = f.storedNames := by
  rw [map_fst_contributions_of_isMatched hmatched]
  exact sentNames_eq_storedNames fun h => absurd h (association?_ne_none_of_isBelongsTo hbelongs)

/-- A field that the server computes may be left out of the model without a difference to what is
sent, unless it holds the key of another model: then all its targets are sent, and those that no
other field stores are missed without it. -/
theorem inputs_without_serverComputed {before after : List Field}
    (hfields : s.fields = before ++ f :: after) (hreadOnly : f.readOnly = true)
    (hrequired : f.required = false) (hkey : f.name ∉ s.keyFields) (m : Instance) :
    (f.type.isBelongsTo = false →
      (s.withFields (before ++ after)).createInput m = s.createInput m ∧
        (s.withFields (before ++ after)).updateInput m = s.updateInput m) ∧
    (f.type.isBelongsTo = true → f.type.isMatched = true → ∀ target ∈ f.storedNames,
      target ∈ (s.createInput m).keys ∧
        ((∀ g ∈ before ++ after, target ∉ g.storedNames) →
          target ∉ ((s.withFields (before ++ after)).createInput m).keys)) := by
  have hcomputed : s.isServerComputed f = true :=
    isServerComputed_iff.2 ⟨hreadOnly, hrequired, hkey⟩
  refine ⟨fun hbelongs => ?_, fun hbelongs hmatched target htarget => ⟨?_, fun hother hmem => ?_⟩⟩
  · have hcreate : (s.withFields (before ++ after)).createInput m = s.createInput m := by
      rw [createInput_withFields, createInput_eq_contributeAll, contributions, hfields,
        List.flatMap_append, List.flatMap_append, List.flatMap_cons,
        contributions_of_isServerComputed hcomputed hbelongs, List.nil_append]
    exact ⟨hcreate, updateInput_congr rfl rfl hcreate⟩
  · have hf : f ∈ s.fields := by rw [hfields]; exact List.mem_append_right _ List.mem_cons_self
    rw [← map_fst_contributions_of_isBelongsTo (s := s) (m := m) hbelongs hmatched] at htarget
    exact mem_keys_createInput_iff_contributed.2 ⟨f, hf, htarget⟩
  · obtain ⟨g, hg, hstored⟩ := exists_storedNames_of_mem_keys_createInput hmem
    exact hother g hg hstored

def listing : Schema where
  name := "Listing"
  fields := [
    { name := "id", type := .scalar .id, required := true },
    { name := "createdAt", type := .scalar .dateTime, readOnly := true },
    { name := "owner", type := .model (.belongsTo "Person" ["id"] ["ownerId"]), readOnly := true },
    { name := "title", type := .scalar .string }]

def ownedListing : Instance :=
  .ofList [("id", .string "l1"), ("owner", .object [("id", .string "p1")])]

/-- The date of creation is not sent although the instance has one, so that the inputs are the same
without the field. -/
theorem inputs_without_serverComputed_createdAt :
    let m : Instance := ownedListing.insert "createdAt" (.string "2024-05-01")
    ∃ before f after updated, listing.fields = before ++ f :: after ∧ f.name = "createdAt" ∧
      f.readOnly = true ∧ f.required = false ∧ f.name ∉ listing.keyFields ∧
      m.get? "createdAt" = some (.string "2024-05-01") ∧
      (listing.createInput m).keys = ["id", "ownerId", "title"] ∧
      (listing.withFields (before ++ after)).createInput m = listing.createInput m ∧
      listing.updateInput m = .ok updated ∧ updated.keys = ["id", "ownerId"] ∧
      (listing.withFields (before ++ after)).updateInput m = .ok updated := by
  intro m
  have hfields : listing.fields = [listing.fields[0]] ++ listing.fields[1] ::
      [listing.fields[2], listing.fields[3]] := rfl
  have hkey : listing.fields[1].name ∉ listing.keyFields := by decide
  have hupdated : listing.updateInput m =
      .ok ((listing.createInput m).filterValues fun value => !value.isNull) := rfl
  obtain ⟨hcreate, hupdate⟩ := (inputs_without_serverComputed hfields rfl rfl hkey m).1 rfl
  exact ⟨_, _, _, _, hfields, rfl, rfl, rfl, hkey, rfl, rfl, hcreate, hupdated, rfl,
    hupdate.trans hupdated⟩

/-- The owner is read-only, not required and no part of the key, and yet is sent by a creation as
well as by an update. -/
theorem readOnly_owner_is_sent :
    ∃ before f after, listing.Valid ∧ listing.fields = before ++ f :: after ∧ f.name = "owner" ∧
      f.readOnly = true ∧ f.required = false ∧ f.name ∉ listing.keyFields ∧
      (listing.createInput ownedListing).get? "ownerId" = some (.string "p1") ∧
      ((listing.withFields (before ++ after)).createInput ownedListing).get? "ownerId" = none ∧
      ∃ sent sentWithout, listing.updateInput ownedListing = .ok sent ∧
        (listing.withFields (before ++ after)).updateInput ownedListing = .ok sentWithout ∧
        sent.keys = ["id", "ownerId"] ∧ sentWithout.keys = ["id"] :=
  ⟨[listing.fields[0], listing.fields[1]], listing.fields[2], [listing.fields[3]],
    defect?_eq_none_iff.1 (by decide), rfl, rfl, rfl, rfl, by decide, rfl, rfl, _, _, rfl, rfl,
    rfl, rfl⟩

theorem mem_sentNames_iff_of_mem_keyFields {name : String} (hkey : name ∈ s.keyFields) :
    name ∈ s.sentNames f ↔ name ∈ f.storedNames := by
  refine ⟨fun h => sentNames_subset_storedNames s f h, fun h => ?_⟩
  by_cases hplain : f.type.association? = none
  · rw [storedNames_of_plain hplain, List.mem_singleton] at h
    subst h
    rw [sentNames_of_mem_keyFields hplain hkey]
    exact List.mem_cons_self
  · rwa [sentNames_eq_storedNames fun hnone => absurd hnone hplain]

theorem mem_keys_createInput_iff_stored (hvalid : s.Valid) {name : String}
    (hkey : name ∈ s.keyFields) :
    name ∈ (s.createInput m).keys ↔ ∃ f ∈ s.fields, name ∈ f.storedNames := by
  rw [keys_createInput hvalid, List.mem_eraseDups, List.mem_flatMap]
  simp only [mem_sentNames_iff_of_mem_keyFields hkey]

theorem get?_nonNulls_createInput {name : String} {value : Json}
    (hname : name ∈ (s.createInput m).keys) (hvalue : m.nonNull? name = some value) :
    ((s.createInput m).filterValues fun value => !value.isNull).get? name = some value := by
  have hne : value ≠ .null := (Instance.nonNull?_eq_some_iff.1 hvalue).2
  rw [OrderedMap.get?_filterValues, get?_createInput_of_nonNull? hname hvalue,
    Option.filter_eq_some_iff]
  exact ⟨rfl, by simpa [← Json.isNull_iff] using hne⟩

/-- A creation sends those fields of the key that the model stores. An instance that has a value for
every field of the key can be updated exactly when the model stores all of them. -/
theorem key_sent_iff_stored (hvalid : s.Valid) (m : Instance) :
    ∃ created, s.mutationInput m .create = .ok created ∧
      (∀ field ∈ s.keyFields, field ∈ created.keys ↔ ∃ f ∈ s.fields, field ∈ f.storedNames) ∧
      ((∀ field ∈ s.keyFields, (m.nonNull? field).isSome) →
        ((∃ updated, s.mutationInput m .update = .ok updated) ↔
          ∀ field ∈ s.keyFields, ∃ f ∈ s.fields, field ∈ f.storedNames)) := by
  have hstored : ∀ field ∈ s.keyFields,
      field ∈ (s.createInput m).keys ↔ ∃ f ∈ s.fields, field ∈ f.storedNames :=
    fun field hfield => mem_keys_createInput_iff_stored hvalid hfield
  refine ⟨s.createInput m, rfl, hstored, fun hvalues => ⟨?_, fun hall => ?_⟩⟩
  · rintro ⟨updated, hupdated⟩ field hfield
    obtain ⟨rfl, hkeys⟩ := updateInput_eq_ok_iff.1 hupdated
    have hsub := (List.filter_sublist.map Prod.fst).subset (hkeys field hfield)
    exact (hstored field hfield).1 hsub
  · refine ⟨_, updateInput_eq_ok_iff.2 ⟨rfl, fun field hfield => ?_⟩⟩
    obtain ⟨value, hvalue⟩ := Option.isSome_iff_exists.1 (hvalues field hfield)
    have hsent := (hstored field hfield).2 (hall field hfield)
    rw [OrderedMap.mem_keys_iff_isSome_get?, get?_nonNulls_createInput hsent hvalue]
    rfl

def booking : Schema where
  name := "Booking"
  primaryKey := .custom ["day", "room"]
  fields := [
    { name := "day", type := .scalar .date, readOnly := true },
    { name := "room", type := .model (.belongsTo "Room" ["id"] ["roomId"]) }]

def bookedRoom : Instance :=
  .ofList [("day", .string "2024-05-01"), ("room", .string "r1")]

/-- The schema is valid and the instance has a value for each field of the key, but the room is not
sent under the name of the association, so that the instance can be deleted but not updated. -/
theorem booking_key_not_sent :
    booking.Valid ∧ (∀ field ∈ booking.keyFields, (bookedRoom.nonNull? field).isSome) ∧
      "room" ∈ booking.keyFields ∧ (booking.createInput bookedRoom).keys = ["day", "roomId"] ∧
      (∃ key, booking.keyInput bookedRoom = .ok key) ∧
      booking.updateInput bookedRoom = .error ⟨"Booking", "room"⟩ :=
  ⟨defect?_eq_none_iff.1 (by decide), by decide, by decide, rfl, ⟨_, rfl⟩, rfl⟩

def roomBooking : Schema where
  name := "Booking"
  primaryKey := .custom ["day", "roomId"]
  fields := booking.fields ++ [{ name := "roomId", type := .scalar .id }]

/-- Now all of the key is stored, and with a value for the field itself the instance can be updated.
-/
theorem key_sent_iff_stored_roomBooking :
    let m : Instance := bookedRoom.insert "roomId" (.string "r1")
    roomBooking.Valid ∧ (∀ field ∈ roomBooking.keyFields, (m.nonNull? field).isSome) ∧
      ∃ created updated, roomBooking.mutationInput m .create = .ok created ∧
        roomBooking.mutationInput m .update = .ok updated ∧ "roomId" ∈ created.keys := by
  intro m
  have hvalid : roomBooking.Valid := defect?_eq_none_iff.1 (by decide)
  have hvalues : ∀ field ∈ roomBooking.keyFields, (m.nonNull? field).isSome := by decide
  have hstored : ∀ field ∈ roomBooking.keyFields,
      ∃ f ∈ roomBooking.fields, field ∈ f.storedNames := by decide
  have hroom : "roomId" ∈ roomBooking.keyFields := by decide
  obtain ⟨created, hcreated, hkeys, hupdate⟩ := key_sent_iff_stored hvalid m
  obtain ⟨updated, hupdated⟩ := (hupdate hvalues).2 hstored
  exact ⟨hvalid, hvalues, created, updated, hcreated, hupdated,
    (hkeys "roomId" hroom).2 (hstored "roomId" hroom)⟩

end Schema

end DataApi

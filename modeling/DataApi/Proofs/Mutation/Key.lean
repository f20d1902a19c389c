import DataApi.Mutation
import DataApi.Proofs.Fallible
import DataApi.Proofs.OrderedMap.History

/-!
# The primary key in the input of a mutation

An input addresses an instance when it has a value for every field of the primary key. Deleting
sends the key of the instance and nothing else, one entry for each of its fields. Updating first
leaves out what is missing and then asks for the key, so what is left addresses the instance too.
-/

namespace DataApi

namespace Schema

def Addresses (s : Schema) (input : OrderedMap Json) : Prop :=
  ∀ field ∈ s.keyFields, ∃ value, input.get? field = some value ∧ value ≠ .null

/-- The first field of the primary key that is not there. -/
def FirstMissing (s : Schema) (there : String → Prop) (field : String) : Prop :=
  ∃ before after, s.keyFields = before ++ field :: after ∧ (∀ other ∈ before, there other) ∧
    ¬there field

variable {s : Schema} {m : Instance}

theorem keyValue_eq_ok_iff {field : String} {value : Json} :
    s.keyValue m field = .ok value ↔ m.nonNull? field = some value := by
  unfold keyValue
  cases m.nonNull? field with
  | none => simp
  | some value' => simp

theorem keyValue_eq_error_iff {field : String} {e : MissingKeyField} :
    s.keyValue m field = .error e ↔
      (¬∃ value, m.get? field = some value ∧ value ≠ .null) ∧ e = ⟨s.name, field⟩ := by
  simp only [← Instance.nonNull?_eq_some_iff]
  unfold keyValue
  cases m.nonNull? field with
  | none => simp [eq_comm]
  | some value => simp

/-- What a key misses is the first of its fields that the instance has no value for. -/
theorem keyInput_eq_error_iff {e : MissingKeyField} :
    s.keyInput m = .error e ↔
      ∃ field, s.FirstMissing (fun other => ∃ value, m.get? other = some value ∧ value ≠ .null)
        field ∧ e = ⟨s.name, field⟩ := by
  have hvalue (field : String) :
      (∃ entry, (do return (field, ← s.keyValue m field)) = Except.ok entry) ↔
        ∃ value, m.get? field = some value ∧ value ≠ .null := by
    simp [bind_eq_ok_iff, keyValue_eq_ok_iff, Instance.nonNull?_eq_some_iff, pure, Except.pure]
  rw [keyInput, bind_pure_eq_error_iff, mapM_eq_error_iff]
  simp only [bind_pure_eq_error_iff, hvalue, keyValue_eq_error_iff]
  constructor
  · rintro ⟨before, field, after, hsplit, hbefore, hfield, he⟩
    exact ⟨field, ⟨before, after, hsplit, hbefore, hfield⟩, he⟩
  · rintro ⟨field, ⟨before, after, hsplit, hbefore, hfield⟩, he⟩
    exact ⟨before, field, after, hsplit, hbefore, hfield, he⟩

/-- The key of an instance has the fields of the primary key, each once, with the values that the
instance has for them. -/
theorem keyInput_fields {key : OrderedMap Json} (h : s.keyInput m = .ok key) :
    key.keys = s.keyFields.eraseDups ∧
      ∀ field ∈ s.keyFields, ∃ value, m.nonNull? field = some value ∧
        key.get? field = some value := by
  obtain ⟨entries, hentries, hkey⟩ := bind_eq_ok_iff.1 h
  obtain rfl := Except.ok.inj hkey
  obtain ⟨hfields, hvalues⟩ : entries.map Prod.fst = s.keyFields ∧
      ∀ e ∈ entries, m.nonNull? e.1 = some e.2 := by
    refine map_eq_of_mapM_eq_ok (fun field e he => ?_) hentries
    obtain ⟨value, hvalue, he⟩ := bind_eq_ok_iff.1 he
    obtain rfl := Except.ok.inj he
    exact ⟨keyValue_eq_ok_iff.1 hvalue, rfl⟩
  refine ⟨?_, fun field hfield => ?_⟩
  · rw [OrderedMap.keys_ofList, hfields]
  · rw [← hfields, ← List.mem_reverse, ← List.map_reverse] at hfield
    obtain ⟨value, hvalue⟩ := lookup_eq_some_of_mem_map_fst hfield
    have hmem := List.mem_reverse.1 (mem_of_lookup_eq_some hvalue)
    exact ⟨value, hvalues _ hmem, by rw [OrderedMap.get?_ofList, hvalue]⟩

theorem addresses_keyInput {key : OrderedMap Json} (h : s.keyInput m = .ok key) :
    s.Addresses key := by
  intro field hfield
  obtain ⟨value, hvalue, hget⟩ := (keyInput_fields h).2 field hfield
  exact ⟨value, hget, (Instance.nonNull?_eq_some_iff.1 hvalue).2⟩

theorem updateInput_eq_ok_iff {input : OrderedMap Json} :
    s.updateInput m = .ok input ↔
      input = (s.createInput m).filterValues (fun value => !value.isNull) ∧
        ∀ field ∈ s.keyFields, field ∈ input.keys := by
  have hall {key : OrderedMap Json} :
      (s.keyFields.find? fun field => !key.contains field) = none ↔
        ∀ field ∈ s.keyFields, field ∈ key.keys := by
    simp only [List.find?_eq_none, Bool.not_eq_true', Bool.not_eq_false,
      OrderedMap.contains_iff_mem_keys]
  unfold updateInput
  cases hfind : s.keyFields.find? fun field =>
      !((s.createInput m).filterValues fun value => !value.isNull).contains field with
  | none =>
      simp only [hfind, Except.ok.injEq]
      exact ⟨fun h => ⟨h.symm, h ▸ hall.1 hfind⟩, fun h => h.1.symm⟩
  | some field =>
      simp only [hfind, reduceCtorEq, false_iff]
      rintro ⟨rfl, hkeys⟩
      rw [hall.2 hkeys] at hfind
      nomatch hfind

theorem updateInput_eq_error_iff {e : MissingKeyField} :
    s.updateInput m = .error e ↔
      ∃ field, s.FirstMissing
        (fun other => other ∈ ((s.createInput m).filterValues fun value => !value.isNull).keys)
        field ∧ e = ⟨s.name, field⟩ := by
  have hfind {key : OrderedMap Json} {field : String} :
      (s.keyFields.find? fun field => !key.contains field) = some field ↔
        s.FirstMissing (fun other => other ∈ key.keys) field := by
    simp only [List.find?_eq_some_iff_append, Bool.not_eq_true', Bool.not_not, FirstMissing,
      ← OrderedMap.contains_iff_mem_keys, Bool.not_eq_true]
    constructor
    · rintro ⟨hfield, before, after, hsplit, hbefore⟩
      exact ⟨before, after, hsplit, hbefore, hfield⟩
    · rintro ⟨before, after, hsplit, hbefore, hfield⟩
      exact ⟨hfield, before, after, hsplit, hbefore⟩
  unfold updateInput
  simp only [← hfind]
  cases s.keyFields.find? fun field =>
      !((s.createInput m).filterValues fun value => !value.isNull).contains field with
  | none => simp
  | some field => simp [eq_comm]

theorem addresses_updateInput {input : OrderedMap Json} (h : s.updateInput m = .ok input) :
    s.Addresses input := by
  obtain ⟨rfl, hkeys⟩ := updateInput_eq_ok_iff.1 h
  intro field hfield
  have hsome := (OrderedMap.mem_keys_iff_isSome_get? _ field).1 (hkeys field hfield)
  obtain ⟨value, hvalue⟩ := Option.isSome_iff_exists.1 hsome
  refine ⟨value, hvalue, ?_⟩
  rw [OrderedMap.get?_filterValues, Option.filter_eq_some_iff] at hvalue
  rintro rfl
  simp at hvalue

end Schema

end DataApi

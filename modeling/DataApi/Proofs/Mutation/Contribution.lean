import DataApi.Mutation
import DataApi.Proofs.OrderedMap.History

/-!
# Contributions that never replace a value by null

The contributions to the input of a mutation are written one after the other. A contribution puts
its name behind the names that are there, unless it is among them, and whatever it is, it never
takes a value away. So the input can be read off the list of contributions: its names stand in the
order in which they first occur, and under each of them is the last value that was contributed to
it, or `null` if none was.
-/

namespace DataApi

def valuesUnder (name : String) (entries : List (String × Json)) : List Json :=
  (entries.filter fun e => e.1 == name).map Prod.snd

def nonNulls (values : List Json) : List Json := values.filter fun value => !value.isNull

def lastValue (values : List Json) : Json := (nonNulls values).getLast?.getD .null

theorem valuesUnder_append (name : String) (l r : List (String × Json)) :
    valuesUnder name (l ++ r) = valuesUnder name l ++ valuesUnder name r := by
  simp [valuesUnder]

theorem valuesUnder_singleton_self (name : String) (value : Json) :
    valuesUnder name [(name, value)] = [value] := by
  simp [valuesUnder]

theorem valuesUnder_of_not_mem {name : String} {entries : List (String × Json)}
    (h : name ∉ entries.map Prod.fst) : valuesUnder name entries = [] := by
  rw [valuesUnder, List.map_eq_nil_iff, List.filter_eq_nil_iff]
  intro e he hname
  exact h (beq_iff_eq.1 hname ▸ List.mem_map_of_mem he)

theorem mem_valuesUnder_iff {name : String} {value : Json} {entries : List (String × Json)} :
    value ∈ valuesUnder name entries ↔ (name, value) ∈ entries := by
  simp [valuesUnder]

theorem valuesUnder_flatMap {α : Type} (name : String) (f : α → List (String × Json))
    (xs : List α) : valuesUnder name (xs.flatMap f) = xs.flatMap fun x => valuesUnder name (f x) := by
  simp only [valuesUnder, List.filter_flatMap, List.map_flatMap]

theorem nonNulls_flatMap {α : Type} (f : α → List Json) (xs : List α) :
    nonNulls (xs.flatMap f) = xs.flatMap fun x => nonNulls (f x) :=
  List.filter_flatMap

theorem nonNulls_getD_null (value? : Option Json) :
    nonNulls [value?.getD .null] = nonNulls value?.toList := by
  cases value? <;> rfl

theorem nonNulls_map_getD_null {α : Type} (f : α → Option Json) (xs : List α) :
    nonNulls (xs.map fun x => (f x).getD .null) = nonNulls (xs.flatMap fun x => (f x).toList) := by
  rw [List.map_eq_flatMap, nonNulls_flatMap, nonNulls_flatMap]
  simp only [nonNulls_getD_null]

theorem lastValue_append_singleton (values : List Json) (value : Json) :
    lastValue (values ++ [value]) = if value.isNull then lastValue values else value := by
  unfold lastValue nonNulls
  cases h : value.isNull <;> simp [h]

theorem lastValue_congr {l r : List Json} (h : nonNulls l = nonNulls r) :
    lastValue l = lastValue r := by
  rw [lastValue, lastValue, h]

theorem lastValue_of_forall_eq {values : List Json} {value : Json} (hvalue : value ≠ .null)
    (hne : values ≠ []) (h : ∀ other ∈ values, other = value) : lastValue values = value := by
  cases values using List.reverseRecOn with
  | nil => exact absurd rfl hne
  | append_singleton before last =>
      obtain rfl : last = value := h last (by simp)
      have hnull : last.isNull = false := by simpa [← Json.isNull_iff] using hvalue
      rw [lastValue_append_singleton, hnull]
      rfl

theorem lastValue_of_forall_null {values : List Json} (h : ∀ value ∈ values, value = .null) :
    lastValue values = .null := by
  have hnone : nonNulls values = [] := by
    rw [nonNulls, List.filter_eq_nil_iff]
    intro value hvalue
    rw [h value hvalue]
    decide
  rw [lastValue, hnone]
  rfl

theorem lastValue_ne_null_iff {values : List Json} :
    lastValue values ≠ .null ↔ ∃ value ∈ values, value ≠ .null := by
  constructor
  · intro hlast
    by_contra hnone
    push Not at hnone
    exact hlast (lastValue_of_forall_null hnone)
  · rintro ⟨value, hvalue, hne⟩
    have hmem : value ∈ nonNulls values := by
      rw [nonNulls, List.mem_filter]
      exact ⟨hvalue, by simpa [← Json.isNull_iff] using hne⟩
    obtain ⟨last, hlast⟩ := Option.ne_none_iff_exists'.1
      (mt List.getLast?_eq_none_iff.1 (List.ne_nil_of_mem hmem))
    have hnot := (List.mem_filter.1 (List.mem_of_getLast? hlast)).2
    rw [lastValue, hlast]
    simpa [← Json.isNull_iff] using hnot

theorem keys_contribute (input : OrderedMap Json) (name : String) (value : Json) :
    (contribute input name value).keys =
      if name ∈ input.keys then input.keys else input.keys ++ [name] := by
  unfold contribute
  split
  · next h =>
    rw [Bool.and_eq_true, OrderedMap.contains_iff_mem_keys] at h
    rw [if_pos h.2]
  · exact input.keys_insert name value

theorem get?_contribute (input : OrderedMap Json) (name other : String) (value : Json) :
    (contribute input name value).get? other =
      if other = name then some (if value.isNull then (input.get? name).getD .null else value)
      else input.get? other := by
  unfold contribute OrderedMap.contains
  by_cases hother : other = name
  · subst hother
    cases hnull : value.isNull with
    | false => simp
    | true =>
        cases hget : input.get? other with
        | some old => simp [hget]
        | none => simp [Json.isNull_iff.1 hnull]
  · rw [if_neg hother]
    split
    · rfl
    · exact input.get?_insert_ne value hother

def contributeAll (entries : List (String × Json)) : OrderedMap Json :=
  entries.foldl (fun input e => contribute input e.1 e.2) ∅

theorem contributeAll_append_singleton (entries : List (String × Json)) (e : String × Json) :
    contributeAll (entries ++ [e]) = contribute (contributeAll entries) e.1 e.2 := by
  rw [contributeAll, List.foldl_append]
  rfl

/-- The names stand in the order in which they are contributed to first. -/
theorem keys_contributeAll (entries : List (String × Json)) :
    (contributeAll entries).keys = (entries.map Prod.fst).eraseDups := by
  induction entries using List.reverseRecOn with
  | nil => rfl
  | append_singleton entries e ih =>
      rw [contributeAll_append_singleton, keys_contribute, ih, List.map_append, List.map_singleton,
        eraseDups_append_singleton]
      simp only [List.mem_eraseDups]

theorem mem_keys_contributeAll_iff {name : String} {entries : List (String × Json)} :
    name ∈ (contributeAll entries).keys ↔ name ∈ entries.map Prod.fst := by
  rw [keys_contributeAll, List.mem_eraseDups]

/-- Under a name is the last value that was contributed to it. -/
theorem get?_contributeAll (entries : List (String × Json)) (name : String) :
    (contributeAll entries).get? name =
      if name ∈ entries.map Prod.fst then some (lastValue (valuesUnder name entries)) else none := by
  induction entries using List.reverseRecOn with
  | nil => rfl
  | append_singleton entries e ih =>
      obtain ⟨other, value⟩ := e
      rw [contributeAll_append_singleton, get?_contribute, valuesUnder_append]
      by_cases hname : name = other
      · subst hname
        have hbefore : ((contributeAll entries).get? name).getD .null =
            lastValue (valuesUnder name entries) := by
          rw [ih]
          split
          · rfl
          · next hnot => rw [valuesUnder_of_not_mem hnot]; rfl
        rw [valuesUnder_singleton_self, lastValue_append_singleton, hbefore]
        simp
      · have hnone : valuesUnder name [(other, value)] = [] :=
          valuesUnder_of_not_mem (by simpa using hname)
        have hmem : name ∈ (entries ++ [(other, value)]).map Prod.fst ↔
            name ∈ entries.map Prod.fst := by
          simp [hname]
        rw [if_neg hname, ih, hnone, List.append_nil]
        simp only [hmem]

theorem mem_keys_filterValues_contributeAll_iff {name : String} {entries : List (String × Json)} :
    name ∈ ((contributeAll entries).filterValues fun value => !value.isNull).keys ↔
      ∃ value ∈ valuesUnder name entries, value ≠ .null := by
  rw [OrderedMap.mem_keys_iff_isSome_get?, OrderedMap.get?_filterValues, get?_contributeAll]
  split
  · rw [← lastValue_ne_null_iff]
    simp [Option.filter, ← Json.isNull_iff]
  · next hnot => simp [valuesUnder_of_not_mem hnot]

end DataApi

import DataApi.OrderedMap
import Mathlib.Data.List.Induction

/-!
# A map as the history of its writes

Writing the entries of a list one after the other gives a map that can be read off the list: the
keys stand in the order in which they first occur, and the value under a key is the one that was
written last. A map is determined by its keys in order together with its values, so this
description is complete. It follows that writing a list in two stages, first into a fresh map and
then from there, is the same as writing it at once.
-/

namespace DataApi

universe u v

theorem lookup_eq_none_of_not_mem {α : Type u} {key : String} {entries : List (String × α)}
    (h : key ∉ entries.map Prod.fst) : entries.lookup key = none := by
  rw [List.lookup_eq_none_iff]
  intro e he
  have hne : key ≠ e.1 := fun hk => h (hk ▸ List.mem_map_of_mem he)
  simpa using hne

theorem lookup_reverse_of_nodup {α : Type u} (key : String) :
    ∀ {entries : List (String × α)}, (entries.map Prod.fst).Nodup →
      entries.reverse.lookup key = entries.lookup key
  | [], _ => rfl
  | (k, v) :: rest, h => by
      rw [List.map_cons, List.nodup_cons] at h
      have ih := lookup_reverse_of_nodup key h.2
      rw [List.reverse_cons, List.lookup_append, ih]
      by_cases hk : key = k
      · have hnone := lookup_eq_none_of_not_mem h.1
        simp [hk, hnone]
      · have hne : (key == k) = false := by simpa using hk
        simp [List.lookup_cons, hne]

theorem lookup_eq_some_of_mem_map_fst {α : Type u} {key : String} {entries : List (String × α)}
    (h : key ∈ entries.map Prod.fst) : ∃ value, entries.lookup key = some value := by
  rw [← Option.isSome_iff_exists, ← Option.ne_none_iff_isSome, ne_eq, List.lookup_eq_none_iff]
  intro hall
  obtain ⟨e, he, rfl⟩ := List.mem_map.1 h
  simpa using hall e he

theorem lookup_reverse_append_of_not_mem {α : Type u} {key : String} {l r : List (String × α)}
    (h : key ∉ r.map Prod.fst) : (l ++ r).reverse.lookup key = l.reverse.lookup key := by
  have hr : r.reverse.lookup key = none := lookup_eq_none_of_not_mem (by simpa using h)
  rw [List.reverse_append, List.lookup_append, hr, Option.none_or]

theorem mem_of_lookup_eq_some {α : Type u} {key : String} {value : α}
    {entries : List (String × α)} (h : entries.lookup key = some value) :
    (key, value) ∈ entries := by
  obtain ⟨l, r, he, _⟩ := List.lookup_eq_some_iff.1 h
  simp [he]

theorem lookup_eq_some_of_mem {α : Type u} {key : String} {value : α} :
    ∀ {entries : List (String × α)}, (entries.map Prod.fst).Nodup → (key, value) ∈ entries →
      entries.lookup key = some value
  | [], _, he => by simp at he
  | (k, v) :: rest, h, he => by
      rw [List.map_cons, List.nodup_cons] at h
      rcases List.mem_cons.1 he with he | he
      · obtain ⟨rfl, rfl⟩ := Prod.mk.inj he
        simp
      · have hmem : key ∈ rest.map Prod.fst := List.mem_map_of_mem he
        have hk : key ≠ k := fun hk => h.1 (hk ▸ hmem)
        have hne : (key == k) = false := by simpa using hk
        rw [List.lookup_cons, hne]
        exact lookup_eq_some_of_mem h.2 he

theorem eraseDups_append_singleton (keys : List String) (key : String) :
    (keys ++ [key]).eraseDups =
      if key ∈ keys then keys.eraseDups else keys.eraseDups ++ [key] := by
  rw [List.eraseDups_append]
  split
  · next h => simp [List.removeAll, h]
  · next h => simp [List.removeAll, h, List.eraseDups_cons]

theorem eraseDups_of_nodup {keys : List String} (h : keys.Nodup) : keys.eraseDups = keys := by
  induction keys with
  | nil => rfl
  | cons key rest ih =>
      rw [List.nodup_cons] at h
      have hfilter : rest.filter (fun other => !other == key) = rest := by
        rw [List.filter_eq_self]
        intro other hother
        have hne : other ≠ key := fun he => h.1 (he ▸ hother)
        simpa using hne
      rw [List.eraseDups_cons, hfilter, ih h.2]

theorem eraseDups_append_eraseDups (keys others : List String) :
    (keys ++ others.eraseDups).eraseDups = (keys ++ others).eraseDups := by
  induction others using List.reverseRecOn with
  | nil => rfl
  | append_singleton others key ih =>
      rw [eraseDups_append_singleton, ← List.append_assoc, eraseDups_append_singleton]
      by_cases hk : key ∈ others
      · have hmem : key ∈ keys ++ others := List.mem_append_right _ hk
        rw [if_pos hk, if_pos hmem, ih]
      · rw [if_neg hk, ← List.append_assoc, eraseDups_append_singleton, ih]
        simp [hk]

theorem eraseDups_append_of_subset {keys others : List String} (h : others ⊆ keys) :
    (keys ++ others).eraseDups = keys.eraseDups := by
  induction others using List.reverseRecOn with
  | nil => rw [List.append_nil]
  | append_singleton others key ih =>
      rw [List.append_subset] at h
      have hmem : key ∈ keys ++ others := List.mem_append_left _ (h.2 List.mem_cons_self)
      rw [← List.append_assoc, eraseDups_append_singleton, if_pos hmem, ih h.1]

theorem findSome?_eraseDups {α : Type} (keys : List String) (g : String → Option α) :
    keys.eraseDups.findSome? g = keys.findSome? g := by
  induction keys using List.reverseRecOn with
  | nil => rfl
  | append_singleton keys key ih =>
      rw [eraseDups_append_singleton, List.findSome?_append]
      split
      · next hkey =>
        rw [ih]
        cases hfound : keys.findSome? g with
        | none => simp [List.findSome?_eq_none_iff.1 hfound key hkey]
        | some a => rfl
      · rw [List.findSome?_append, ih]

theorem entries_ext {α : Type u} :
    ∀ {l r : List (String × α)}, (l.map Prod.fst).Nodup → l.map Prod.fst = r.map Prod.fst →
      (∀ key, l.lookup key = r.lookup key) → l = r
  | [], [], _, _, _ => rfl
  | [], _ :: _, _, hk, _ => by simp at hk
  | _ :: _, [], _, hk, _ => by simp at hk
  | (k, v) :: l, (k', w) :: r, hn, hk, hv => by
      rw [List.map_cons, List.nodup_cons] at hn
      rw [List.map_cons, List.map_cons, List.cons.injEq] at hk
      obtain ⟨rfl, hkeys⟩ := hk
      have hhead := hv k
      rw [List.lookup_cons_self, List.lookup_cons_self] at hhead
      have htail (key : String) : l.lookup key = r.lookup key := by
        by_cases hkey : key = k
        · have hr : k ∉ r.map Prod.fst := hkeys ▸ hn.1
          rw [hkey, lookup_eq_none_of_not_mem hn.1, lookup_eq_none_of_not_mem hr]
        · have hne : (key == k) = false := by simpa using hkey
          have hboth := hv key
          rwa [List.lookup_cons, List.lookup_cons, hne] at hboth
      rw [Option.some.inj hhead, entries_ext hn.2 hkeys htail]

namespace OrderedMap

variable {α : Type u} {β : Type v}

theorem ext_of_keys_of_get? {m n : OrderedMap α} (hkeys : m.keys = n.keys)
    (hget : ∀ key, m.get? key = n.get? key) : m = n :=
  OrderedMap.ext (entries_ext m.nodup hkeys hget)

theorem mem_entries_iff {m : OrderedMap α} {key : String} {value : α} :
    (key, value) ∈ m.entries ↔ m.get? key = some value :=
  ⟨lookup_eq_some_of_mem m.nodup, mem_of_lookup_eq_some⟩

theorem get?_filterValues (test : α → Bool) (m : OrderedMap α) (key : String) :
    (m.filterValues test).get? key = (m.get? key).filter test := by
  ext value
  rw [← mem_entries_iff, Option.filter_eq_some_iff, ← mem_entries_iff]
  exact List.mem_filter

theorem insertAll_append_singleton (m : OrderedMap α) (es : List (String × α))
    (e : String × α) : m.insertAll (es ++ [e]) = (m.insertAll es).insert e.1 e.2 := by
  rw [insertAll_append, insertAll_cons, insertAll_nil]

theorem ofList_append (es fs : List (String × α)) :
    ofList (es ++ fs) = (ofList es).insertAll fs :=
  insertAll_append empty es fs

theorem keys_insertAll (m : OrderedMap α) (es : List (String × α)) :
    (m.insertAll es).keys = (m.keys ++ es.map Prod.fst).eraseDups := by
  induction es using List.reverseRecOn with
  | nil => simp [eraseDups_of_nodup m.nodup_keys]
  | append_singleton es e ih =>
      rw [insertAll_append_singleton, keys_insert, ih, List.map_append, List.map_singleton,
        ← List.append_assoc, eraseDups_append_singleton]
      simp only [List.mem_eraseDups]

theorem get?_insertAll (m : OrderedMap α) (es : List (String × α)) (key : String) :
    (m.insertAll es).get? key = (es.reverse.lookup key).or (m.get? key) := by
  induction es using List.reverseRecOn with
  | nil => simp
  | append_singleton es e ih =>
      obtain ⟨k, v⟩ := e
      rw [insertAll_append_singleton, get?_insert, ih, List.reverse_append]
      by_cases hk : key = k
      · simp [hk]
      · have hne : (key == k) = false := by simpa using hk
        simp [hk, List.lookup_cons, hne]

theorem get?_insertAll_congr {m n : OrderedMap α} (h : ∀ key, m.get? key = n.get? key)
    (es : List (String × α)) (key : String) :
    (m.insertAll es).get? key = (n.insertAll es).get? key := by
  rw [get?_insertAll, get?_insertAll, h]

/-- Of two lists that write to different keys either may be written first. -/
theorem get?_insertAll_comm (m : OrderedMap α) {es fs : List (String × α)}
    (h : (es.map Prod.fst).Disjoint (fs.map Prod.fst)) (key : String) :
    ((m.insertAll es).insertAll fs).get? key = ((m.insertAll fs).insertAll es).get? key := by
  simp only [get?_insertAll]
  by_cases hkey : key ∈ es.map Prod.fst
  · have hnone : fs.reverse.lookup key = none :=
      lookup_eq_none_of_not_mem (by simpa using h hkey)
    rw [hnone, Option.none_or, Option.none_or]
  · have hnone : es.reverse.lookup key = none :=
      lookup_eq_none_of_not_mem (by simpa using hkey)
    rw [hnone, Option.none_or, Option.none_or]

/-- Writing a list hides a list with the same keys that was written before. -/
theorem insertAll_insertAll_of_keys (m : OrderedMap α) {es fs : List (String × α)}
    (h : es.map Prod.fst = fs.map Prod.fst) : (m.insertAll es).insertAll fs = m.insertAll fs := by
  apply ext_of_keys_of_get?
  · have hsub : fs.map Prod.fst ⊆ m.keys ++ fs.map Prod.fst := List.subset_append_right _ _
    rw [← insertAll_append, keys_insertAll, keys_insertAll, List.map_append, h,
      ← List.append_assoc, eraseDups_append_of_subset hsub]
  · intro key
    rw [get?_insertAll, get?_insertAll, get?_insertAll]
    by_cases hkey : key ∈ fs.map Prod.fst
    · have hmem : key ∈ fs.reverse.map Prod.fst := by simpa using hkey
      obtain ⟨value, hvalue⟩ := lookup_eq_some_of_mem_map_fst hmem
      rw [hvalue, Option.some_or, Option.some_or]
    · have hnone : es.reverse.lookup key = none :=
        lookup_eq_none_of_not_mem (by simpa [h] using hkey)
      rw [hnone, Option.none_or]

theorem insertAll_of_forall_get?_eq {m : OrderedMap α} {es : List (String × α)}
    (h : ∀ e ∈ es, m.get? e.1 = some e.2) : m.insertAll es = m := by
  apply ext_of_keys_of_get?
  · have hsub : es.map Prod.fst ⊆ m.keys := by
      intro key hkey
      obtain ⟨e, he, rfl⟩ := List.mem_map.1 hkey
      rw [mem_keys_iff_isSome_get?, h e he]
      rfl
    rw [keys_insertAll, eraseDups_append_of_subset hsub, eraseDups_of_nodup m.nodup_keys]
  · intro key
    rw [get?_insertAll]
    cases hlast : es.reverse.lookup key with
    | none => rw [Option.none_or]
    | some value =>
        rw [h _ (List.mem_reverse.1 (mem_of_lookup_eq_some hlast)), Option.some_or]

theorem keys_ofList (es : List (String × α)) :
    (ofList es).keys = (es.map Prod.fst).eraseDups :=
  keys_insertAll empty es

theorem get?_ofList (es : List (String × α)) (key : String) :
    (ofList es).get? key = es.reverse.lookup key := by
  rw [ofList, get?_insertAll]
  exact Option.or_none

theorem keys_insertAll_entries (m n : OrderedMap α) :
    (m.insertAll n.entries).keys = m.keys ++ n.keys.filter fun key => key ∉ m.keys := by
  have hnew : (n.keys.filter fun key => key ∉ m.keys).Nodup :=
    List.filter_sublist.nodup n.nodup_keys
  have hremove : n.keys.removeAll m.keys = n.keys.filter fun key => key ∉ m.keys := by
    simp [List.removeAll]
  rw [keys_insertAll]
  change (m.keys ++ n.keys).eraseDups = _
  rw [List.eraseDups_append, eraseDups_of_nodup m.nodup_keys, hremove, eraseDups_of_nodup hnew]

theorem get?_insertAll_entries (m n : OrderedMap α) (key : String) :
    (m.insertAll n.entries).get? key = (n.get? key).or (m.get? key) := by
  rw [get?_insertAll, lookup_reverse_of_nodup key n.nodup]
  rfl

/-- Collecting a list in a fresh map first changes nothing. -/
theorem insertAll_entries_ofList (m : OrderedMap α) (es : List (String × α)) :
    m.insertAll (ofList es).entries = m.insertAll es := by
  apply ext_of_keys_of_get?
  · rw [keys_insertAll, keys_insertAll]
    change (m.keys ++ (ofList es).keys).eraseDups = _
    rw [keys_ofList, eraseDups_append_eraseDups]
  · intro key
    rw [get?_insertAll_entries, get?_insertAll, get?_ofList]

theorem map_insert (f : α → β) (m : OrderedMap α) (key : String) (value : α) :
    (m.insert key value).map f = (m.map f).insert key (f value) := by
  apply OrderedMap.ext
  change (insertEntry key value m.entries).map (fun e => (e.1, f e.2)) =
    insertEntry key (f value) (m.entries.map fun e => (e.1, f e.2))
  induction m.entries with
  | nil => rfl
  | cons e rest ih =>
      by_cases hk : e.1 = key
      · simp [insertEntry_cons, hk]
      · simp [insertEntry_cons, hk, ih]

theorem map_insertAll (f : α → β) (m : OrderedMap α) (es : List (String × α)) :
    (m.insertAll es).map f = (m.map f).insertAll (es.map fun e => (e.1, f e.2)) := by
  induction es generalizing m with
  | nil => rfl
  | cons e rest ih => rw [insertAll_cons, ih, map_insert, List.map_cons, insertAll_cons]

theorem map_ofList (f : α → β) (es : List (String × α)) :
    (ofList es).map f = ofList (es.map fun e => (e.1, f e.2)) :=
  map_insertAll f empty es

end OrderedMap

end DataApi

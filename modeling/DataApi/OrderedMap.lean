/-!
# Maps that keep the order of insertion

The entries of an `OrderedMap` are listed in the order in which their keys first came in, and no
key is listed twice. Writing to a key that is present replaces the value where it stands; writing
to a new key puts the entry at the end. `insertEntry` is that step on the bare list of entries,
and the map carries along the fact that the keys stay distinct. The view of a map is the pair of
`keys` and `get?`: two maps with the same entries are the same map.
-/

namespace DataApi

universe u v

/-- Writes `value` under `key`: in place of the present entry, or as a new last entry. -/
def insertEntry {α : Type u} (key : String) (value : α) : List (String × α) → List (String × α)
  | [] => [(key, value)]
  | (k, v) :: rest => if k = key then (key, value) :: rest else (k, v) :: insertEntry key value rest

@[simp] theorem insertEntry_nil {α : Type u} (key : String) (value : α) :
    insertEntry key value [] = [(key, value)] := rfl

theorem insertEntry_cons {α : Type u} (key : String) (value : α) (e : String × α)
    (rest : List (String × α)) :
    insertEntry key value (e :: rest) =
      if e.1 = key then (key, value) :: rest else e :: insertEntry key value rest := rfl

theorem insertEntry_of_not_mem {α : Type u} {key : String} (value : α) :
    ∀ {entries : List (String × α)}, key ∉ entries.map Prod.fst →
      insertEntry key value entries = entries ++ [(key, value)]
  | [], _ => rfl
  | e :: rest, h => by
      simp only [List.map_cons, List.mem_cons, not_or] at h
      rw [insertEntry_cons, if_neg (Ne.symm h.1), insertEntry_of_not_mem value h.2]
      rfl

theorem map_fst_insertEntry_of_mem {α : Type u} {key : String} (value : α) :
    ∀ {entries : List (String × α)}, key ∈ entries.map Prod.fst →
      (insertEntry key value entries).map Prod.fst = entries.map Prod.fst
  | [], h => by simp at h
  | e :: rest, h => by
      by_cases hk : e.1 = key
      · simp [insertEntry_cons, hk]
      · have hr : key ∈ rest.map Prod.fst := by
          rcases List.mem_cons.1 h with h | h
          · exact absurd h.symm hk
          · exact h
        simp [insertEntry_cons, hk, map_fst_insertEntry_of_mem value hr]

/-- The keys after a write: the old ones, and the new key behind them when it was absent. -/
theorem map_fst_insertEntry {α : Type u} (key : String) (value : α) (entries : List (String × α)) :
    (insertEntry key value entries).map Prod.fst =
      if key ∈ entries.map Prod.fst then entries.map Prod.fst
      else entries.map Prod.fst ++ [key] := by
  split
  · next h => exact map_fst_insertEntry_of_mem value h
  · next h => simp [insertEntry_of_not_mem value h]

theorem nodup_insertEntry {α : Type u} (key : String) (value : α) {entries : List (String × α)}
    (h : (entries.map Prod.fst).Nodup) : ((insertEntry key value entries).map Prod.fst).Nodup := by
  rw [map_fst_insertEntry]
  split
  · exact h
  · next hk =>
    refine List.nodup_append.2 ⟨h, by simp, ?_⟩
    intro a ha b hb hab
    rw [List.mem_singleton] at hb
    exact hk (hb ▸ hab ▸ ha)

theorem lookup_insertEntry_self {α : Type u} (key : String) (value : α) :
    ∀ entries : List (String × α), (insertEntry key value entries).lookup key = some value
  | [] => by simp
  | (k, v) :: rest => by
      by_cases hk : k = key
      · simp [insertEntry_cons, hk]
      · have : (key == k) = false := by simpa using Ne.symm hk
        simp [insertEntry_cons, hk, List.lookup_cons, this, lookup_insertEntry_self key value rest]

theorem lookup_insertEntry_ne {α : Type u} {key other : String} (value : α) (h : other ≠ key) :
    ∀ entries : List (String × α), (insertEntry key value entries).lookup other = entries.lookup other
  | [] => by
      have : (other == key) = false := by simpa using h
      simp [List.lookup_cons, this]
  | (k, v) :: rest => by
      by_cases hk : k = key
      · have : (other == key) = false := by simpa using h
        simp [insertEntry_cons, hk, List.lookup_cons, this]
      · simp only [insertEntry_cons, if_neg hk, List.lookup_cons,
          lookup_insertEntry_ne value h rest]

/-- Finitely many values under distinct keys, in the order in which the keys first came in. -/
@[ext] structure OrderedMap (α : Type u) where
  entries : List (String × α)
  nodup : (entries.map Prod.fst).Nodup
  deriving DecidableEq

namespace OrderedMap

variable {α : Type u} {β : Type v}

def empty : OrderedMap α := ⟨[], by simp⟩

instance : EmptyCollection (OrderedMap α) := ⟨empty⟩

instance : Inhabited (OrderedMap α) := ⟨∅⟩

def keys (m : OrderedMap α) : List String := m.entries.map Prod.fst

def values (m : OrderedMap α) : List α := m.entries.map Prod.snd

def size (m : OrderedMap α) : Nat := m.entries.length

def isEmpty (m : OrderedMap α) : Bool := m.entries.isEmpty

def get? (m : OrderedMap α) (key : String) : Option α := m.entries.lookup key

def contains (m : OrderedMap α) (key : String) : Bool := (m.get? key).isSome

/-- Writes `value` under `key`; a present key keeps its position. -/
def insert (m : OrderedMap α) (key : String) (value : α) : OrderedMap α :=
  ⟨insertEntry key value m.entries, nodup_insertEntry key value m.nodup⟩

def insertAll (m : OrderedMap α) : List (String × α) → OrderedMap α
  | [] => m
  | e :: rest => (m.insert e.1 e.2).insertAll rest

/-- The map of a list of entries: of several entries for one key, the first gives its position
and the last its value. -/
def ofList (entries : List (String × α)) : OrderedMap α := empty.insertAll entries

def map (f : α → β) (m : OrderedMap α) : OrderedMap β :=
  ⟨m.entries.map fun e => (e.1, f e.2), by
    rw [List.map_map]; exact m.nodup⟩

def filterValues (test : α → Bool) (m : OrderedMap α) : OrderedMap α :=
  ⟨m.entries.filter fun e => test e.2, (List.filter_sublist.map Prod.fst).nodup m.nodup⟩

/-- Whether two maps hold related values under the same keys, whatever the order of the keys. -/
def sameBy (related : α → α → Bool) (m n : OrderedMap α) : Bool :=
  m.size == n.size &&
    m.entries.all fun e => match n.get? e.1 with
      | some value => related e.2 value
      | none => false

@[simp] theorem entries_empty : (∅ : OrderedMap α).entries = [] := rfl

@[simp] theorem keys_empty : (∅ : OrderedMap α).keys = [] := rfl

@[simp] theorem get?_empty (key : String) : (∅ : OrderedMap α).get? key = none := rfl

@[simp] theorem insertAll_nil (m : OrderedMap α) : m.insertAll [] = m := rfl

theorem insertAll_cons (m : OrderedMap α) (e : String × α) (rest : List (String × α)) :
    m.insertAll (e :: rest) = (m.insert e.1 e.2).insertAll rest := rfl

theorem insertAll_append (m : OrderedMap α) (xs ys : List (String × α)) :
    m.insertAll (xs ++ ys) = (m.insertAll xs).insertAll ys := by
  induction xs generalizing m with
  | nil => rfl
  | cons e rest ih => simp [insertAll_cons, ih]

theorem nodup_keys (m : OrderedMap α) : m.keys.Nodup := m.nodup

theorem mem_keys_iff_isSome_get? (m : OrderedMap α) (key : String) :
    key ∈ m.keys ↔ (m.get? key).isSome := by
  unfold keys get?
  induction m.entries with
  | nil => simp
  | cons e rest ih =>
      obtain ⟨k, v⟩ := e
      by_cases h : key = k
      · simp [h]
      · have : (key == k) = false := by simpa using h
        simp [List.lookup_cons, h, this, ih]

theorem contains_iff_mem_keys (m : OrderedMap α) (key : String) :
    m.contains key = true ↔ key ∈ m.keys :=
  (m.mem_keys_iff_isSome_get? key).symm

/-- The keys after a write: the old ones, and the new key behind them when it was absent. -/
theorem keys_insert (m : OrderedMap α) (key : String) (value : α) :
    (m.insert key value).keys = if key ∈ m.keys then m.keys else m.keys ++ [key] :=
  map_fst_insertEntry key value m.entries

@[simp] theorem get?_insert_self (m : OrderedMap α) (key : String) (value : α) :
    (m.insert key value).get? key = some value :=
  lookup_insertEntry_self key value m.entries

theorem get?_insert_ne (m : OrderedMap α) {key other : String} (value : α) (h : other ≠ key) :
    (m.insert key value).get? other = m.get? other :=
  lookup_insertEntry_ne value h m.entries

theorem get?_insert (m : OrderedMap α) (key other : String) (value : α) :
    (m.insert key value).get? other = if other = key then some value else m.get? other := by
  split
  · next h => rw [h, get?_insert_self]
  · next h => exact get?_insert_ne m value h

@[simp] theorem keys_map (f : α → β) (m : OrderedMap α) : (m.map f).keys = m.keys := by
  simp [keys, map]

@[simp] theorem get?_map (f : α → β) (m : OrderedMap α) (key : String) :
    (m.map f).get? key = (m.get? key).map f := by
  change (m.entries.map fun e => (e.1, f e.2)).lookup key = (m.entries.lookup key).map f
  induction m.entries with
  | nil => rfl
  | cons e rest ih =>
      obtain ⟨k, v⟩ := e
      by_cases h : key = k
      · simp [h]
      · have : (key == k) = false := by simpa using h
        simp [List.lookup_cons, this, ih]

end OrderedMap

end DataApi

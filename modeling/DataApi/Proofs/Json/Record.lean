import DataApi.Json.Decode
import DataApi.Proofs.Fallible

/-!
# Records and the layout of their objects

A record is *placed* when each of its names stands for a part of the draft: an entry fills the part
of its name, whatever the draft holds, an entry under another name changes nothing, and parts that
have different names are filled independently. The entries of an object then fill the draft in any
order, so that the record reads the same value from every object that has the entries, in another
order, among entries under other names, and with other values that the record takes for the same.
-/

namespace DataApi

def SameEntry (member : String → Json → Json → Prop) (e f : String × Json) : Prop :=
  e.1 = f.1 ∧ member e.1 e.2 f.2

/-- The entries `fs` of an object are the entries `es` of another in a different layout: no key
comes twice, the entries `es` are there in any order, each with a related value, and what is added
stands under keys outside of `names`. -/
structure RelaidEntries (names : List String) (member : String → Json → Json → Prop)
    (es fs : List (String × Json)) : Prop where
  nodup : (fs.map Prod.fst).Nodup
  exists_perm : ∃ added kept, fs.Perm (added ++ kept) ∧ (∀ e ∈ added, e.1 ∉ names) ∧
    List.Forall₂ (SameEntry member) es kept

namespace Record

variable {δ α : Type} {r : Record δ α} {member : String → Json → Json → Prop}

/-- The layouts of a JSON value from which a record reads: the object has other entries as far as
`RelaidEntries` goes, and a list of the members has them in their positions, with related values. -/
inductive Relaid (r : Record δ α) (member : String → Json → Json → Prop) : Json → Json → Prop
  | object {es fs : List (String × Json)} (h : RelaidEntries r.names member es fs) :
      Relaid r member (.object es) (.object fs)
  | list {items others : List Json} (hlength : items.length = others.length)
      (h : List.Forall₂ (SameEntry member) (r.names.zip items) (r.names.zip others)) :
      Relaid r member (.list items) (.list others)

def Respects (r : Record δ α) (member : String → Json → Json → Prop) : Prop :=
  ∀ {e f : String × Json}, SameEntry member e f → ∀ {d d' : δ}, r.add d e = .ok d' →
    r.add d f = .ok d'

theorem respects_eq (r : Record δ α) : r.Respects fun _ => Eq := by
  rintro ⟨_, _⟩ ⟨_, _⟩ ⟨rfl, rfl⟩ d d' h
  exact h

/-- Each name of the record stands for a part of the draft; `put name new d` is the draft `d` with
that part of `new`. -/
structure Placed (r : Record δ α) (put : String → δ → δ → δ) : Prop where
  add_of_not_mem : ∀ {name}, name ∉ r.names → ∀ d j, r.add d (name, j) = .ok d
  add_of_mem : ∀ {name}, name ∈ r.names → ∀ d j,
    r.add d (name, j) = (r.add r.blank (name, j)).map fun new => put name new d
  put_comm : ∀ {name other}, name ≠ other → ∀ new next d,
    put name new (put other next d) = put other next (put name new d)

variable {put : String → δ → δ → δ}

theorem Placed.add_swap (hr : r.Placed put) {e f : String × Json} (hne : e.1 ≠ f.1) {d d₁ d₂ : δ}
    (he : r.add d e = .ok d₁) (hf : r.add d₁ f = .ok d₂) :
    ∃ d', r.add d f = .ok d' ∧ r.add d' e = .ok d₂ := by
  obtain ⟨name, j⟩ := e
  obtain ⟨other, k⟩ := f
  by_cases hname : name ∈ r.names
  case neg =>
    obtain rfl : d = d₁ := Except.ok.inj ((hr.add_of_not_mem hname d j).symm.trans he)
    exact ⟨d₂, hf, hr.add_of_not_mem hname d₂ j⟩
  by_cases hother : other ∈ r.names
  case neg =>
    obtain rfl : d₁ = d₂ := Except.ok.inj ((hr.add_of_not_mem hother d₁ k).symm.trans hf)
    exact ⟨d, hr.add_of_not_mem hother d k, he⟩
  rw [hr.add_of_mem hname] at he
  rw [hr.add_of_mem hother] at hf
  obtain ⟨new, hnew, rfl⟩ := map_eq_ok_iff.1 he
  obtain ⟨next, hnext, rfl⟩ := map_eq_ok_iff.1 hf
  refine ⟨put other next d, ?_, ?_⟩
  · rw [hr.add_of_mem hother, hnext, Except.map]
  · rw [hr.add_of_mem hname, hnew, Except.map, hr.put_comm hne.symm]

/-- Entries under different keys fill the draft in any order. -/
theorem Placed.foldlM_of_perm (hr : r.Placed put) {es fs : List (String × Json)}
    (hperm : es.Perm fs) (hnodup : (es.map Prod.fst).Nodup) {d d' : δ}
    (h : es.foldlM r.add d = .ok d') : fs.foldlM r.add d = .ok d' := by
  induction hperm generalizing d with
  | nil => exact h
  | cons e _ ih =>
      obtain ⟨d₁, he, h⟩ := foldlM_cons_eq_ok_iff.1 h
      exact foldlM_cons_eq_ok_iff.2 ⟨d₁, he, ih (List.nodup_cons.1 hnodup).2 h⟩
  | swap e f es =>
      obtain ⟨d₁, hf, h⟩ := foldlM_cons_eq_ok_iff.1 h
      obtain ⟨d₂, he, h⟩ := foldlM_cons_eq_ok_iff.1 h
      have hne : f.1 ≠ e.1 := fun hkey =>
        (List.nodup_cons.1 hnodup).1 (hkey ▸ List.mem_cons_self)
      obtain ⟨d₃, he', hf'⟩ := hr.add_swap hne hf he
      exact foldlM_cons_eq_ok_iff.2 ⟨d₃, he', foldlM_cons_eq_ok_iff.2 ⟨d₂, hf', h⟩⟩
  | trans hfirst _ ih₁ ih₂ =>
      exact ih₂ ((hfirst.map Prod.fst).nodup_iff.1 hnodup) (ih₁ hnodup h)

theorem Placed.foldlM_of_forall_not_mem (hr : r.Placed put) {es : List (String × Json)}
    (hes : ∀ e ∈ es, e.1 ∉ r.names) (d : δ) : es.foldlM r.add d = .ok d := by
  induction es with
  | nil => rfl
  | cons e es ih =>
      rw [List.forall_mem_cons] at hes
      exact foldlM_cons_eq_ok_iff.2 ⟨d, hr.add_of_not_mem hes.1 d e.2, ih hes.2⟩

theorem Respects.foldlM (hm : r.Respects member) {es fs : List (String × Json)}
    (hsame : List.Forall₂ (SameEntry member) es fs) {d d' : δ}
    (h : es.foldlM r.add d = .ok d') : fs.foldlM r.add d = .ok d' := by
  induction hsame generalizing d with
  | nil => exact h
  | cons hef _ ih =>
      obtain ⟨d₁, he, h⟩ := foldlM_cons_eq_ok_iff.1 h
      exact foldlM_cons_eq_ok_iff.2 ⟨d₁, hm hef he, ih h⟩

theorem Placed.foldlM_of_relaid (hr : r.Placed put) (hm : r.Respects member)
    {es fs : List (String × Json)} (hrelaid : RelaidEntries r.names member es fs) {d d' : δ}
    (h : es.foldlM r.add d = .ok d') : fs.foldlM r.add d = .ok d' := by
  obtain ⟨hnodup, added, kept, hperm, hadded, hkept⟩ := hrelaid
  have hfold : (added ++ kept).foldlM r.add d = .ok d' := by
    rw [List.foldlM_append, hr.foldlM_of_forall_not_mem hadded d, ok_bind]
    exact hm.foldlM hkept h
  exact hr.foldlM_of_perm hperm.symm ((hperm.map Prod.fst).nodup_iff.1 hnodup) hfold

theorem Placed.ofEntries_of_relaid (hr : r.Placed put) (hm : r.Respects member)
    {es fs : List (String × Json)} (hrelaid : RelaidEntries r.names member es fs) {a : α}
    (h : r.ofEntries es = .ok a) : r.ofEntries fs = .ok a := by
  obtain ⟨d, hd, ha⟩ := bind_eq_ok_iff.1 h
  exact bind_eq_ok_iff.2 ⟨d, hr.foldlM_of_relaid hm hrelaid hd, ha⟩

theorem Respects.ofItems (hm : r.Respects member) {items others : List Json}
    (hlength : items.length = others.length)
    (hsame : List.Forall₂ (SameEntry member) (r.names.zip items) (r.names.zip others)) {a : α}
    (h : r.ofItems items = .ok a) : r.ofItems others = .ok a := by
  obtain ⟨d, hd, ha⟩ := bind_eq_ok_iff.1 h
  rw [hlength] at ha
  exact bind_eq_ok_iff.2 ⟨d, hm.foldlM hsame hd, ha⟩

theorem Placed.ofJson_of_relaid (hr : r.Placed put) (hm : r.Respects member) {j k : Json}
    (hrelaid : r.Relaid member j k) {a : α} (h : r.ofJson j = .ok a) : r.ofJson k = .ok a := by
  cases hrelaid with
  | object hentries => exact hr.ofEntries_of_relaid hm hentries h
  | list hlength hitems => exact hm.ofItems hlength hitems h

end Record

end DataApi

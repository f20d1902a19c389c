import DataApi.Naming

/-!
# Braces in a text

`openBraces` counts how many braces a text opens and does not close, so it may be negative. A text
is `Balanced` when it closes what it opens and, read from the left, never closes more than it has
opened. A text is `Inline` when it holds neither braces nor line breaks, which leaves both the count
and the lines of a text alone. Putting an inline name in pascal case does not bring in any of them.
-/

namespace DataApi

/-- The number of braces that a text opens, less the number of those that it closes. -/
def openBraces (text : List Char) : Int := text.count '\x7b' - text.count '\x7d'

@[simp] theorem openBraces_nil : openBraces [] = 0 := rfl

@[simp] theorem openBraces_append (a b : List Char) :
    openBraces (a ++ b) = openBraces a + openBraces b := by
  simp only [openBraces, List.count_append]
  omega

theorem openBraces_cons_open (text : List Char) :
    openBraces ('\x7b' :: text) = openBraces text + 1 := by
  simp only [openBraces, List.count_cons]
  simp
  omega

def Unbraced (text : List Char) : Prop := ∀ c ∈ text, c ≠ '\x7b' ∧ c ≠ '\x7d'

/-- Neither a brace nor a line break. -/
def Inline (text : List Char) : Prop := ∀ c ∈ text, c ≠ '\n' ∧ c ≠ '\x7b' ∧ c ≠ '\x7d'

instance : DecidablePred Unbraced := List.decidableBAll fun c => c ≠ '\x7b' ∧ c ≠ '\x7d'

instance : DecidablePred Inline :=
  List.decidableBAll fun c => c ≠ '\n' ∧ c ≠ '\x7b' ∧ c ≠ '\x7d'

theorem Unbraced.append {a b : List Char} (ha : Unbraced a) (hb : Unbraced b) : Unbraced (a ++ b) :=
  List.forall_mem_append.2 ⟨ha, hb⟩

theorem unbraced_blanks (n : Nat) : Unbraced (List.replicate n ' ') := by
  intro c hc
  obtain rfl := List.eq_of_mem_replicate hc
  decide

theorem Unbraced.openBraces_eq_zero {text : List Char} (h : Unbraced text) :
    openBraces text = 0 := by
  have hopen : '\x7b' ∉ text := fun hmem => (h _ hmem).1 rfl
  have hclose : '\x7d' ∉ text := fun hmem => (h _ hmem).2 rfl
  rw [openBraces, List.count_eq_zero.2 hopen, List.count_eq_zero.2 hclose]
  rfl

namespace Inline

theorem unbraced {text : List Char} (h : Inline text) : Unbraced text := fun c hc => (h c hc).2

theorem newline_not_mem {text : List Char} (h : Inline text) : '\n' ∉ text :=
  fun hmem => (h _ hmem).1 rfl

theorem append {a b : List Char} (ha : Inline a) (hb : Inline b) : Inline (a ++ b) :=
  List.forall_mem_append.2 ⟨ha, hb⟩

theorem intercalate {sep : List Char} (hsep : Inline sep) :
    ∀ {items : List (List Char)}, (∀ item ∈ items, Inline item) → Inline (sep.intercalate items)
  | [], _ => nofun
  | [item], h => by
      rw [List.intercalate_singleton]
      exact h item List.mem_cons_self
  | item :: next :: items, h => by
      have ih := hsep.intercalate fun other hother => h other (List.mem_cons_of_mem item hother)
      rw [List.intercalate_cons_cons]
      exact ((h item List.mem_cons_self).append hsep).append ih

end Inline

/-- All braces that are opened are closed, and none is closed before it is opened. -/
def Balanced (text : List Char) : Prop :=
  openBraces text = 0 ∧ ∀ before after, text = before ++ after → 0 ≤ openBraces before

theorem Unbraced.balanced {text : List Char} (h : Unbraced text) : Balanced text := by
  refine ⟨h.openBraces_eq_zero, fun before after hsplit => ?_⟩
  have hbefore : Unbraced before := fun c hc => h c (hsplit ▸ List.mem_append_left after hc)
  exact Int.le_of_eq hbefore.openBraces_eq_zero.symm

namespace Balanced

theorem nil : Balanced [] := Unbraced.balanced nofun

theorem append {a b : List Char} (ha : Balanced a) (hb : Balanced b) : Balanced (a ++ b) := by
  refine ⟨by rw [openBraces_append, ha.1, hb.1]; rfl, fun before after hsplit => ?_⟩
  rcases List.append_eq_append_iff.1 hsplit with ⟨more, rfl, hb'⟩ | ⟨more, ha', _⟩
  · rw [openBraces_append, ha.1, Int.zero_add]
    exact hb.2 more after hb'
  · exact ha.2 before more ha'

theorem openBraces_before_close {text before after : List Char} (h : Balanced text)
    (hsplit : text ++ ['\x7d'] = before ++ after) :
    0 ≤ openBraces before ∧ after ≠ [] ∨ openBraces before = -1 ∧ after = [] := by
  rcases List.append_eq_append_iff.1 hsplit with ⟨more, rfl, hclose⟩ | ⟨more, htext, rfl⟩
  · rw [openBraces_append, h.1]
    cases more with
    | nil =>
        rw [List.nil_append] at hclose
        exact .inl ⟨Int.le_refl 0, hclose ▸ List.cons_ne_nil _ _⟩
    | cons c more =>
        obtain ⟨rfl, hnil⟩ := List.cons.inj hclose
        obtain ⟨rfl, rfl⟩ := List.append_eq_nil_iff.1 hnil.symm
        exact .inr ⟨rfl, rfl⟩
  · exact .inl ⟨h.2 before more htext, by simp⟩

theorem braces {text : List Char} (h : Balanced text) :
    Balanced ('\x7b' :: (text ++ ['\x7d'])) := by
  refine ⟨by rw [openBraces_cons_open, openBraces_append, h.1]; rfl, fun before after hsplit => ?_⟩
  cases before with
  | nil => exact Int.le_refl 0
  | cons c before =>
      obtain ⟨rfl, hrest⟩ := List.cons.inj hsplit
      rw [openBraces_cons_open]
      rcases h.openBraces_before_close hrest with ⟨hbefore, _⟩ | ⟨hbefore, _⟩
      · omega
      · omega

/-- Behind a text without braces and a balanced one in braces, a brace is open from the first brace
up to the last one. -/
theorem openBraces_of_head {head text before after : List Char} (hhead : Unbraced head)
    (h : Balanced text) (hsplit : head ++ '\x7b' :: (text ++ ['\x7d']) = before ++ after) :
    0 ≤ openBraces before ∧ (openBraces before = 0 ↔ before <+: head ∨ after = []) := by
  rcases List.append_eq_append_iff.1 hsplit with ⟨more, rfl, hmore⟩ | ⟨more, rfl, _⟩
  · rw [openBraces_append, hhead.openBraces_eq_zero, Int.zero_add]
    cases more with
    | nil => simp
    | cons c more =>
        obtain ⟨rfl, hrest⟩ := List.cons.inj hmore
        have hnot : ¬head ++ '\x7b' :: more <+: head := fun hprefix => by
          have hlength := hprefix.length_le
          rw [List.length_append, List.length_cons] at hlength
          omega
        rw [openBraces_cons_open]
        rcases h.openBraces_before_close hrest with ⟨hbefore, hafter⟩ | ⟨hbefore, hafter⟩
        · refine ⟨by omega, iff_of_false (by omega) ?_⟩
          simp [hnot, hafter]
        · rw [hbefore]
          simp [hafter]
  · have hbefore : Unbraced before := fun c hc => hhead c (List.mem_append_left _ hc)
    rw [hbefore.openBraces_eq_zero]
    simp

end Balanced

theorem ofNat_ne {n : Nat} {c : Char} (hn : n ≠ c.toNat) (hc : c ≠ '\x00') : Char.ofNat n ≠ c := by
  rintro rfl
  by_cases hvalid : n.isValidChar
  · have hchar : Char.ofNat n = Char.ofNatAux n hvalid := dif_pos hvalid
    rw [hchar] at hn
    exact hn rfl
  · exact hc (dif_neg hvalid)

theorem inline_ofNat {n : Nat} (h : n ≠ 0x0A ∧ n ≠ 0x7B ∧ n ≠ 0x7D) : Inline [Char.ofNat n] := by
  intro c hc
  obtain rfl := List.mem_singleton.1 hc
  exact ⟨ofNat_ne h.1 (by decide), ofNat_ne h.2.1 (by decide), ofNat_ne h.2.2 (by decide)⟩

namespace Uppercase

/-- The upper case of a character of a run lies above the braces, or between the line break and
them. -/
theorem bounds_of_mem_runs : ∀ r ∈ runs,
    0x7D < r.first + r.shift ∨ 0x0A < r.first + r.shift ∧ r.last + r.shift < 0x7B := by
  decide +kernel

theorem ne_of_mem_expansions : ∀ e ∈ expansions, ∀ n ∈ e.2, n ≠ 0x0A ∧ n ≠ 0x7B ∧ n ≠ 0x7D := by
  decide

theorem Run.bounds_of_contains {r : Run} {n : Nat} (h : r.contains n = true) :
    r.first ≤ n ∧ n ≤ r.last := by
  simp only [Run.contains, Bool.and_eq_true, decide_eq_true_eq] at h
  exact h.1

end Uppercase

theorem inline_upperCase {c : Char} (h : Inline [c]) : Inline (upperCase c) := by
  unfold upperCase
  split
  · next hlt =>
    have hall : ∀ n < 0x80, Inline [Char.ofNat n] → Inline [(Char.ofNat n).toUpper] := by decide
    have hupper := hall c.toNat hlt
    rw [Char.ofNat_toNat] at hupper
    exact hupper h
  · split
    · next images hlookup =>
      obtain ⟨before, after, hsplit, _⟩ := List.lookup_eq_some_iff.1 hlookup
      have hmem : (c.toNat, images) ∈ Uppercase.expansions := by simp [hsplit]
      intro d hd
      obtain ⟨n, hn, rfl⟩ := List.mem_map.1 hd
      exact inline_ofNat (Uppercase.ne_of_mem_expansions _ hmem n hn) _ (List.mem_singleton_self _)
    · split
      · next r hfind =>
        have hrun := Uppercase.bounds_of_mem_runs r (List.mem_of_find?_eq_some hfind)
        have hcontains := List.find?_some hfind
        have hbounds := Uppercase.Run.bounds_of_contains hcontains
        exact inline_ofNat (by omega)
      · exact h

theorem inline_pascal {name : String} (h : Inline name.toList) :
    Inline (Naming.pascal name).toList := by
  cases hname : name.toList with
  | nil =>
      rw [String.toList_eq_nil_iff.1 hname]
      nofun
  | cons c rest =>
      rw [hname] at h
      have hfirst : Inline [c] := fun d hd => h d (List.mem_singleton.1 hd ▸ List.mem_cons_self)
      have hrest : Inline rest := fun d hd => h d (List.mem_cons_of_mem c hd)
      rw [Naming.pascal_eq_ofList hname, String.toList_ofList]
      exact (inline_upperCase hfirst).append hrest

end DataApi

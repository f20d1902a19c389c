import Mathlib.Data.List.Forall2

/-!
# Steps that may fail

When a step that may fail has a result: a sequence of two steps has one exactly when the first has
one and the second has one from there, and neither mapping the result nor renaming the error
changes whether there is one. A step for every member of a list has a result when each of them has
one. An error is the one of the first step that fails: what comes before it has a result, and what
comes behind it does not count.
-/

namespace DataApi

@[simp] theorem ok_bind {ε α β : Type} (a : α) (f : α → Except ε β) :
    (Except.ok a >>= f) = f a := rfl

theorem bind_eq_ok_iff {ε α β : Type} {x : Except ε α} {f : α → Except ε β} {b : β} :
    x >>= f = .ok b ↔ ∃ a, x = .ok a ∧ f a = .ok b := by
  constructor
  · intro h
    cases x with
    | error e => nomatch h
    | ok a => exact ⟨a, rfl, h⟩
  · rintro ⟨a, rfl, h⟩
    exact h

theorem bind_eq_error_iff {ε α β : Type} {x : Except ε α} {f : α → Except ε β} {e : ε} :
    x >>= f = .error e ↔ x = .error e ∨ ∃ a, x = .ok a ∧ f a = .error e := by
  cases x with
  | error e' => simp [bind, Except.bind]
  | ok a => simp [bind, Except.bind]

/-- Only the first of two steps can fail when the second one does not. -/
theorem bind_pure_eq_error_iff {ε α β : Type} {x : Except ε α} {f : α → β} {e : ε} :
    (do return f (← x)) = Except.error e ↔ x = .error e := by
  rw [bind_eq_error_iff]
  simp [pure, Except.pure]

theorem exists_eq_error_iff {ε α : Type} {x : Except ε α} :
    (∃ e, x = .error e) ↔ ¬∃ a, x = .ok a := by
  cases x <;> simp

/-- A step whose errors are those of an optional error has a result when there is none. -/
theorem exists_eq_ok_iff_of_eq_error_iff {ε α : Type} {x : Except ε α} {e? : Option ε}
    (h : ∀ e, x = .error e ↔ e? = some e) : (∃ a, x = .ok a) ↔ e? = none := by
  cases x with
  | error e => simp [(h e).1 rfl]
  | ok a =>
      have hnone : e? = none := Option.eq_none_iff_forall_ne_some.2 fun e he => nomatch (h e).2 he
      simp [hnone]

theorem map_eq_ok_iff {ε α β : Type} {x : Except ε α} {f : α → β} {b : β} :
    x.map f = .ok b ↔ ∃ a, x = .ok a ∧ f a = b := by
  cases x with
  | error e => simp [Except.map]
  | ok a => simp [Except.map]

theorem map_eq_error_iff {ε α β : Type} {x : Except ε α} {f : α → β} {e : ε} :
    x.map f = .error e ↔ x = .error e := by
  cases x with
  | error e' => simp [Except.map]
  | ok a => simp [Except.map]

theorem mapError_eq_ok_iff {ε ε' α : Type} {x : Except ε α} {f : ε → ε'} {a : α} :
    x.mapError f = .ok a ↔ x = .ok a := by
  cases x with
  | error e => simp [Except.mapError]
  | ok b => simp [Except.mapError]

theorem mapError_eq_error_iff {ε ε' α : Type} {x : Except ε α} {f : ε → ε'} {e : ε'} :
    x.mapError f = .error e ↔ ∃ e', x = .error e' ∧ f e' = e := by
  cases x with
  | error e' => simp [Except.mapError]
  | ok a => simp [Except.mapError]

theorem mapM_eq_ok_iff {ε α β : Type} {f : α → Except ε β} {xs : List α} {ys : List β} :
    xs.mapM f = .ok ys ↔ List.Forall₂ (fun x y => f x = .ok y) xs ys := by
  induction xs generalizing ys with
  | nil =>
      rw [List.mapM_nil, List.forall₂_nil_left_iff]
      exact ⟨fun h => (Except.ok.inj h).symm, fun h => congrArg _ h.symm⟩
  | cons x xs ih =>
      rw [List.mapM_cons, bind_eq_ok_iff, List.forall₂_cons_left_iff]
      constructor
      · rintro ⟨y, hy, h⟩
        obtain ⟨others, hothers, h⟩ := bind_eq_ok_iff.1 h
        exact ⟨y, others, hy, ih.1 hothers, (Except.ok.inj h).symm⟩
      · rintro ⟨y, others, hy, hothers, rfl⟩
        exact ⟨y, hy, bind_eq_ok_iff.2 ⟨others, ih.2 hothers, rfl⟩⟩

/-- Where each result tells the member it is for, so does the list of the results. -/
theorem map_eq_of_mapM_eq_ok {ε α β : Type} {f : α → Except ε β} {g : β → α} {p : β → Prop}
    (h : ∀ x y, f x = .ok y → p y ∧ g y = x) {xs : List α} {ys : List β}
    (hxs : xs.mapM f = .ok ys) : ys.map g = xs ∧ ∀ y ∈ ys, p y := by
  have hall : List.Forall₂ (fun y x => p y ∧ g y = x) ys xs :=
    ((mapM_eq_ok_iff.1 hxs).imp h).flip
  obtain ⟨hp, hg⟩ := (List.forall₂_and_left _ _).1 hall
  rw [← List.forall₂_map_left_iff, List.forall₂_eq_eq_eq] at hg
  exact ⟨hg, hp⟩

theorem mapM_eq_ok_of_forall₂ {ε α β γ : Type} {f : α → Except ε γ} {g : β → Except ε γ}
    {xs : List α} {ys : List β}
    (h : List.Forall₂ (fun x y => ∀ {z}, f x = .ok z → g y = .ok z) xs ys) {zs : List γ}
    (hxs : xs.mapM f = .ok zs) : ys.mapM g = .ok zs := by
  rw [mapM_eq_ok_iff] at hxs ⊢
  induction h generalizing zs with
  | nil => cases hxs; exact .nil
  | cons hxy _ ih =>
      cases hxs with
      | cons hx hxs => exact .cons (hxy hx) (ih hxs)

theorem mapM_map_eq_ok {ε α β : Type} {f : α → β} {g : β → Except ε α}
    (h : ∀ a, g (f a) = .ok a) (xs : List α) : (xs.map f).mapM g = .ok xs := by
  rw [mapM_eq_ok_iff, List.forall₂_map_left_iff, List.forall₂_same]
  exact fun a _ => h a

theorem exists_mapM_eq_ok_iff {ε α β : Type} {f : α → Except ε β} {xs : List α} :
    (∃ ys, xs.mapM f = .ok ys) ↔ ∀ x ∈ xs, ∃ y, f x = .ok y := by
  induction xs with
  | nil => exact iff_of_true ⟨[], rfl⟩ nofun
  | cons x xs ih =>
      rw [List.forall_mem_cons, ← ih]
      simp only [mapM_eq_ok_iff, List.forall₂_cons_left_iff]
      constructor
      · rintro ⟨_, y, ys, hx, hxs, rfl⟩
        exact ⟨⟨y, hx⟩, ys, hxs⟩
      · rintro ⟨⟨y, hx⟩, ys, hxs⟩
        exact ⟨y :: ys, y, ys, hx, hxs, rfl⟩

theorem mapM_congr {ε α β : Type} {f g : α → Except ε β} {xs : List α}
    (h : ∀ x ∈ xs, f x = g x) : xs.mapM f = xs.mapM g := by
  induction xs with
  | nil => rfl
  | cons x xs ih =>
      have hxs : xs.mapM f = xs.mapM g := ih fun y hy => h y (List.mem_cons_of_mem _ hy)
      rw [List.mapM_cons, List.mapM_cons, h x List.mem_cons_self, hxs]

theorem mapM_eq_error_iff {ε α β : Type} {f : α → Except ε β} {xs : List α} {e : ε} :
    xs.mapM f = .error e ↔
      ∃ before x after, xs = before ++ x :: after ∧ (∀ y ∈ before, ∃ z, f y = .ok z) ∧
        f x = .error e := by
  induction xs with
  | nil => simp [pure, Except.pure]
  | cons x xs ih =>
      rw [List.mapM_cons, bind_eq_error_iff]
      simp only [bind_pure_eq_error_iff, ih]
      constructor
      · rintro (hx | ⟨y, hx, before, z, after, rfl, hbefore, hz⟩)
        · exact ⟨[], x, xs, rfl, by simp, hx⟩
        · exact ⟨x :: before, z, after, rfl, List.forall_mem_cons.2 ⟨⟨y, hx⟩, hbefore⟩, hz⟩
      · rintro ⟨before, z, after, hsplit, hbefore, hz⟩
        cases before with
        | nil =>
            obtain ⟨rfl, rfl⟩ := List.cons.inj hsplit
            exact .inl hz
        | cons y before =>
            obtain ⟨rfl, rfl⟩ := List.cons.inj hsplit
            obtain ⟨⟨y', hx⟩, hbefore⟩ := List.forall_mem_cons.1 hbefore
            exact .inr ⟨y', hx, before, z, after, rfl, hbefore, hz⟩

theorem foldlM_cons_eq_ok_iff {ε α β : Type} {f : β → α → Except ε β} {x : α} {xs : List α}
    {b c : β} : (x :: xs).foldlM f b = .ok c ↔ ∃ b', f b x = .ok b' ∧ xs.foldlM f b' = .ok c := by
  rw [List.foldlM_cons, bind_eq_ok_iff]

theorem foldlM_map_of_step {ε α β γ : Type} {f : β → α → Except ε β} {g : γ → α → Except ε γ}
    {h : β → γ} (hstep : ∀ b a, g (h b) a = (f b a).map h) (xs : List α) (b : β) :
    xs.foldlM g (h b) = (xs.foldlM f b).map h := by
  induction xs generalizing b with
  | nil => rfl
  | cons x xs ih =>
      rw [List.foldlM_cons, List.foldlM_cons, hstep]
      cases f b x with
      | error e => rfl
      | ok b' => exact ih b'

/-- Steps that are taken along a list fail with the error of the first one that fails. -/
theorem foldlM_eq_error_iff {ε α β : Type} {f : β → α → Except ε β} {xs : List α} {b : β} {e : ε} :
    xs.foldlM f b = .error e ↔
      ∃ before x after b', xs = before ++ x :: after ∧ before.foldlM f b = .ok b' ∧
        f b' x = .error e := by
  induction xs generalizing b with
  | nil => simp [pure, Except.pure]
  | cons x xs ih =>
      rw [List.foldlM_cons, bind_eq_error_iff]
      constructor
      · rintro (hx | ⟨b', hx, hxs⟩)
        · exact ⟨[], x, xs, b, rfl, rfl, hx⟩
        · obtain ⟨before, y, after, b'', rfl, hbefore, hy⟩ := ih.1 hxs
          refine ⟨x :: before, y, after, b'', rfl, ?_, hy⟩
          exact foldlM_cons_eq_ok_iff.2 ⟨b', hx, hbefore⟩
      · rintro ⟨before, y, after, b'', hsplit, hbefore, hy⟩
        cases before with
        | nil =>
            obtain ⟨rfl, rfl⟩ := List.cons.inj hsplit
            obtain rfl := Except.ok.inj hbefore
            exact .inl hy
        | cons z before =>
            obtain ⟨rfl, rfl⟩ := List.cons.inj hsplit
            obtain ⟨b', hx, hbefore⟩ := foldlM_cons_eq_ok_iff.1 hbefore
            exact .inr ⟨b', hx, ih.2 ⟨before, y, after, b'', rfl, hbefore, hy⟩⟩

end DataApi

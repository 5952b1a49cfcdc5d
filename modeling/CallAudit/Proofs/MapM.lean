import Mathlib.Data.List.Perm.Basic

/-!
# Maps that may fail

A map over a list that fails for no element gives one result for each, in their order
(`mapM_some_iff`, `mapM_ok_iff`).  What else is to be known of such a map is known of lists whose
elements are related one by one.
-/

namespace CallAudit

variable {α β γ ε : Type} {xs xs' : List α} {ys : List β}

/-! ## Lists related one by one -/

theorem exists_forall₂_iff {R : α → β → Prop} :
    (∃ ys, List.Forall₂ R xs ys) ↔ ∀ x ∈ xs, ∃ y, R x y := by
  induction xs with
  | nil => exact ⟨fun _ _ hx => absurd hx (by simp), fun _ => ⟨[], .nil⟩⟩
  | cons x xs ih =>
    rw [List.forall_mem_cons, ← ih]
    constructor
    · rintro ⟨ys, h⟩
      obtain ⟨y, zs, hx, hxs, -⟩ := List.forall₂_cons_left_iff.mp h
      exact ⟨⟨y, hx⟩, zs, hxs⟩
    · rintro ⟨⟨y, hx⟩, zs, hxs⟩
      exact ⟨y :: zs, .cons hx hxs⟩

theorem mem_forall₂_iff {R : α → β → Prop} (hR : Relator.RightUnique R)
    (h : List.Forall₂ R xs ys) {y : β} : y ∈ ys ↔ ∃ x ∈ xs, R x y := by
  induction h with
  | nil => simp
  | @cons x z xs zs hx hxs ih =>
    rw [List.mem_cons, ih, List.exists_mem_cons_iff]
    exact or_congr_left ⟨fun hy => hy ▸ hx, fun hy => hR hy hx⟩

theorem forall₂_append_left_iff {R : α → β → Prop} {xs xs' : List α} {zs : List β} :
    List.Forall₂ R (xs ++ xs') zs ↔
      ∃ ys ys', List.Forall₂ R xs ys ∧ List.Forall₂ R xs' ys' ∧ zs = ys ++ ys' := by
  constructor
  · induction xs generalizing zs with
    | nil => exact fun h => ⟨[], zs, .nil, h, rfl⟩
    | cons x xs ih =>
      intro h
      obtain ⟨y, zs, hx, hxs, rfl⟩ := List.forall₂_cons_left_iff.mp h
      obtain ⟨ys, ys', hys, hys', rfl⟩ := ih hxs
      exact ⟨y :: ys, ys', .cons hx hys, hys', rfl⟩
  · rintro ⟨ys, ys', h, h', rfl⟩
    exact List.rel_append h h'

/-! ## Maps that may be undefined -/

/-- What is kept of a list, and what becomes of it. -/
theorem forall₂_filter_filterMap {R : α → β → Prop} {keep : α → Bool} {f : α → Option β}
    {xs : List α} (hkept : ∀ x ∈ xs, keep x = true → ∃ b, f x = some b ∧ R x b)
    (hleft : ∀ x, keep x = false → f x = none) :
    List.Forall₂ R (xs.filter keep) (xs.filterMap f) := by
  induction xs with
  | nil => exact .nil
  | cons x xs ih =>
    obtain ⟨hx, hxs⟩ := List.forall_mem_cons.mp hkept
    cases hkeep : keep x with
    | true =>
      obtain ⟨b, hb, hR⟩ := hx hkeep
      rw [List.filter_cons_of_pos hkeep, List.filterMap_cons_some hb]
      exact .cons hR (ih hxs)
    | false =>
      rw [List.filter_cons_of_neg (by simp [hkeep]), List.filterMap_cons_none (hleft x hkeep)]
      exact ih hxs

theorem mapM_some_iff {f : α → Option β} :
    xs.mapM f = some ys ↔ List.Forall₂ (fun x y => f x = some y) xs ys := by
  induction xs generalizing ys with
  | nil => simp [eq_comm]
  | cons x xs ih =>
    rw [List.mapM_cons, List.forall₂_cons_left_iff]
    simp only [← ih]
    cases f x with
    | none => simp
    | some y =>
      cases xs.mapM f with
      | none => simp
      | some zs => simp [eq_comm]

theorem exists_mapM_some {f : α → Option β} (h : ∀ x ∈ xs, ∃ y, f x = some y) :
    ∃ ys, xs.mapM f = some ys := by
  simpa only [mapM_some_iff] using exists_forall₂_iff.mpr h

/-- A map that may be undefined and is not goes through all elements. -/
theorem map_of_mapM_some {f : α → Option β} (h : xs.mapM f = some ys) : xs.map f = ys.map some := by
  rw [← List.forall₂_eq_eq_eq, List.forall₂_map_left_iff, List.forall₂_map_right_iff]
  exact mapM_some_iff.mp h

/-! ## Maps that may give an error -/

theorem mapM_ok_iff {f : α → Except ε β} :
    xs.mapM f = .ok ys ↔ List.Forall₂ (fun x y => f x = .ok y) xs ys := by
  induction xs generalizing ys with
  | nil => simp [pure, Except.pure, eq_comm]
  | cons x xs ih =>
    rw [List.mapM_cons, List.forall₂_cons_left_iff]
    simp only [← ih]
    cases f x with
    | error e => simp [bind, Except.bind]
    | ok y =>
      cases xs.mapM f with
      | error e => simp [bind, Except.bind]
      | ok zs => simp [bind, Except.bind, pure, Except.pure, eq_comm]

theorem mem_mapM_ok_iff {f : α → Except ε β} (h : xs.mapM f = .ok ys) {y : β} :
    y ∈ ys ↔ ∃ x ∈ xs, f x = .ok y :=
  mem_forall₂_iff (fun _ _ _ hy hz => Except.ok.inj (hy.symm.trans hz)) (mapM_ok_iff.mp h)

/-- What is known of every single result is known of all of them. -/
theorem map_of_mapM_ok {f : α → Except ε β} {g : β → γ} {k : α → γ}
    (hfg : ∀ x y, f x = .ok y → g y = k x) (h : xs.mapM f = .ok ys) : ys.map g = xs.map k := by
  rw [← List.forall₂_eq_eq_eq, List.forall₂_map_left_iff, List.forall₂_map_right_iff]
  exact ((mapM_ok_iff.mp h).imp hfg).flip

/-- A map over the same elements in another order gives the same results in another order. -/
theorem exists_perm_of_mapM_ok {f : α → Except ε β} (h : xs.Perm xs') (hys : xs.mapM f = .ok ys) :
    ∃ ys', xs'.mapM f = .ok ys' ∧ ys.Perm ys' := by
  obtain ⟨ys', hys', hperm⟩ := List.perm_comp_forall₂ h.symm (mapM_ok_iff.mp hys)
  exact ⟨ys', mapM_ok_iff.mpr hys', hperm.symm⟩

/-- Of an error nothing can be read off. -/
theorem exists_ok_of_map_toOption {f : α → β} {outcome : Except ε α} {y : β}
    (h : outcome.toOption.map f = some y) : ∃ x, outcome = .ok x ∧ f x = y := by
  cases outcome with
  | error e => exact absurd h (by simp [Except.toOption])
  | ok x => exact ⟨x, rfl, Option.some.inj h⟩

end CallAudit

import CallAudit.Distinct
import Mathlib.Data.List.Basic
import Mathlib.Data.List.Forall2
import Mathlib.Data.List.Induction

/-!
# Distinct lists under filters and maps

Going through a list in the order of first arrival commutes with leaving elements out and with
renaming them one to one.  What is inserted into a list comes after it, less what is there already
(`insertAll_eq_append`).
-/

namespace CallAudit.Distinct

variable {α β : Type} [DecidableEq α] [DecidableEq β]

@[simp] theorem insertAll_nil (xs : List α) : insertAll xs [] = xs := rfl

theorem insertAll_append (xs ys zs : List α) :
    insertAll xs (ys ++ zs) = insertAll (insertAll xs ys) zs :=
  List.foldl_append

theorem ofList_append (xs ys : List α) : ofList (xs ++ ys) = insertAll (ofList xs) ys :=
  insertAll_append [] xs ys

theorem prefix_insert (xs : List α) (a : α) : xs <+: insert xs a := by
  unfold insert
  split
  · exact List.prefix_refl xs
  · exact List.prefix_append xs [a]

theorem prefix_insertAll (xs ys : List α) : xs <+: insertAll xs ys := by
  induction ys generalizing xs with
  | nil => exact List.prefix_refl xs
  | cons y ys ih => exact (prefix_insert xs y).trans (ih _)

theorem filter_insert (p : α → Bool) (xs : List α) (a : α) :
    (insert xs a).filter p = if p a then insert (xs.filter p) a else xs.filter p := by
  by_cases hmem : a ∈ xs
  · rw [insert_of_mem hmem]
    split
    · next hp => rw [insert_of_mem (List.mem_filter.mpr ⟨hmem, hp⟩)]
    · rfl
  · rw [insert_of_not_mem hmem, List.filter_append]
    split
    · next hp =>
      have hnot : a ∉ xs.filter p := fun h => hmem (List.mem_filter.mp h).1
      rw [insert_of_not_mem hnot, List.filter_cons_of_pos hp, List.filter_nil]
    · next hp => rw [List.filter_cons_of_neg hp, List.filter_nil, List.append_nil]

theorem filter_insertAll (p : α → Bool) (xs ys : List α) :
    (insertAll xs ys).filter p = insertAll (xs.filter p) (ys.filter p) := by
  induction ys generalizing xs with
  | nil => rfl
  | cons y ys ih =>
    have hstep : insertAll xs (y :: ys) = insertAll (insert xs y) ys := rfl
    rw [hstep, ih, filter_insert, List.filter_cons]
    split <;> rfl

theorem filter_ofList (p : α → Bool) (xs : List α) :
    (ofList xs).filter p = ofList (xs.filter p) :=
  filter_insertAll p [] xs

theorem insertAll_eq_append (xs ys : List α) :
    insertAll xs ys = xs ++ (ofList ys).filter fun y => y ∉ xs := by
  induction ys using List.reverseRecOn with
  | nil => exact (List.append_nil xs).symm
  | append_singleton ys y ih =>
    have hstep : insertAll xs (ys ++ [y]) = insert (insertAll xs ys) y := insertAll_append xs ys [y]
    have hlist : ofList (ys ++ [y]) = insert (ofList ys) y := ofList_append ys [y]
    rw [hstep, ih, hlist, filter_insert]
    by_cases hy : y ∈ xs
    · rw [insert_of_mem (List.mem_append_left _ hy), if_neg (by simpa using hy)]
    · rw [if_pos (by simpa using hy)]
      unfold insert
      simp only [List.mem_append, hy, false_or]
      split
      · rfl
      · exact List.append_assoc _ _ _

theorem insertAll_of_subset {xs ys : List α} (h : ∀ y ∈ ys, y ∈ xs) : insertAll xs ys = xs := by
  have hnone : ((ofList ys).filter fun y => y ∉ xs) = [] := by
    rw [List.filter_eq_nil_iff]
    intro y hy
    simpa using h y (mem_ofList.mp hy)
  rw [insertAll_eq_append, hnone, List.append_nil]

theorem map_insert {f : α → β} {xs : List α} {a : α} (hf : ∀ b ∈ xs, f b = f a → b = a) :
    (insert xs a).map f = insert (xs.map f) (f a) := by
  by_cases hmem : a ∈ xs
  · rw [insert_of_mem hmem, insert_of_mem (List.mem_map_of_mem hmem)]
  · have hnot : f a ∉ xs.map f := by
      rw [List.mem_map]
      rintro ⟨b, hb, hba⟩
      exact hmem (hf b hb hba ▸ hb)
    rw [insert_of_not_mem hmem, insert_of_not_mem hnot, List.map_append, List.map_singleton]

theorem map_insertAll {f : α → β} {xs ys : List α}
    (hf : ∀ a ∈ xs ++ ys, ∀ b ∈ xs ++ ys, f a = f b → a = b) :
    (insertAll xs ys).map f = insertAll (xs.map f) (ys.map f) := by
  induction ys generalizing xs with
  | nil => rfl
  | cons y ys ih =>
    have hstep : insertAll xs (y :: ys) = insertAll (insert xs y) ys := rfl
    have hsub : ∀ {a}, a ∈ insert xs y ++ ys → a ∈ xs ++ y :: ys := by
      intro a ha
      rw [List.mem_append, mem_insert, or_assoc] at ha
      rwa [List.mem_append, List.mem_cons]
    have hy : y ∈ xs ++ y :: ys := List.mem_append_right _ List.mem_cons_self
    rw [hstep, ih fun a ha b hb => hf a (hsub ha) b (hsub hb),
      map_insert fun b hb => hf b (List.mem_append_left _ hb) y hy]
    rfl

theorem map_ofList {f : α → β} {xs : List α} (hf : ∀ a ∈ xs, ∀ b ∈ xs, f a = f b → a = b) :
    (ofList xs).map f = ofList (xs.map f) :=
  map_insertAll hf

theorem forall₂_insert {R : α → β → Prop} (hR : Relator.BiUnique R) {xs : List α} {ys : List β}
    {a : α} {b : β} (h : List.Forall₂ R xs ys) (hab : R a b) :
    List.Forall₂ R (insert xs a) (insert ys b) := by
  have hmem : a ∈ xs ↔ b ∈ ys := List.rel_mem hR hab h
  by_cases ha : a ∈ xs
  · rwa [insert_of_mem ha, insert_of_mem (hmem.mp ha)]
  · rw [insert_of_not_mem ha, insert_of_not_mem (mt hmem.mpr ha)]
    exact List.rel_append h (.cons hab .nil)

/-- Lists whose elements correspond one to one have corresponding first arrivals. -/
theorem forall₂_ofList {R : α → β → Prop} (hR : Relator.BiUnique R) {xs : List α} {ys : List β}
    (h : List.Forall₂ R xs ys) : List.Forall₂ R (ofList xs) (ofList ys) := by
  have hinsert : Relator.LiftFun (List.Forall₂ R) (Relator.LiftFun R (List.Forall₂ R)) insert insert :=
    fun _ _ hlists _ _ hab => forall₂_insert hR hlists hab
  exact List.rel_foldl hinsert .nil h

theorem ofList_perm {xs ys : List α} (h : ∀ a, a ∈ xs ↔ a ∈ ys) : (ofList xs).Perm (ofList ys) := by
  rw [List.perm_ext_iff_of_nodup (nodup_ofList xs) (nodup_ofList ys)]
  intro a
  rw [mem_ofList, mem_ofList, h]

/-- The elements stand in the order of their first arrival. -/
theorem pairwise_idxOf_ofList (xs : List α) :
    (ofList xs).Pairwise fun a b => xs.idxOf a < xs.idxOf b := by
  induction xs using List.reverseRecOn with
  | nil => exact List.Pairwise.nil
  | append_singleton xs x ih =>
    -- what came before the last element comes first where it came first before
    have hbefore : ∀ a ∈ xs, (xs ++ [x]).idxOf a = xs.idxOf a := fun a ha =>
      List.idxOf_append_of_mem ha
    have hold : (ofList xs).Pairwise fun a b => (xs ++ [x]).idxOf a < (xs ++ [x]).idxOf b := by
      refine ih.imp_of_mem fun {a b} ha hb hab => ?_
      rwa [hbefore a (mem_ofList.mp ha), hbefore b (mem_ofList.mp hb)]
    have hstep : ofList (xs ++ [x]) = insert (ofList xs) x := ofList_append xs [x]
    rw [hstep]
    by_cases hx : x ∈ xs
    · rwa [insert_of_mem (mem_ofList.mpr hx)]
    · rw [insert_of_not_mem fun hmem => hx (mem_ofList.mp hmem), List.pairwise_append]
      refine ⟨hold, List.pairwise_singleton _ _, ?_⟩
      intro a ha b hb
      obtain rfl := List.mem_singleton.mp hb
      rw [hbefore a (mem_ofList.mp ha), List.idxOf_append_of_notMem hx]
      have := List.idxOf_lt_length_of_mem (mem_ofList.mp ha)
      omega

end CallAudit.Distinct

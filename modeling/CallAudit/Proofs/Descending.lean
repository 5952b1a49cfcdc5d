import Mathlib.Data.List.Sort

/-!
# Sorting by a count

Lines that are sorted by a count, the largest first, stand in descending order, and lines with equal
counts stay in the order in which they came (`pairwise_mergeSort_ties`).
-/

namespace CallAudit

section

variable {α : Type} (count : α → Nat)

theorem descending_trans (a b c : α) (hab : decide (count b ≤ count a) = true)
    (hbc : decide (count c ≤ count b) = true) : decide (count c ≤ count a) = true := by
  rw [decide_eq_true_eq] at hab hbc ⊢
  exact hbc.trans hab

theorem descending_total (a b : α) :
    (decide (count b ≤ count a) || decide (count a ≤ count b)) = true := by
  rw [Bool.or_eq_true, decide_eq_true_eq, decide_eq_true_eq]
  exact Nat.le_total _ _

theorem pairwise_mergeSort_descending (lines : List α) :
    (lines.mergeSort fun a b => count b ≤ count a).Pairwise fun a b => count b ≤ count a := by
  have hpairwise := List.pairwise_mergeSort (descending_trans count) (descending_total count) lines
  exact hpairwise.imp fun h => of_decide_eq_true h

/-- Sorting is stable: it changes the order of lines only where their counts call for it. -/
theorem pairwise_mergeSort_ties {R : α → α → Prop} {lines : List α} (h : lines.Pairwise R) :
    (lines.mergeSort fun a b => count b ≤ count a).Pairwise fun a b =>
      count b < count a ∨ count b = count a ∧ R a b := by
  induction lines with
  | nil =>
    rw [List.mergeSort_nil]
    exact List.Pairwise.nil
  | cons a lines ih =>
    obtain ⟨hfirst, hrest⟩ := List.pairwise_cons.mp h
    -- the first line goes before all that are not larger, and the others stay as they are
    obtain ⟨before, after, hall, hothers, hlarger⟩ :=
      List.mergeSort_cons (descending_trans count) (descending_total count) a lines
    have hsorted := pairwise_mergeSort_descending count (a :: lines)
    have hpairs := ih hrest
    rw [hall] at hsorted ⊢
    rw [hothers, List.pairwise_append] at hpairs
    rw [List.pairwise_append, List.pairwise_cons] at hsorted ⊢
    refine ⟨hpairs.1, ⟨fun b hb => ?_, hpairs.2.1⟩, fun b hb b' hb' => ?_⟩
    · have hmem : b ∈ lines := by
        rw [← (List.mergeSort_perm lines fun a b => count b ≤ count a).mem_iff, hothers]
        exact List.mem_append_right _ hb
      exact (Nat.lt_or_eq_of_le (hsorted.2.1.1 b hb)).imp_right fun heq => ⟨heq, hfirst b hmem⟩
    · rcases List.mem_cons.mp hb' with rfl | hb'
      · have hnot := hlarger b hb
        rw [Bool.not_eq_true', decide_eq_false_iff_not] at hnot
        exact Or.inl (Nat.lt_of_not_le hnot)
      · exact hpairs.2.2 b hb b' hb'

end

end CallAudit

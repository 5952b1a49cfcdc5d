import CallAudit.Classifier.Listed
import CallAudit.Proofs.Distinct
import CallAudit.Rules.RuleSet
import Mathlib.Data.List.Basic
import Mathlib.Data.List.Induction

/-!
# Reasons that are known

A classifier by rules and one by lists know every reason that they can give, and list none twice
(`RuleSet.complete`, `Listing.complete`).
-/

namespace CallAudit

/-! ## One of each text -/

/-- Erasing repetitions leaves the elements in the order of their first arrival. -/
theorem eraseDups_eq_ofList {α : Type} [DecidableEq α] (xs : List α) :
    xs.eraseDups = Distinct.ofList xs := by
  induction xs using List.reverseRecOn with
  | nil => rfl
  | append_singleton xs x ih =>
    have hinsert : Distinct.ofList (xs ++ [x]) = Distinct.insert (Distinct.ofList xs) x := by
      rw [Distinct.ofList, Distinct.insertAll_append]
      rfl
    rw [List.eraseDups_append, ih, hinsert]
    by_cases hx : x ∈ xs
    · have hnone : [x].removeAll xs = [] := by simp [List.removeAll, hx]
      rw [Distinct.insert_of_mem (Distinct.mem_ofList.mpr hx), hnone, List.eraseDups_nil,
        List.append_nil]
    · have hnew : [x].removeAll xs = [x] := by simp [List.removeAll, hx]
      rw [Distinct.insert_of_not_mem (mt Distinct.mem_ofList.mp hx), hnew]
      rfl

theorem mem_sortedDistinct {texts : List String} {text : String} :
    text ∈ sortedDistinct texts ↔ text ∈ texts := by
  rw [sortedDistinct, List.mem_eraseDups, List.mem_mergeSort]

theorem nodup_sortedDistinct (texts : List String) : (sortedDistinct texts).Nodup := by
  rw [sortedDistinct, eraseDups_eq_ofList]
  exact Distinct.nodup_ofList _

/-- Every reason that a classifier can give is known, and no reason is known twice. -/
structure Classifier.Complete (c : Classifier) : Prop where
  nodup : c.knownReasons.Nodup
  known : ∀ program m reason, c.reason? program m = .ok (some reason) → reason ∈ c.knownReasons

/-! ## Lists -/

/-- A listing knows the reasons that it lists. -/
theorem Listing.complete (l : Listing) : l.classifier.Complete where
  nodup := nodup_sortedDistinct _
  known := by
    intro program m reason h
    have hlookup : l.interesting.lookup m = some reason := Except.ok.inj h
    obtain ⟨before, after, hinteresting, -⟩ := List.lookup_eq_some_iff.mp hlookup
    refine mem_sortedDistinct.mpr (List.mem_map.mpr ⟨(m, reason), ?_, rfl⟩)
    rw [hinteresting]
    simp

/-! ## Rules -/

namespace RuleSet

variable {s : RuleSet} {families : List RuleFamily} {row : Method} {m : MethodId} {reason : Reason}

theorem mem_of_agreed {reasons : List Reason} (h : agreed row reasons = .ok (some reason)) :
    reason ∈ reasons := by
  cases reasons with
  | nil => exact absurd (Except.ok.inj h) (by simp)
  | cons first rest =>
    rw [agreed] at h
    split at h
    · cases h
    · rw [← Option.some.inj (Except.ok.inj h)]
      exact List.mem_cons_self

theorem known_of_reasonsFor (h : reason ∈ s.reasonsFor families row) : reason ∈ s.knownReasons := by
  obtain ⟨rule, hrule, hreason⟩ := List.mem_filterMap.mp h
  refine mem_sortedDistinct.mpr (List.mem_append_left _ ?_)
  exact List.mem_filterMap.mpr ⟨rule, (List.mem_filter.mp hrule).1, hreason⟩

theorem known_of_reasonFor (h : s.reasonFor m row = .ok (some reason)) :
    reason ∈ s.knownReasons := by
  -- one branch for each word about a method, the most specific first
  unfold reasonFor at h
  split at h
  · cases h
  split at h
  · cases h
  · next hagreed =>
    obtain rfl := Option.some.inj (Except.ok.inj h)
    exact known_of_reasonsFor (mem_of_agreed hagreed)
  split at h
  · obtain rfl := Option.some.inj (Except.ok.inj h)
    exact mem_sortedDistinct.mpr (List.mem_append_right _ List.mem_cons_self)
  split at h
  · cases h
  · exact known_of_reasonsFor (mem_of_agreed h)

theorem reason?_of_row {program : Program} (h : program.method? m = some row) :
    s.classifier.reason? program m = s.reasonFor m row := by
  simp only [classifier, h]

theorem reason?_of_none {program : Program} (h : program.method? m = none) :
    s.classifier.reason? program m = .ok none := by
  simp only [classifier, h]

/-- Rules know their own reasons and the one for methods that could not be analyzed. -/
theorem complete (s : RuleSet) : s.classifier.Complete where
  nodup := nodup_sortedDistinct _
  known := by
    intro program m reason h
    cases hm : program.method? m with
    | none => rw [reason?_of_none hm] at h; cases h
    | some row => exact known_of_reasonFor (reason?_of_row hm ▸ h)

end RuleSet

end CallAudit

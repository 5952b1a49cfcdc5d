import CallAudit.Proofs.Report.Agreement

/-!
# The tallies of a summary

A table of counts in a summary has one line for every name that was counted and for every name that is
known, in descending order of how often the name was counted (`Ledger.tallies_sortedCounts`).  Its
counts add up to the number of names that were counted (`Tallies.sum_eq`).
-/

namespace CallAudit

/-- A table in which no name has two lines and the counts never increase. -/
structure Orderly (lines : List Count) : Prop where
  nodup : (lines.map Count.name).Nodup
  descending : lines.Pairwise fun a b => b.count ≤ a.count

/-- A table of how often each name stands among `names`, with a line for every name that is known. -/
structure Tallies (names known : List String) (lines : List Count) : Prop
    extends Orderly lines where
  mem_iff : ∀ name, name ∈ lines.map Count.name ↔ name ∈ names ∨ name ∈ known
  count_eq : ∀ line ∈ lines, line.count = names.count line.name

namespace Tallies

variable {names known : List String} {lines : List Count}

theorem sum_eq (h : Tallies names known lines) : (lines.map Count.count).sum = names.length := by
  have hcounts : lines.map Count.count = (lines.map Count.name).map names.count := by
    rw [List.map_map]
    exact List.map_congr_left h.count_eq
  rw [hcounts]
  exact Keyed.sum_map_count h.nodup fun name hname => (h.mem_iff name).mpr (Or.inl hname)

/-- If only known names were counted, the lines are those of the known names. -/
theorem perm_known (h : Tallies names known lines) (hknown : known.Nodup)
    (hsub : ∀ name ∈ names, name ∈ known) : (lines.map Count.name).Perm known := by
  rw [List.perm_ext_iff_of_nodup h.nodup hknown]
  intro name
  rw [h.mem_iff]
  exact or_iff_right_of_imp (hsub name)

end Tallies

namespace Ledger

variable {counts : List (String × Nat)} {known : List String}

theorem names_sortedCounts : (sortedCounts counts known).map Count.name =
    Keyed.keys (counts.mergeSort fun a b => b.2 ≤ a.2) ++
      known.filter fun name => !(Keyed.keys counts).contains name := by
  simp [sortedCounts, Keyed.keys, Function.comp_def]

theorem keys_sorted_perm :
    (Keyed.keys (counts.mergeSort fun a b => b.2 ≤ a.2)).Perm (Keyed.keys counts) :=
  (List.mergeSort_perm _ _).map Prod.fst

theorem mem_names_sortedCounts {name : String} :
    name ∈ (sortedCounts counts known).map Count.name ↔ name ∈ Keyed.keys counts ∨ name ∈ known := by
  rw [names_sortedCounts, List.mem_append, keys_sorted_perm.mem_iff, List.mem_filter]
  by_cases hname : name ∈ Keyed.keys counts <;> simp [hname]

theorem nodup_names_sortedCounts (hcounts : (Keyed.keys counts).Nodup) (hknown : known.Nodup) :
    ((sortedCounts counts known).map Count.name).Nodup := by
  rw [names_sortedCounts, List.nodup_append]
  refine ⟨keys_sorted_perm.nodup_iff.mpr hcounts, hknown.filter _, ?_⟩
  -- a name that was counted is not missing
  rintro name hname _ hmissing rfl
  have hkey : name ∈ Keyed.keys counts := keys_sorted_perm.subset hname
  simpa [hkey] using (List.mem_filter.mp hmissing).2

theorem descending_sortedCounts :
    (sortedCounts counts known).Pairwise fun a b => b.count ≤ a.count := by
  rw [sortedCounts, List.pairwise_append]
  refine ⟨?_, ?_, ?_⟩
  · rw [List.pairwise_map]
    exact pairwise_mergeSort_descending Prod.snd counts
  · rw [List.pairwise_map]
    exact List.pairwise_of_forall fun _ _ => Nat.le_refl 0
  · -- the lines of names that were not counted come last, and say zero
    intro line _ missing hmissing
    obtain ⟨name, -, rfl⟩ := List.mem_map.mp hmissing
    exact Nat.zero_le _

theorem mem_sortedCounts {line : Count} (h : line ∈ sortedCounts counts known) :
    (line.name, line.count) ∈ counts ∨ line.name ∉ Keyed.keys counts ∧ line.count = 0 := by
  rw [sortedCounts, List.mem_append, List.mem_map, List.mem_map] at h
  rcases h with ⟨entry, hentry, rfl⟩ | ⟨name, hname, rfl⟩
  · exact Or.inl (List.mem_mergeSort.mp hentry)
  · refine Or.inr ⟨?_, rfl⟩
    simpa using (List.mem_filter.mp hname).2

/-- Counts of keys make a table of them. -/
theorem tallies_sortedCounts {γ : Type} {key : γ → Option String} {xs : List γ}
    (hknown : known.Nodup) : Tallies (xs.filterMap key) known
      (sortedCounts (Keyed.collect key 0 (fun _ n => n + 1) xs []) known) where
  nodup := nodup_names_sortedCounts Keyed.nodup_keys_collect hknown
  descending := descending_sortedCounts
  mem_iff := by
    intro name
    rw [mem_names_sortedCounts, Keyed.keys_collect, Distinct.mem_ofList]
  count_eq := by
    intro line hline
    -- a name that is known and was not counted stands among the names zero times
    rcases mem_sortedCounts hline with hcounted | ⟨hnone, hzero⟩
    · rw [(Keyed.mem_collect.mp hcounted).2, Keyed.collected_count, Keyed.length_filter_key]
    · rw [Keyed.keys_collect, Distinct.mem_ofList] at hnone
      rw [hzero, List.count_eq_zero_of_not_mem hnone]

section

variable {program : Program} {rules : List CategoryRule} {es : List Entry} {size : Nat}
  {grouping : Grouping} {s : Snapshot}

theorem tallies_perCategory : Tallies ((es.map (Note.ofEntry program rules)).map Note.category) []
    (sortedCounts (es.foldl (enter program rules) (empty size grouping)).perCategory []) := by
  rw [perCategory_enterAll, ← List.filterMap_eq_map]
  exact tallies_sortedCounts List.nodup_nil

theorem tallies_perReason (hknown : known.Nodup) :
    Tallies ((es.map (Note.ofEntry program rules)).filterMap Note.reason) known
      (sortedCounts (es.foldl (enter program rules) (empty size grouping)).perReason known) := by
  rw [perReason_enterAll]
  exact tallies_sortedCounts hknown

theorem tallies_methodsPerReason (hknown : known.Nodup) :
    Tallies (s.interesting.filterMap fun i => (s.verdict i).reason) known
      (sortedCounts (methodsPerReason s) known) := by
  have htallies := @tallies_sortedCounts known Reason some
    (s.interesting.filterMap fun i => (s.verdict i).reason) hknown
  rwa [List.filterMap_some] at htallies

end

end Ledger

end CallAudit

import CallAudit.Proofs.Classifier.Faithful
import CallAudit.Proofs.Dependency.Consistent
import Mathlib.Algebra.GroupWithZero.Nat
import Mathlib.Data.List.Basic
import Mathlib.Data.Prod.Basic

/-!
# What a snapshot says

In the snapshot of a consistent graph numbers stand for nodes one to one (`index?_eq_some_iff`), and the
rows of callees and callers hold the pairs of numbers whose nodes are joined (`mem_callees_iff`,
`mem_callers_iff`), in order of first arrival (`callers_ofVerdicts`).  A snapshot retaken from a graph
that has shrunk is the one that the classifier would give (`retake_judged`).
-/

namespace CallAudit

/-! ## Neighbours in a graph -/

namespace Graph

/-- The nodes that depend on a node, in order of the first edge. -/
def callersOf (g : Graph) (n : Node) : List Node :=
  Distinct.ofList ((g.edges.filter (·.target == n)).map (·.source))

theorem mem_callersOf {g : Graph} {n m : Node} :
    m ∈ g.callersOf n ↔ ∃ e ∈ g.edges, e.source = m ∧ e.target = n := by
  rw [callersOf, Distinct.mem_ofList, List.mem_map]
  constructor
  · rintro ⟨e, he, rfl⟩
    rw [List.mem_filter] at he
    exact ⟨e, he.1, rfl, eq_of_beq he.2⟩
  · rintro ⟨e, he, rfl, rfl⟩
    exact ⟨e, List.mem_filter.mpr ⟨he, beq_self_eq_true _⟩, rfl⟩

/-- The ordered pairs of nodes that edges join, edge by edge. -/
def joined (g : Graph) : List (Node × Node) :=
  g.edges.map fun e => (e.source, e.target)

theorem Consistent.mem_of_mem_callersOf {g : Graph} {n m : Node} (h : g.Consistent)
    (hm : m ∈ g.callersOf n) : m ∈ g.nodes := by
  obtain ⟨e, he, rfl, -⟩ := mem_callersOf.mp hm
  exact h.source_mem he

end Graph

namespace Snapshot

variable {c : Classifier} {program : Program} {g : Graph} {verdicts : List Verdict} {n : Node}
  {i j : Nat}

/-! ## Numbers -/

@[simp] theorem size_ofVerdicts : (ofVerdicts g verdicts).size = g.nodes.length := by
  simp [ofVerdicts, size]

@[simp] theorem node?_ofVerdicts : (ofVerdicts g verdicts).node? i = g.nodes[i]? := by
  simp [ofVerdicts, node?]

theorem size_callers_ofVerdicts : (ofVerdicts g verdicts).callers.size = g.nodes.length := by
  simp [ofVerdicts, neighbours]

theorem getElem?_idxOf {α : Type} [DecidableEq α] {xs : List α} {a : α} (h : a ∈ xs) :
    xs[xs.idxOf a]? = some a := by
  rw [List.getElem?_eq_getElem (List.idxOf_lt_length_of_mem h), List.getElem_idxOf]

theorem idxOf_of_getElem? {α : Type} [DecidableEq α] {xs : List α} {a : α} (hnodup : xs.Nodup)
    (h : xs[i]? = some a) : xs.idxOf a = i := by
  obtain ⟨hlt, rfl⟩ := List.getElem?_eq_some_iff.mp h
  exact hnodup.idxOf_getElem i hlt

theorem idxOf?_of_mem {nodes : List Node} (h : n ∈ nodes) :
    nodes.toArray.idxOf? n = some (nodes.idxOf n) := by
  have hsome : (nodes.idxOf? n).isSome = true := List.isSome_idxOf?.mpr h
  obtain ⟨k, hk⟩ := Option.isSome_iff_exists.mp hsome
  rw [List.idxOf?_toArray, List.idxOf_eq_getD_idxOf?, hk, Option.getD_some]

theorem index?_of_mem (h : n ∈ g.nodes) :
    (ofVerdicts g verdicts).index? n = some (g.nodes.idxOf n) :=
  idxOf?_of_mem h

theorem index?_of_not_mem (h : n ∉ g.nodes) : (ofVerdicts g verdicts).index? n = none := by
  rw [index?, ofVerdicts, List.idxOf?_toArray]
  exact List.idxOf?_eq_none_iff.mpr h

/-- Numbers stand for nodes one to one. -/
theorem index?_eq_some_iff (h : g.nodes.Nodup) :
    (ofVerdicts g verdicts).index? n = some i ↔ g.nodes[i]? = some n := by
  by_cases hn : n ∈ g.nodes
  · rw [index?_of_mem hn, Option.some.injEq]
    constructor
    · rintro rfl
      exact getElem?_idxOf hn
    · exact idxOf_of_getElem? h
  · rw [index?_of_not_mem hn]
    refine ⟨fun hnone => absurd hnone (by simp), ?_⟩
    intro hget
    exact absurd (List.mem_of_getElem? hget) hn

/-! ## Verdicts -/

theorem verdict_judged :
    (judged c program g).verdict i = (g.nodes[i]?.map (c.verdict program)).getD {} := by
  simp [judged, ofVerdicts, verdict]

theorem verdict_of_node (hn : g.nodes[i]? = some n) :
    (judged c program g).verdict i = c.verdict program n := by
  rw [verdict_judged, hn, Option.map_some, Option.getD_some]

/-- A retaken snapshot is what the classifier would say, if every node was there before. -/
theorem retake_judged {g' : Graph} (hsub : ∀ n ∈ g'.nodes, n ∈ g.nodes) :
    (judged c program g).retake g' = judged c program g' := by
  rw [retake, judged]
  congr 1
  refine List.map_congr_left ?_
  intro n hn
  have hmem : n ∈ g.nodes := hsub n hn
  show (Option.map (judged c program g).verdict ((judged c program g).index? n)).getD {} = _
  rw [judged, index?_of_mem hmem, Option.map_some, Option.getD_some]
  exact verdict_of_node (getElem?_idxOf hmem)

/-! ## Neighbours -/

/-- The row of a number holds what the number is paired with. -/
theorem mem_neighbours {count : Nat} {pairs : List (Nat × Nat)} :
    j ∈ (neighbours count pairs)[i]?.getD [] ↔ i < count ∧ (i, j) ∈ pairs := by
  rw [neighbours, Array.getElem?_ofFn]
  by_cases hi : i < count
  · rw [dif_pos hi, Option.getD_some, List.mem_map]
    constructor
    · rintro ⟨p, hp, rfl⟩
      obtain ⟨hp, hfirst⟩ := List.mem_filter.mp hp
      have hi' : p.1 = i := eq_of_beq hfirst
      exact ⟨hi, hi' ▸ hp⟩
    · rintro ⟨-, hp⟩
      exact ⟨(i, j), List.mem_filter.mpr ⟨hp, beq_self_eq_true i⟩, rfl⟩
  · simp [hi]

/-- Two numbers are joined if some edge joins the nodes that they stand for. -/
theorem mem_joinedPairs (h : g.nodes.Nodup) : (i, j) ∈ joinedPairs g g.nodes.toArray ↔
    ∃ e ∈ g.edges, g.nodes[i]? = some e.source ∧ g.nodes[j]? = some e.target := by
  have hnumber : ∀ n k, g.nodes[k]? = some n ↔ g.nodes.toArray.idxOf? n = some k := by
    intro n k
    have hindex : (ofVerdicts g []).index? n = some k ↔ g.nodes[k]? = some n := index?_eq_some_iff h
    exact hindex.symm
  rw [joinedPairs, Distinct.mem_ofList, List.mem_filterMap]
  refine exists_congr fun e => and_congr_right fun _ => ?_
  rw [hnumber, hnumber]
  cases g.nodes.toArray.idxOf? e.source <;> cases g.nodes.toArray.idxOf? e.target <;> simp

/-- A number depends on another exactly if some edge joins their nodes. -/
theorem mem_callees_iff (h : g.nodes.Nodup) :
    j ∈ (ofVerdicts g verdicts).callees[i]?.getD [] ↔
      ∃ e ∈ g.edges, g.nodes[i]? = some e.source ∧ g.nodes[j]? = some e.target := by
  show j ∈ (neighbours g.nodes.toArray.size (joinedPairs g g.nodes.toArray))[i]?.getD [] ↔ _
  rw [mem_neighbours, mem_joinedPairs h, List.size_toArray]
  apply and_iff_right_of_imp
  rintro ⟨e, -, hi, -⟩
  exact (List.getElem?_eq_some_iff.mp hi).1

/-- A number calls another exactly if some edge joins their nodes. -/
theorem mem_callers_iff (h : g.Consistent) :
    j ∈ (ofVerdicts g verdicts).callers[i]?.getD [] ↔
      ∃ e ∈ g.edges, g.nodes[j]? = some e.source ∧ g.nodes[i]? = some e.target := by
  show j ∈ (neighbours g.nodes.toArray.size
    ((joinedPairs g g.nodes.toArray).map Prod.swap))[i]?.getD [] ↔ _
  have hswap : (i, j) ∈ (joinedPairs g g.nodes.toArray).map Prod.swap ↔
      (j, i) ∈ joinedPairs g g.nodes.toArray :=
    List.mem_map_of_injective (a := (j, i)) Prod.swap_injective
  rw [mem_neighbours, hswap, mem_joinedPairs h.nodes_nodup, List.size_toArray]
  apply and_iff_right_of_imp
  rintro ⟨e, -, -, hi⟩
  exact (List.getElem?_eq_some_iff.mp hi).1

theorem joinedPairs_eq (h : g.Consistent) :
    joinedPairs g g.nodes.toArray =
      Distinct.ofList (g.edges.map fun e => (g.nodes.idxOf e.source, g.nodes.idxOf e.target)) := by
  unfold joinedPairs
  congr 1
  rw [← List.filterMap_eq_map]
  refine List.filterMap_congr ?_
  intro e he
  rw [idxOf?_of_mem (h.source_mem he), idxOf?_of_mem (h.target_mem he)]
  rfl

/-- The joined pairs of numbers are those of nodes, numbered. -/
theorem joinedPairs_eq_map (h : g.Consistent) : joinedPairs g g.nodes.toArray =
    (Distinct.ofList g.joined).map
      fun pair => (g.nodes.idxOf pair.1, g.nodes.idxOf pair.2) := by
  rw [joinedPairs_eq h, Distinct.map_ofList, Graph.joined, List.map_map]
  · rfl
  · intro a ha b hb hab
    obtain ⟨e, he, rfl⟩ := List.mem_map.mp ha
    have hs := (List.idxOf_inj (h.source_mem he)).mp (Prod.mk.inj hab).1
    have ht := (List.idxOf_inj (h.target_mem he)).mp (Prod.mk.inj hab).2
    exact Prod.ext hs ht

/-- The row of a number among numbered pairs of ends, read back as nodes. -/
theorem neighbours_getElem? {nodes : List Node} {edges : List Edge} {near far : Edge → Node}
    (hnodup : nodes.Nodup) (hnear : ∀ e ∈ edges, near e ∈ nodes) (hfar : ∀ e ∈ edges, far e ∈ nodes)
    (hn : nodes[i]? = some n) :
    (neighbours nodes.length
        (Distinct.ofList (edges.map fun e => (nodes.idxOf (near e), nodes.idxOf (far e)))))[i]? =
      some ((Distinct.ofList ((edges.filter (near · == n)).map far)).map nodes.idxOf) := by
  have hlt : i < nodes.length := (List.getElem?_eq_some_iff.mp hn).1
  have hrow : edges.filter ((fun p : Nat × Nat => p.1 == i) ∘ fun e =>
      (nodes.idxOf (near e), nodes.idxOf (far e))) = edges.filter (near · == n) := by
    refine List.filter_congr ?_
    intro e he
    show (nodes.idxOf (near e) == i) = (near e == n)
    rw [Bool.eq_iff_iff, beq_iff_eq, beq_iff_eq]
    constructor
    · rintro rfl
      exact Option.some.inj ((getElem?_idxOf (hnear e he)).symm.trans hn)
    · rintro rfl
      exact idxOf_of_getElem? hnodup hn
  -- within the row the first member is always `i`, so that dropping it loses nothing
  have hfirst : ∀ p ∈ (edges.filter (near · == n)).map fun e =>
      (nodes.idxOf (near e), nodes.idxOf (far e)), p.1 = i := by
    intro p hp
    rw [List.mem_map] at hp
    obtain ⟨e, he, rfl⟩ := hp
    rw [eq_of_beq (List.mem_filter.mp he).2]
    exact idxOf_of_getElem? hnodup hn
  unfold neighbours
  rw [Array.getElem?_ofFn, dif_pos hlt, Option.some.injEq, Distinct.filter_ofList, List.filter_map,
    hrow, Distinct.map_ofList, Distinct.map_ofList, List.map_map, List.map_map]
  · rfl
  · intro a ha b _ hab
    rw [List.mem_map] at ha
    obtain ⟨e, he, rfl⟩ := ha
    exact (List.idxOf_inj (hfar e (List.mem_filter.mp he).1)).mp hab
  · intro a ha b hb hab
    exact Prod.ext ((hfirst a ha).trans (hfirst b hb).symm) hab

theorem callers_ofVerdicts (h : g.Consistent) (hn : g.nodes[i]? = some n) :
    (ofVerdicts g verdicts).callers[i]? = some ((g.callersOf n).map g.nodes.idxOf) := by
  -- the callers are the joined pairs, read from the end that is called
  have hswap : (joinedPairs g g.nodes.toArray).map Prod.swap =
      Distinct.ofList (g.edges.map fun e => (g.nodes.idxOf e.target, g.nodes.idxOf e.source)) := by
    rw [joinedPairs_eq h, Distinct.map_ofList fun _ _ _ _ hab => Prod.swap_injective hab,
      List.map_map]
    rfl
  show (neighbours g.nodes.toArray.size ((joinedPairs g g.nodes.toArray).map Prod.swap))[i]? = _
  rw [hswap]
  exact neighbours_getElem? h.nodes_nodup (fun e he => h.target_mem he)
    (fun e he => h.source_mem he) hn

/-! ## Counting joined pairs -/

theorem sum_count_range (keys : List Nat) (count : Nat) :
    ((List.range count).map fun i => keys.count i).sum = keys.countP (· < count) := by
  induction count with
  | zero => simp
  | succ n ih =>
    rw [List.range_succ, List.map_append, List.sum_append, ih, List.map_singleton,
      List.sum_singleton]
    clear ih
    -- a number below `n + 1` is below `n` or it is `n`
    induction keys with
    | nil => rfl
    | cons k keys ih =>
      rw [List.countP_cons, List.countP_cons, List.count_cons, ← ih]
      by_cases hk : k = n
      · simp [hk]
        omega
      · by_cases hlt : k < n
        · have : k < n + 1 := by omega
          simp [hk, hlt, this]
          omega
        · have : ¬k < n + 1 := by omega
          simp [hk, hlt, this]

/-- The edges that a snapshot counts are the joined pairs of nodes. -/
theorem edgeCount_ofVerdicts (h : g.Consistent) :
    (ofVerdicts g verdicts).edgeCount = (Distinct.ofList g.joined).length := by
  have hcount : (ofVerdicts g verdicts).edgeCount = ((List.range g.nodes.length).map fun i =>
      ((joinedPairs g g.nodes.toArray).map Prod.fst).count i).sum := by
    unfold edgeCount ofVerdicts neighbours
    rw [← Array.sum_eq_foldl_nat, ← Array.sum_toList, Array.toList_map, Array.toList_ofFn]
    congr 1
    refine List.ext_getElem (by simp) ?_
    intro i hi _
    simp only [List.getElem_map, List.getElem_ofFn, List.getElem_range, List.length_map]
    rw [List.count, List.countP_map, List.countP_eq_length_filter]
    rfl
  rw [hcount, sum_count_range, joinedPairs_eq_map h, List.map_map, List.countP_eq_length.mpr,
    List.length_map]
  intro i hi
  obtain ⟨pair, hpair, rfl⟩ := List.mem_map.mp hi
  obtain ⟨e, he, rfl⟩ := List.mem_map.mp (Distinct.mem_ofList.mp hpair)
  exact decide_eq_true (List.idxOf_lt_length_of_mem (h.source_mem he))

end Snapshot

end CallAudit

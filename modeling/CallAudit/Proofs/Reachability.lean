import CallAudit.Proofs.Closure
import CallAudit.Proofs.Snapshot

/-!
# What reaches something interesting

Whether a number reaches something interesting is a matter of its callees, and is found by a closure over
callers.  The two agree in every snapshot whose callers are its callees seen from the other end
(`Snapshot.reachability_exact`).  Those of graphs are such, and there a number reaches if its node does
(`Snapshot.mem_reaching_iff`).  The nodes to prune are those that do not reach.
-/

namespace CallAudit

variable {c : Classifier} {program : Program} {g : Graph} {n : Node} {i : Nat}

namespace Graph

/-- Some edge leads from `a` to `b`. -/
def DependsOn (g : Graph) (a b : Node) : Prop :=
  ∃ e ∈ g.edges, e.source = a ∧ e.target = b

/-- A node is interesting or depends, however indirectly, on an interesting one. -/
def Reaches (c : Classifier) (program : Program) (g : Graph) (n : Node) : Prop :=
  ∃ m, Relation.ReflTransGen g.DependsOn n m ∧ c.Finds program m

theorem reaches_of_finds (h : c.Finds program n) : g.Reaches c program n :=
  ⟨n, .refl, h⟩

theorem Reaches.of_dependsOn {a b : Node} (h : g.Reaches c program b) (hab : g.DependsOn a b) :
    g.Reaches c program a := by
  obtain ⟨m, hreach, hm⟩ := h
  exact ⟨m, .head hab hreach, hm⟩

theorem Reaches.finds_or_step (h : g.Reaches c program n) :
    c.Finds program n ∨ ∃ b, g.DependsOn n b ∧ g.Reaches c program b := by
  obtain ⟨m, hreach, hm⟩ := h
  rcases Relation.ReflTransGen.cases_head hreach with rfl | ⟨b, hb, hreach⟩
  · exact Or.inl hm
  · exact Or.inr ⟨b, hb, m, hreach, hm⟩

/-- A way through the graph ends where it started or where its last edge does. -/
theorem Consistent.mem_nodes_of_way {a b : Node} (h : g.Consistent) (ha : a ∈ g.nodes)
    (hway : Relation.ReflTransGen g.DependsOn a b) : b ∈ g.nodes := by
  rcases Relation.ReflTransGen.cases_tail hway with rfl | ⟨_, -, e, he, -, rfl⟩
  · exact ha
  · exact h.target_mem he

end Graph

namespace Snapshot

theorem isInteresting_judged :
    (judged c program g).isInteresting i = true ↔ ∃ n, g.nodes[i]? = some n ∧ c.Finds program n := by
  unfold isInteresting
  cases hn : g.nodes[i]? with
  | none => simp [verdict_judged, hn]
  | some n =>
    rw [verdict_of_node hn, ← Classifier.finds_iff]
    simp

theorem mem_indices {s : Snapshot} {test : Nat → Bool} :
    i ∈ s.indices test ↔ i < s.size ∧ test i = true := by
  simp [indices]

theorem mem_interesting_judged :
    i ∈ (judged c program g).interesting ↔ ∃ n, g.nodes[i]? = some n ∧ c.Finds program n := by
  rw [interesting, mem_indices, isInteresting_judged, judged, size_ofVerdicts]
  refine and_iff_right_of_imp ?_
  rintro ⟨n, hn, -⟩
  exact (List.getElem?_eq_some_iff.mp hn).1

/-! ## From number to number -/

/-- The row of `i` says that it depends on `j`. -/
def DependsOn (s : Snapshot) (i j : Nat) : Prop :=
  j ∈ s.callees[i]?.getD []

/-- A number is interesting or depends, however indirectly, on an interesting one. -/
def Reaches (s : Snapshot) (i : Nat) : Prop :=
  ∃ j, Relation.ReflTransGen s.DependsOn i j ∧ s.isInteresting j = true

/-- A snapshot in which every row is a row of numbers, and the rows of callers are those of callees
seen from the other end. -/
structure Transposed (s : Snapshot) : Prop where
  size_callees : s.callees.size = s.size
  target_lt : ∀ {i j}, s.DependsOn i j → j < s.size
  mem_callers : ∀ {i j}, i ∈ s.callers[j]?.getD [] ↔ s.DependsOn i j

namespace Transposed

variable {s : Snapshot} {j : Nat} (h : s.Transposed)
include h

theorem source_lt (hij : s.DependsOn i j) : i < s.size := by
  by_contra hi
  -- what is no number has no row
  rw [← h.size_callees] at hi
  rw [DependsOn, Array.getElem?_eq_none (Nat.le_of_not_lt hi)] at hij
  exact absurd hij (by simp)

/-- The closure over the callers of interesting numbers holds what reaches one. -/
theorem mem_reaching_iff : i ∈ s.reaching ↔ i < s.size ∧ s.Reaches i := by
  have hswap : (fun x y => y ∈ s.callers[x]?.getD []) = Function.swap s.DependsOn := by
    funext x y
    exact propext h.mem_callers
  have hall : ∀ x y, y ∈ s.callers[x]?.getD [] → y ∈ List.range s.size := fun x y hy =>
    List.mem_range.mpr (h.source_lt (h.mem_callers.mp hy))
  rw [reaching, Closure.mem_reachable_iff hall, hswap]
  constructor
  · rintro ⟨j, hj, hlt, hway⟩
    rw [Relation.reflTransGen_swap] at hway
    refine ⟨?_, j, hway, (mem_indices.mp hj).2⟩
    rcases hway.cases_head with rfl | ⟨_, hstep, -⟩
    · exact of_decide_eq_true hlt
    · exact h.source_lt hstep
  · rintro ⟨hi, j, hway, hj⟩
    have hlt : j < s.size := by
      rcases hway.cases_tail with rfl | ⟨_, -, hstep⟩
      · exact hi
      · exact h.target_lt hstep
    exact ⟨j, mem_indices.mpr ⟨hlt, hj⟩, decide_eq_true hlt, Relation.reflTransGen_swap.mpr hway⟩

end Transposed

/-- The callers of a number are the places of the rows that hold it. -/
theorem mem_callers_ofCallees {callees : List (List Nat)} {verdict : Nat → Verdict} {j : Nat} :
    i ∈ (ofCallees callees verdict).callers[j]?.getD [] ↔
      j < callees.length ∧ ∃ row, callees[i]? = some row ∧ j ∈ row := by
  unfold ofCallees
  dsimp only
  rw [mem_neighbours]
  simp [List.mem_zipIdx_iff_getElem?]

theorem dependsOn_ofCallees {callees : List (List Nat)} {verdict : Nat → Verdict} {j : Nat} :
    (ofCallees callees verdict).DependsOn i j ↔ ∃ row, callees[i]? = some row ∧ j ∈ row := by
  show j ∈ callees.toArray[i]?.getD [] ↔ _
  rw [List.getElem?_toArray]
  cases callees[i]? <;> simp

/-- A snapshot that is made of rows of numbers has its callers on the other end of its callees. -/
theorem transposed_ofCallees {callees : List (List Nat)} {verdict : Nat → Verdict}
    (h : ∀ row ∈ callees, ∀ j ∈ row, j < callees.length) :
    (ofCallees callees verdict).Transposed := by
  have hsize : (ofCallees callees verdict).size = callees.length := by simp [ofCallees, size]
  have hlt : ∀ {i j : Nat}, (∃ row, callees[i]? = some row ∧ j ∈ row) → j < callees.length := by
    rintro i j ⟨row, hrow, hj⟩
    exact h row (List.mem_of_getElem? hrow) j hj
  constructor
  case size_callees =>
    rw [hsize]
    rfl
  case target_lt =>
    intro i j hij
    rw [hsize]
    exact hlt (dependsOn_ofCallees.mp hij)
  case mem_callers =>
    intro i j
    rw [mem_callers_ofCallees, dependsOn_ofCallees]
    exact and_iff_right_of_imp hlt

theorem mem_pruneSet {s : Snapshot} : i ∈ s.pruneSet ↔ i < s.size ∧ i ∉ s.reaching := by
  rw [pruneSet, mem_indices, Bool.not_eq_true', List.contains_eq_mem, decide_eq_false_iff_not]

theorem reachesInteresting_iff {s : Snapshot} :
    s.reachesInteresting i = true ↔ i < s.size ∧ i ∈ s.reaching := by
  rw [reachesInteresting, reachMarks, Array.getElem?_map]
  by_cases hi : i < s.size
  · rw [Array.getElem?_eq_getElem (by simpa using hi)]
    simp [hi]
  · rw [Array.getElem?_eq_none (by simpa using hi)]
    simp [hi]

/-- Where callers are callees seen from the other end, a number is marked exactly if its callees lead to
an interesting one, in however many steps or in none, and the numbers that are to be pruned are all
others, in ascending order. -/
theorem reachability_exact {s : Snapshot} (h : s.Transposed) :
    (∀ i, s.reachesInteresting i = true ↔ i < s.size ∧ s.Reaches i) ∧
      s.pruneSet.Pairwise (· < ·) ∧ ∀ i, i ∈ s.pruneSet ↔ i < s.size ∧ ¬s.Reaches i := by
  refine ⟨fun i => ?_, List.pairwise_lt_range.filter _, fun i => ?_⟩
  · rw [reachesInteresting_iff, h.mem_reaching_iff, and_self_left]
  · rw [mem_pruneSet, h.mem_reaching_iff]
    exact and_congr_right fun hi => not_congr (and_iff_right hi)

/-- The first three depend on each other in a circle, and two of them are interesting; none of the
others comes to them. -/
def circle : Snapshot :=
  ofCallees [[1], [2, 1], [0], [4], [], [3, 3]] fun i =>
    { reason := if i == 0 || i == 2 then some "KnownReflection" else none }

theorem reachability_exact_circle :
    circle.Transposed ∧ circle.pruneSet = [3, 4, 5] ∧ circle.Reaches 1 ∧ ¬circle.Reaches 5 := by
  have h : circle.Transposed := transposed_ofCallees (by decide)
  have hprune : circle.pruneSet = [3, 4, 5] := by decide +kernel
  obtain ⟨hmarks, -, hpruned⟩ := reachability_exact h
  refine ⟨h, hprune, ((hmarks 1).mp (by decide +kernel)).2, ((hpruned 5).mp ?_).2⟩
  rw [hprune]
  decide

/-! ## From node to node -/

theorem transposed_judged (h : g.Consistent) : (judged c program g).Transposed where
  size_callees := by simp [judged, ofVerdicts, neighbours, size]
  target_lt := by
    intro i j hij
    obtain ⟨e, -, -, hj⟩ := (mem_callees_iff h.nodes_nodup).mp hij
    rw [judged, size_ofVerdicts]
    exact (List.getElem?_eq_some_iff.mp hj).1
  mem_callers := by
    intro i j
    exact (mem_callers_iff h).trans (mem_callees_iff h.nodes_nodup).symm

/-- Going from number to callee is going along an edge from node to node. -/
theorem way_iff (h : g.Consistent) (hn : g.nodes[i]? = some n) {j : Nat} :
    Relation.ReflTransGen (judged c program g).DependsOn i j ↔
      ∃ m, g.nodes[j]? = some m ∧ Relation.ReflTransGen g.DependsOn n m := by
  constructor
  · intro hway
    induction hway with
    | refl => exact ⟨n, hn, .refl⟩
    | tail _ hstep ih =>
      obtain ⟨a, ha, hway⟩ := ih
      obtain ⟨e, he, hsource, htarget⟩ := (mem_callees_iff h.nodes_nodup).mp hstep
      have hae : e.source = a := Option.some.inj (hsource.symm.trans ha)
      exact ⟨e.target, htarget, hway.tail ⟨e, he, hae, rfl⟩⟩
  · rintro ⟨m, hm, hway⟩
    induction hway generalizing j with
    | refl =>
      rw [← idxOf_of_getElem? h.nodes_nodup hn, idxOf_of_getElem? h.nodes_nodup hm]
    | tail _ hstep ih =>
      obtain ⟨e, he, rfl, rfl⟩ := hstep
      have hsource := getElem?_idxOf (h.source_mem he)
      exact (ih hsource).tail ((mem_callees_iff h.nodes_nodup).mpr ⟨e, he, hsource, hm⟩)

theorem mem_reaching_iff (h : g.Consistent) :
    i ∈ (judged c program g).reaching ↔ ∃ n, g.nodes[i]? = some n ∧ g.Reaches c program n := by
  rw [(transposed_judged h).mem_reaching_iff, judged, size_ofVerdicts, ← judged]
  constructor
  · rintro ⟨hi, j, hway, hj⟩
    have hn : g.nodes[i]? = some g.nodes[i] := List.getElem?_eq_getElem hi
    obtain ⟨m, hm, hway⟩ := (way_iff h hn).mp hway
    obtain ⟨m', hm', hfinds⟩ := isInteresting_judged.mp hj
    obtain rfl : m' = m := Option.some.inj (hm'.symm.trans hm)
    exact ⟨g.nodes[i], hn, m', hway, hfinds⟩
  · rintro ⟨n, hn, m, hway, hfinds⟩
    have hmem : m ∈ g.nodes := h.mem_nodes_of_way (List.mem_of_getElem? hn) hway
    have hm := getElem?_idxOf hmem
    exact ⟨(List.getElem?_eq_some_iff.mp hn).1, g.nodes.idxOf m, (way_iff h hn).mpr ⟨m, hm, hway⟩,
      isInteresting_judged.mpr ⟨m, hm, hfinds⟩⟩

theorem mem_pruneSet_iff (h : g.Consistent) :
    i ∈ (judged c program g).pruneSet ↔ ∃ n, g.nodes[i]? = some n ∧ ¬g.Reaches c program n := by
  rw [mem_pruneSet, mem_reaching_iff h, judged, size_ofVerdicts]
  constructor
  · rintro ⟨hlt, hnot⟩
    have hn : g.nodes[i]? = some g.nodes[i] := List.getElem?_eq_getElem hlt
    exact ⟨g.nodes[i], hn, fun hreach => hnot ⟨g.nodes[i], hn, hreach⟩⟩
  · rintro ⟨n, hn, hnot⟩
    refine ⟨(List.getElem?_eq_some_iff.mp hn).1, ?_⟩
    rintro ⟨n', hn', hreach⟩
    exact hnot (Option.some.inj (hn'.symm.trans hn) ▸ hreach)

/-- The nodes to prune are those that reach nothing interesting. -/
theorem mem_doomed_iff (h : g.Consistent) :
    n ∈ (judged c program g).pruneSet.filterMap (judged c program g).node? ↔
      n ∈ g.nodes ∧ ¬g.Reaches c program n := by
  rw [List.mem_filterMap]
  constructor
  · rintro ⟨i, hi, hn⟩
    rw [judged, node?_ofVerdicts] at hn
    obtain ⟨n', hn', hnot⟩ := (mem_pruneSet_iff h).mp hi
    obtain rfl : n' = n := Option.some.inj (hn'.symm.trans hn)
    exact ⟨List.mem_of_getElem? hn, hnot⟩
  · rintro ⟨hmem, hnot⟩
    have hn : g.nodes[g.nodes.idxOf n]? = some n := getElem?_idxOf hmem
    refine ⟨g.nodes.idxOf n, (mem_pruneSet_iff h).mpr ⟨n, hn, hnot⟩, ?_⟩
    rw [judged, node?_ofVerdicts, hn]

theorem nodup_doomed (h : g.Consistent) :
    ((judged c program g).pruneSet.filterMap (judged c program g).node?).Nodup := by
  refine List.Nodup.filterMap ?_ (List.nodup_range.filter _)
  intro a b n ha hb
  rw [judged, node?_ofVerdicts] at ha hb
  rw [← idxOf_of_getElem? h.nodes_nodup ha, ← idxOf_of_getElem? h.nodes_nodup hb]

end Snapshot

end CallAudit

import CallAudit.Proofs.Analysis.Pruning

/-!
# Graphs that are pruned

An edge survives pruning if what it leads to reaches something interesting, and so the whole way from a
surviving node to an interesting one survives (`Judged.reaches_prune`).  The snapshot of a prepared
graph therefore has nothing to prune, and pruning it again does nothing (`prepared_nodes_reach`).
-/

namespace CallAudit

variable {c : Classifier} {program : Program} {facts : Facts} {n : Node}

/-- Every way to an interesting node survives pruning. -/
theorem Prepared.Judged.reaches_prune {u : Prepared} (hu : u.Judged c program)
    (h : u.graph.Reaches c program n) : u.prune.graph.Reaches c program n := by
  obtain ⟨m, hreach, hm⟩ := h
  -- the way is followed from its end, so that what each edge leads to is known to reach
  induction hreach using Relation.ReflTransGen.head_induction_on with
  | refl => exact Graph.reaches_of_finds hm
  | @head a b hstep hrest ih =>
    obtain ⟨e, he, hsource, htarget⟩ := hstep
    have hsurvives : e ∈ u.prune.graph.edges := by
      rw [hu.mem_edges_prune, htarget]
      exact ⟨he, m, hrest, hm⟩
    exact ih.of_dependsOn ⟨e, hsurvives, hsource, htarget⟩

namespace Prepared.Judged

variable {p : Prepared}

/-- If every node reaches something interesting there is nothing to prune. -/
theorem pruneSet_eq_nil (hp : p.Judged c program)
    (hall : ∀ n ∈ p.graph.nodes, p.graph.Reaches c program n) : p.snapshot.pruneSet = [] := by
  rw [hp.snapshot_eq, List.eq_nil_iff_forall_not_mem]
  intro i hi
  obtain ⟨n, hn, hnot⟩ := (Snapshot.mem_pruneSet_iff hp.consistent).mp hi
  exact hnot (hall n (List.mem_of_getElem? hn))

/-- A node that reaches is led by edges of the graph to a number that is interesting. -/
theorem exists_interesting (hp : p.Judged c program) (hn : n ∈ p.graph.nodes)
    (h : p.graph.Reaches c program n) : ∃ j m, p.snapshot.node? j = some m ∧
      p.snapshot.isInteresting j = true ∧ Relation.ReflTransGen p.graph.DependsOn n m := by
  obtain ⟨m, hreach, hm⟩ := h
  have hget := Snapshot.getElem?_idxOf (hp.consistent.mem_nodes_of_way hn hreach)
  refine ⟨p.graph.nodes.idxOf m, m, ?_, ?_, hreach⟩
  · rw [hp.node?_eq, hget]
  · rw [hp.snapshot_eq]
    exact Snapshot.isInteresting_judged.mpr ⟨m, hget, hm⟩

end Prepared.Judged

/-- Pruning a graph whose snapshot has nothing to prune leaves both as they are. -/
theorem Prepared.prune_of_pruneSet {p : Prepared} (h : p.snapshot.pruneSet = []) :
    p.prune.graph = p.graph ∧ p.prune.snapshot = p.snapshot ∧ p.prune.stats.prunedNodes = 0 := by
  unfold prune
  rw [h]
  exact ⟨rfl, rfl, rfl⟩

/-- In a prepared graph every node of the snapshot is interesting or reaches an interesting node, so
that there is nothing to prune, and pruning once more changes nothing. -/
theorem prepared_nodes_reach {p : Prepared} (h : Prepared.of c program facts = .ok p) :
    p.snapshot.pruneSet = [] ∧
      (∀ i < p.snapshot.size, ∃ n, p.snapshot.node? i = some n ∧ ∃ j m,
        p.snapshot.node? j = some m ∧ p.snapshot.isInteresting j = true ∧
          Relation.ReflTransGen p.graph.DependsOn n m) ∧
      p.prune.graph = p.graph ∧ p.prune.snapshot = p.snapshot ∧
      p.prune.stats.prunedNodes = 0 := by
  obtain ⟨u, -, hu, rfl⟩ := Prepared.of_ok h
  have hall : ∀ n ∈ u.prune.graph.nodes, u.prune.graph.Reaches c program n := fun n hn =>
    hu.reaches_prune (hu.mem_nodes_prune.mp hn).2.1
  have hnone := hu.prune.pruneSet_eq_nil hall
  refine ⟨hnone, ?_, Prepared.prune_of_pruneSet hnone⟩
  intro i hi
  rw [hu.prune.size_eq] at hi
  have hn : u.prune.graph.nodes[i]? = some u.prune.graph.nodes[i] := List.getElem?_eq_getElem hi
  refine ⟨u.prune.graph.nodes[i], by rw [hu.prune.node?_eq, hn], ?_⟩
  exact hu.prune.exists_interesting (List.getElem_mem hi) (hall _ (List.getElem_mem hi))

/-- The first method calls the other two. -/
def Facts.firstCallsBoth : Facts := { directCalls := [(0, 1), (0, 2)] }

/-- Of three methods one is pruned, and the two that are left reach the second. -/
theorem prepared_nodes_reach_second :
    ∃ p, Prepared.of (.single 0 1) {} Facts.firstCallsBoth = .ok p ∧ p.stats.prunedNodes = 1 ∧
      p.snapshot.size = 2 ∧ p.snapshot.pruneSet = [] := by
  have hsizes : (Prepared.of (.single 0 1) {} Facts.firstCallsBoth).toOption.map (fun p =>
      (p.stats.prunedNodes, p.snapshot.size)) = some (1, 2) := by cbv
  generalize hp : Prepared.of (.single 0 1) {} Facts.firstCallsBoth = outcome at hsizes
  cases outcome with
  | error e => exact absurd hsizes (by simp [Except.toOption])
  | ok p =>
    obtain ⟨hpruned, hsize⟩ := Prod.mk.inj (Option.some.inj hsizes)
    exact ⟨p, rfl, hpruned, hsize, (prepared_nodes_reach hp).1⟩

end CallAudit

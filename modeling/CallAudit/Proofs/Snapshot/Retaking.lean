import CallAudit.Proofs.Analysis.Reduction
import CallAudit.Proofs.Snapshot.Taking

/-!
# Snapshots of graphs that have shrunk

A snapshot that is retaken after edges were taken away is the one that would be taken of what is left,
whatever order the nodes now stand in (`retaken_as_taken`).  Nothing is asked again for it.
-/

namespace CallAudit

variable {σ : Type} {c : Classifier} {program : Program} {ask : Inquiry σ} {Good : σ → Prop}
  {memory memory' : σ} {g g' : Graph} {s : Snapshot}

namespace Snapshot

theorem judged_congr (hedges : g'.edges = g.edges) (hnodes : g'.nodes = g.nodes) :
    judged c program g' = judged c program g := by
  unfold judged ofVerdicts joinedPairs
  rw [hedges, hnodes]

/-- A snapshot is not changed by being retaken from a graph with the same edges. -/
theorem retake_of_edges (h : g.Consistent) (h' : g'.Consistent) (hedges : g'.edges = g.edges) :
    (judged c program g).retake g' = judged c program g := by
  have hnodes : g'.nodes = g.nodes := by rw [h'.nodes_eq, h.nodes_eq, hedges]
  rw [retake_judged fun n hn => hnodes ▸ hn]
  exact judged_congr hedges hnodes

/-- Whatever was done to a graph before a snapshot of it was taken: after any number of removals the
snapshot can be taken anew, asking with whatever good memory, and is then the one that is retaken without
asking.  If the removals took nothing, this is the snapshot as it was, so that pruning, which leaves a
snapshot alone if there is nothing to prune, always leaves what it would have retaken. -/
theorem retaken_as_taken (hfaithful : ask.Faithful c program Good) (hgood : Good memory)
    (builtFor : Program) (facts : Facts) (operations : List Graph.Operation)
    (htake : take c program ask (Graph.operate builtFor (.build builtFor facts) operations) memory =
      (.ok s, memory')) :
    let g := Graph.operate builtFor (.build builtFor facts) operations
    (∀ removals memory, Good memory → (take c program ask (g.removeAll removals) memory).1 =
      .ok (s.retake (g.removeAll removals))) ∧
    (∀ removals, (g.removeAll removals).edges = g.edges → s.retake (g.removeAll removals) = s) ∧
    ∀ p : Prepared, p.graph = g → p.snapshot = s →
      p.prune.graph = (g.removeNodes p.doomed).2 ∧
        p.prune.snapshot = s.retake (g.removeNodes p.doomed).2 := by
  intro g
  have h : g.Consistent := ((Graph.ordered_build builtFor facts).operate operations).toConsistent
  obtain ⟨hs, -, hdecided⟩ : s = judged c program g ∧ _ ∧ _ := take_ok hfaithful hgood htake
  refine ⟨?taken, ?same, ?pruned⟩
  case taken =>
    intro removals memory hgood
    -- the methods that are left are among those that were decided about
    have hsub : ∀ n ∈ (g.removeAll removals).nodes, n ∈ g.nodes :=
      fun n => h.mem_nodes_of_removeAll removals
    rw [hs, retake_judged hsub]
    exact take_decided hfaithful hgood fun m hm => hdecided m (hsub _ hm)
  case same =>
    intro removals hedges
    rw [hs]
    exact retake_of_edges h (h.removeAll removals) hedges
  case pruned =>
    intro p hgraph hsnapshot
    -- what pruning does where nothing is doomed is settled for all judged graphs
    have hp : p.Judged c program := by
      rw [← hgraph] at h hs hdecided
      exact ⟨h, hsnapshot.trans hs, hdecided⟩
    rw [← hgraph, ← p.graph_prune, ← hsnapshot]
    exact ⟨rfl, hp.snapshot_prune⟩

/-- The first method calls the second, and the third calls the first. -/
def calledLater : Facts := { directCalls := [(0, 1), (2, 0)] }

/-- Without the first call the caller of the first method comes before it. -/
def withoutFirstCall : List Graph.Removal := [.calls [(0, 1)]]

/-- The third method becomes the first of two, and is still the one that is an entry point. -/
theorem retaken_as_taken_reordered :
    ∃ s, (take (.single 2 0) {} (Inquiry.direct (.single 2 0) {}) (.build {} calledLater) ()).1 = .ok s ∧
      s.nodes = #[.method 0, .method 1, .method 2] ∧ s.entries = [2] ∧ s.interesting = [0] ∧
      ∃ s', (take (.single 2 0) {} (Inquiry.direct (.single 2 0) {})
          ((Graph.build {} calledLater).removeAll withoutFirstCall) ()).1 = .ok s' ∧
        s' = s.retake ((Graph.build {} calledLater).removeAll withoutFirstCall) ∧
        s'.nodes = #[.method 2, .method 0] ∧ s'.entries = [0] ∧ s'.interesting = [1] := by
  have hbefore : (take (.single 2 0) {} (Inquiry.direct (.single 2 0) {})
      (.build {} calledLater) ()).1.toOption.map (fun s => (s.nodes, s.entries, s.interesting)) =
      some (#[.method 0, .method 1, .method 2], [2], [0]) := by decide +kernel
  have hafter : (take (.single 2 0) {} (Inquiry.direct (.single 2 0) {})
      ((Graph.build {} calledLater).removeAll withoutFirstCall) ()).1.toOption.map
        (fun s => (s.nodes, s.entries, s.interesting)) =
      some (#[.method 2, .method 0], [0], [1]) := by decide +kernel
  obtain ⟨s, htake, hs⟩ := exists_ok_of_map_toOption hbefore
  have hretaken := (retaken_as_taken Inquiry.direct_faithful trivial {} calledLater [] (s := s)
    (Prod.ext htake rfl)).1 withoutFirstCall () trivial
  obtain ⟨s', htake', hs'⟩ := exists_ok_of_map_toOption hafter
  simp only [Prod.mk.injEq] at hs hs'
  obtain ⟨hnodes, hentries, hinteresting⟩ := hs
  exact ⟨s, htake, hnodes, hentries, hinteresting, s', htake',
    Except.ok.inj (htake'.symm.trans hretaken), hs'⟩

end Snapshot

end CallAudit

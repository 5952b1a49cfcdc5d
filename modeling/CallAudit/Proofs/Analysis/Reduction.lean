import CallAudit.Proofs.Dependency.Construction
import CallAudit.Proofs.Reachability

/-!
# What the reduction leaves

The graph before pruning has the edges that survive the removal of calls and those of the constructor
pass (`unpruned_ok`).  Pruning keeps an edge exactly if what it leads to reaches something interesting
(`Judged.mem_edges_prune`), and a node exactly if it touches such an edge.
-/

namespace CallAudit

variable {σ : Type} {c : Classifier} {program : Program} {facts : Facts} {ask : Inquiry σ}
  {Good : σ → Prop} {memory memory' : σ} {e : Edge} {n : Node}

namespace Prepared

/-- A prepared graph whose snapshot says what the classifier says. -/
structure Judged (c : Classifier) (program : Program) (p : Prepared) : Prop where
  consistent : p.graph.Consistent
  snapshot_eq : p.snapshot = Snapshot.judged c program p.graph
  decided : ∀ m, .method m ∈ p.graph.nodes → ∃ reason, c.reason? program m = .ok reason

namespace Judged

variable {p : Prepared} {i : Nat}

theorem size_callers (hp : p.Judged c program) : p.snapshot.callers.size = p.graph.nodes.length := by
  rw [hp.snapshot_eq]
  exact Snapshot.size_callers_ofVerdicts

theorem size_eq (hp : p.Judged c program) : p.snapshot.size = p.graph.nodes.length := by
  rw [hp.snapshot_eq]
  exact Snapshot.size_ofVerdicts

theorem node?_eq (hp : p.Judged c program) : p.snapshot.node? i = p.graph.nodes[i]? := by
  rw [hp.snapshot_eq]
  exact Snapshot.node?_ofVerdicts

theorem index?_eq_some_iff (hp : p.Judged c program) :
    p.snapshot.index? n = some i ↔ p.graph.nodes[i]? = some n := by
  rw [hp.snapshot_eq]
  exact Snapshot.index?_eq_some_iff hp.consistent.nodes_nodup

/-- An interesting number stands for a method that the classifier gives a reason for. -/
theorem exists_reason (hp : p.Judged c program) (hi : p.snapshot.isInteresting i = true) :
    ∃ m reason, p.graph.nodes[i]? = some (.method m) ∧ c.reason? program m = .ok (some reason) ∧
      (p.snapshot.verdict i).reason = some reason := by
  rw [hp.snapshot_eq] at hi ⊢
  obtain ⟨n, hn, m, reason, rfl, hreason⟩ := Snapshot.isInteresting_judged.mp hi
  refine ⟨m, reason, hn, hreason, ?_⟩
  rw [Snapshot.verdict_of_node hn, Classifier.verdict, hreason]
  rfl

theorem callers_eq (hp : p.Judged c program) (hi : p.graph.nodes[i]? = some n) :
    p.snapshot.callers[i]?.getD [] = (p.graph.callersOf n).map p.graph.nodes.idxOf := by
  rw [hp.snapshot_eq, Snapshot.judged, Snapshot.callers_ofVerdicts hp.consistent hi,
    Option.getD_some]

end Judged

/-- A graph before pruning: the calls that are needless are gone from it, and the dependencies of
constructors on the interesting methods that only dispatch leads to have come. -/
structure Reduced (c : Classifier) (program : Program) (facts : Facts) (u : Prepared) : Prop
    extends Judged c program u where
  mem_edges : ∀ e, e ∈ u.graph.edges ↔ e ∈ (withoutNeedlessCalls program facts).1.edges ∨
    e ∈ Graph.constructionEdges c program (withoutNeedlessCalls program facts).1
      (withoutNeedlessCalls program facts).1.virtualTargets

theorem consistent_withoutNeedlessCalls (program : Program) (facts : Facts) :
    (withoutNeedlessCalls program facts).1.Consistent :=
  (Graph.consistent_build program facts).keepEdges.keepEdges

theorem unpruned_ok {u : Prepared} (hfaithful : ask.Faithful c program Good) (hgood : Good memory)
    (h : (unpruned c program facts ask memory).1 = .ok u) : u.Reduced c program facts := by
  have hconsistent := consistent_withoutNeedlessCalls program facts
  unfold unpruned at h
  generalize hreduced : withoutNeedlessCalls program facts = reduced at h hconsistent
  obtain ⟨g, stats⟩ := reduced
  dsimp only at h hconsistent
  -- the constructor pass: it keeps consistency and hands on a memory that is good
  have hgrown : (g.addConstructorEdges program ask memory).2.1.Consistent :=
    hconsistent.addConstructorEdges
  generalize hadd : g.addConstructorEdges program ask memory = outcome at h hgrown
  obtain ⟨result, g', memory₁⟩ := outcome
  cases result with
  | error err => exact absurd h (by simp)
  | ok added =>
    obtain ⟨hedges, hgood'⟩ := Graph.addConstructorEdges_ok hfaithful hgood hadd
    dsimp only at h hgrown
    -- the snapshot: it asks with that memory
    generalize htake : Snapshot.take c program ask g' memory₁ = outcome at h
    obtain ⟨result, memory₂⟩ := outcome
    cases result with
    | error err => exact absurd h (by simp)
    | ok snapshot =>
      obtain ⟨hsnapshot, -, hdecided⟩ := Snapshot.take_ok hfaithful hgood' htake
      obtain rfl := Except.ok.inj h
      refine ⟨⟨hgrown, hsnapshot, hdecided⟩, ?_⟩
      rw [hreduced]
      exact hedges

/-! ## Pruning -/

/-- The nodes that pruning is to take away. -/
def doomed (p : Prepared) : List Node :=
  p.snapshot.pruneSet.filterMap p.snapshot.node?

theorem graph_prune (p : Prepared) : p.prune.graph = (p.graph.removeNodes p.doomed).2 := by
  show (if p.doomed.isEmpty then p.graph else (p.graph.removeNodes p.doomed).2) = _
  split
  · next hempty =>
    have hkeep : p.graph.edges.filter (fun e =>
        !p.doomed.contains e.source && !p.doomed.contains e.target) = p.graph.edges := by
      rw [List.isEmpty_iff.mp hempty, List.filter_eq_self]
      simp
    rw [Graph.removeNodes, Graph.keepEdges, hkeep]
    simp
  · rfl

theorem edges_prune (p : Prepared) : p.prune.graph.edges =
    p.graph.edges.filter fun e => !p.doomed.contains e.source && !p.doomed.contains e.target := by
  rw [graph_prune, Graph.removeNodes, Graph.edges_keepEdges]

namespace Judged

variable {u : Prepared}

theorem mem_doomed (hu : u.Judged c program) :
    n ∈ u.doomed ↔ n ∈ u.graph.nodes ∧ ¬u.graph.Reaches c program n := by
  rw [doomed, hu.snapshot_eq]
  exact Snapshot.mem_doomed_iff hu.consistent

theorem not_doomed (hu : u.Judged c program) (hn : n ∈ u.graph.nodes) :
    (!u.doomed.contains n) = true ↔ u.graph.Reaches c program n := by
  rw [Bool.not_eq_true', List.contains_eq_mem, decide_eq_false_iff_not, hu.mem_doomed, not_and,
    not_not]
  exact ⟨fun h => h hn, fun h _ => h⟩

/-- An edge survives exactly if what it leads to reaches something interesting. -/
theorem mem_edges_prune (hu : u.Judged c program) :
    e ∈ u.prune.graph.edges ↔ e ∈ u.graph.edges ∧ u.graph.Reaches c program e.target := by
  rw [edges_prune, List.mem_filter, Bool.and_eq_true]
  refine and_congr_right ?_
  intro he
  rw [hu.not_doomed (hu.consistent.source_mem he), hu.not_doomed (hu.consistent.target_mem he)]
  exact and_iff_right_of_imp fun h => h.of_dependsOn ⟨e, he, rfl, rfl⟩

theorem nodes_prune_subset (hu : u.Judged c program) (hn : n ∈ u.prune.graph.nodes) :
    n ∈ u.graph.nodes := by
  rw [graph_prune] at hn
  exact hu.consistent.mem_nodes_of_removeAll [.nodes u.doomed] hn

/-- The snapshot is as good as retaken, also where there is nothing to prune. -/
theorem snapshot_prune (hu : u.Judged c program) :
    u.prune.snapshot = u.snapshot.retake u.prune.graph := by
  show (if u.doomed.isEmpty then u.snapshot else u.snapshot.retake u.prune.graph) = _
  split
  · next hempty =>
    have hsame : u.prune.graph = u.graph := if_pos hempty
    rw [hsame, hu.snapshot_eq, Snapshot.retake_judged fun _ hn => hn]
  · rfl

/-- Pruning leaves a graph whose snapshot again says what the classifier says. -/
theorem prune (hu : u.Judged c program) : u.prune.Judged c program where
  consistent := by
    rw [graph_prune]
    exact hu.consistent.keepEdges
  snapshot_eq := by
    rw [hu.snapshot_prune, hu.snapshot_eq, Snapshot.retake_judged fun n hn => hu.nodes_prune_subset hn]
  decided := fun m hm => hu.decided m (hu.nodes_prune_subset hm)

end Judged

/-- A preparation that succeeds prunes a graph that was reduced. -/
theorem of_ok {p : Prepared} (h : Prepared.of c program facts = .ok p) :
    ∃ u, (unpruned c program facts (Inquiry.remembering c program) []).1 = .ok u ∧
      u.Reduced c program facts ∧ p = u.prune := by
  unfold Prepared.of build at h
  generalize hunpruned : unpruned c program facts (Inquiry.remembering c program) [] = outcome at h
  obtain ⟨result, memory⟩ := outcome
  cases result with
  | error err => exact absurd h (by simp)
  | ok u =>
    refine ⟨u, rfl, ?_, (Except.ok.inj h).symm⟩
    exact unpruned_ok Inquiry.remembering_faithful Inquiry.remembers_nil
      (congrArg Prod.fst hunpruned)

end Prepared

end CallAudit

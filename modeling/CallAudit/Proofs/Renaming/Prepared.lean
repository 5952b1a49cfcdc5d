import CallAudit.Proofs.Analysis.Pruning
import CallAudit.Proofs.Classifier.Settled
import CallAudit.Proofs.Renaming.Graph

/-!
# Prepared graphs at other places

Whether a graph can be prepared depends on whether the classifier can answer what it is asked
(`Classifier.Settles`), and it is asked about the same methods at whatever places they are.  So from
the same facts at other places either no graph can be prepared, because the classifier fails, or the
same graph is, at other places and with the same statistics (`Renamed.prepared`).
-/

namespace CallAudit

variable {σ : Type} {α β : Type} {c c' : Classifier} {program program' : Program}
  {facts facts' : Facts} {ask : Inquiry σ} {Good : σ → Prop} {memory : σ}

/-! ## The graph before pruning -/

theorem Graph.Renamed.marked {ρ : Renaming} {g g' : Graph} (h : g.Renamed ρ g') :
    Graph.Renamed ρ { g with constructorPassDone := true }
      { g' with constructorPassDone := true } :=
  ⟨h.consistent.marked, h.consistent'.marked, h.mem_edges⟩

namespace Prepared

/-- The graph after a constructor pass that was decided. -/
def extended (c : Classifier) (program : Program) (facts : Facts) : Graph :=
  let g := (withoutNeedlessCalls program facts).1
  { g with constructorPassDone := true }.addEdges
    (Graph.constructionEdges c program g g.virtualTargets)

/-- The graph before pruning, if the classifier can decide. -/
@[irreducible] def decided (c : Classifier) (program : Program) (facts : Facts) : Prepared :=
  let reduced := withoutNeedlessCalls program facts
  let g := extended c program facts
  { graph := g
    snapshot := .judged c program g
    stats := { reduced.2 with
      constructorEdgesAdded := g.edges.length - reduced.1.edges.length } }

theorem graph_decided : (decided c program facts).graph = extended c program facts := by
  simp only [decided]

theorem snapshot_decided :
    (decided c program facts).snapshot = .judged c program (extended c program facts) := by
  simp only [decided]

theorem stats_decided : (decided c program facts).stats =
    { (withoutNeedlessCalls program facts).2 with
      constructorEdgesAdded := (extended c program facts).edges.length -
        (withoutNeedlessCalls program facts).1.edges.length } := by
  simp only [decided]

/-- What the classifier is asked about: the methods that dispatch leads to and that need construction,
and every method of the graph. -/
def Asks (c : Classifier) (program : Program) (facts : Facts) (m : MethodId) : Prop :=
  (m ∈ (withoutNeedlessCalls program facts).1.virtualTargets ∧
      Graph.needsConstruction program (withoutNeedlessCalls program facts).1 m = true) ∨
    .method m ∈ (extended c program facts).nodes

theorem consistent_extended (c : Classifier) (program : Program) (facts : Facts) :
    (extended c program facts).Consistent := by
  unfold extended
  exact (consistent_withoutNeedlessCalls program facts).marked.addEdges

theorem judged_decided (h : ∀ m, Asks c program facts m →
    ∃ reason, c.reason? program m = .ok reason) : (decided c program facts).Judged c program where
  consistent := by
    rw [graph_decided]
    exact consistent_extended c program facts
  snapshot_eq := by rw [snapshot_decided, graph_decided]
  decided := fun m hm => h m (Or.inr (graph_decided (c := c) ▸ hm))

theorem constructorPassDone_withoutNeedlessCalls (program : Program) (facts : Facts) :
    (withoutNeedlessCalls program facts).1.constructorPassDone = false := by
  unfold withoutNeedlessCalls
  dsimp only
  rw [Graph.removeCalls, Graph.constructorPassDone_keepEdges, Graph.removeVirtualCalls,
    Graph.constructorPassDone_keepEdges, Graph.constructorPassDone_build]

theorem settles_unpruned (hfaithful : ask.Faithful c program Good) (hgood : Good memory) :
    c.Settles program (Asks c program facts) (unpruned c program facts ask memory).1 ∧
      ∀ u, (unpruned c program facts ask memory).1 = .ok u → u = decided c program facts := by
  have hpending := constructorPassDone_withoutNeedlessCalls program facts
  unfold unpruned Asks decided extended
  generalize withoutNeedlessCalls program facts = reduced at hpending
  obtain ⟨g, stats⟩ := reduced
  dsimp only at hpending ⊢
  rw [Graph.addConstructorEdges, hpending, if_neg Bool.false_ne_true]
  dsimp only
  -- the pass asks about the targets that need construction
  have hpass : c.Settles program
      (fun m => m ∈ g.virtualTargets ∧
        Graph.needsConstruction program { g with constructorPassDone := true } m = true)
      (Graph.newConstructorEdges program { g with constructorPassDone := true } ask
        g.virtualTargets memory).1 := Graph.settles_newConstructorEdges hfaithful hgood
  generalize hnew : Graph.newConstructorEdges program { g with constructorPassDone := true } ask
    g.virtualTargets memory = passed at hpass
  obtain ⟨result, memory₁⟩ := passed
  cases result with
  | error e =>
    obtain ⟨m, hm, hreason⟩ := hpass.error e rfl
    exact ⟨.of_error hreason (Or.inl hm), fun u hu => by cases hu⟩
  | ok edges =>
    obtain ⟨rfl, hgood₁⟩ := Graph.newConstructorEdges_ok hfaithful hgood hnew
    dsimp only
    -- the snapshot asks about every method of the graph that the pass leaves
    generalize hextended : Graph.addEdges { g with constructorPassDone := true }
      (Graph.constructionEdges c program { g with constructorPassDone := true }
        g.virtualTargets) = g'
    have hsame : Graph.addEdges { g with constructorPassDone := true }
        (Graph.constructionEdges c program g g.virtualTargets) = g' := hextended
    rw [hsame]
    have htakes : c.Settles program (fun m => .method m ∈ g'.nodes)
        (Snapshot.take c program ask g' memory₁).1 := Snapshot.settles_take hfaithful hgood₁
    generalize htake : Snapshot.take c program ask g' memory₁ = taken at htakes
    obtain ⟨result, memory₂⟩ := taken
    cases result with
    | error e =>
      obtain ⟨m, hm, hreason⟩ := htakes.error e rfl
      exact ⟨.of_error hreason (Or.inr hm), fun u hu => by cases hu⟩
    | ok s =>
      obtain ⟨rfl, -, -⟩ := Snapshot.take_ok hfaithful hgood₁ htake
      refine ⟨⟨fun u _ m hm => ?_, fun e he => by cases he⟩, fun u hu => ?_⟩
      · exact hm.elim (hpass.ok _ rfl m) (htakes.ok _ rfl m)
      · exact (Except.ok.inj hu).symm

/-- What comes of preparing a graph. -/
theorem settles_of (c : Classifier) (program : Program) (facts : Facts) :
    c.Settles program (Asks c program facts) (Prepared.of c program facts) ∧
      ∀ p, Prepared.of c program facts = .ok p → p = (decided c program facts).prune := by
  have hunpruned : c.Settles program (Asks c program facts)
      (unpruned c program facts (Inquiry.remembering c program) []).1 ∧ _ :=
    settles_unpruned Inquiry.remembering_faithful Inquiry.remembers_nil
  obtain ⟨hsettles, heq⟩ := hunpruned
  unfold Prepared.of build
  generalize unpruned c program facts (Inquiry.remembering c program) [] = outcome at hsettles heq
  obtain ⟨result, memory⟩ := outcome
  cases result with
  | error e =>
    obtain ⟨m, hm, hreason⟩ := hsettles.error e rfl
    exact ⟨.of_error hreason hm, fun p hp => by cases hp⟩
  | ok u =>
    obtain rfl := heq u rfl
    refine ⟨⟨fun _ _ => hsettles.ok _ rfl, fun e he => by cases he⟩, fun p hp => ?_⟩
    exact (Except.ok.inj hp).symm

/-! ## Graphs at other places -/

/-- Prepared graphs that say what the classifiers say and differ in nothing but places. -/
structure Renamed (ρ : Renaming) (c : Classifier) (program : Program) (p : Prepared)
    (c' : Classifier) (program' : Program) (p' : Prepared) : Prop where
  judged : p.Judged c program
  judged' : p'.Judged c' program'
  graph : p.graph.Renamed ρ p'.graph
  stats : p'.stats = p.stats

variable {ρ : Renaming} {p p' : Prepared}

theorem Renamed.length_doomed (h : Renamed ρ c program p c' program' p')
    (hs : CallAudit.Renamed ρ program program' facts facts' c c') :
    p'.doomed.length = p.doomed.length := by
  have hnodup : ∀ {c : Classifier} {program : Program} {p : Prepared}, p.Judged c program →
      p.doomed.Nodup := by
    intro c program p hp
    rw [doomed, hp.snapshot_eq]
    exact Snapshot.nodup_doomed hp.consistent
  have hperm : (p.doomed.map ρ.node).Perm p'.doomed := by
    refine perm_map_of_mem_iff (g := ρ.symm.node) (fun _ => Renaming.symm_node_node)
      (fun _ => Renaming.node_symm_node) (hnodup h.judged) (hnodup h.judged') fun n => ?_
    rw [h.judged.mem_doomed, h.judged'.mem_doomed, h.graph.mem_nodes, hs.reaches h.graph]
  rw [← hperm.length_eq, List.length_map]

theorem Renamed.prune (h : Renamed ρ c program p c' program' p')
    (hs : CallAudit.Renamed ρ program program' facts facts' c c') :
    Renamed ρ c program p.prune c' program' p'.prune := by
  have hgraph : p.prune.graph.Renamed ρ p'.prune.graph := by
    refine ⟨h.judged.prune.consistent, h.judged'.prune.consistent, fun e => ?_⟩
    rw [h.judged.mem_edges_prune, h.judged'.mem_edges_prune, h.graph.mem_edges]
    exact and_congr_right fun _ => hs.reaches h.graph e.target
  refine ⟨h.judged.prune, h.judged'.prune, hgraph, ?_⟩
  have hsize : p'.prune.snapshot.size = p.prune.snapshot.size := by
    rw [h.judged.prune.size_eq, h.judged'.prune.size_eq, hgraph.length_nodes]
  have hpairs : p'.prune.snapshot.edgeCount = p.prune.snapshot.edgeCount := by
    rw [h.judged.prune.snapshot_eq, h.judged'.prune.snapshot_eq, Snapshot.judged, Snapshot.judged,
      Snapshot.edgeCount_ofVerdicts hgraph.consistent,
      Snapshot.edgeCount_ofVerdicts hgraph.consistent', hgraph.length_joined]
  show { p'.stats with
      prunedNodes := p'.doomed.length
      finalNodes := p'.prune.snapshot.size
      finalEdges := p'.prune.snapshot.edgeCount } = { p.stats with
      prunedNodes := p.doomed.length
      finalNodes := p.prune.snapshot.size
      finalEdges := p.prune.snapshot.edgeCount }
  rw [h.stats, h.length_doomed hs, hsize, hpairs]

end Prepared

namespace Renamed

variable {ρ : Renaming}

theorem extended (h : Renamed ρ program program' facts facts' c c') :
    Graph.Renamed ρ (Prepared.extended c program facts) (Prepared.extended c' program' facts') := by
  have hg := h.withoutNeedlessCalls.1
  unfold Prepared.extended
  refine hg.marked.addEdges (h.mem_constructionEdges hg fun m => ?_)
  rw [Prepared.mem_virtualTargets_withoutNeedlessCalls,
    Prepared.mem_virtualTargets_withoutNeedlessCalls, h.dispatchedTo]

theorem asks (h : Renamed ρ program program' facts facts' c c') (m : MethodId) :
    Prepared.Asks c' program' facts' (ρ.method m) ↔ Prepared.Asks c program facts m := by
  unfold Prepared.Asks
  rw [Prepared.mem_virtualTargets_withoutNeedlessCalls,
    Prepared.mem_virtualTargets_withoutNeedlessCalls, h.dispatchedTo,
    h.needsConstruction h.withoutNeedlessCalls.1]
  exact or_congr_right (h.extended.mem_nodes (.method m))

theorem decided (h : Renamed ρ program program' facts facts' c c')
    (hdecided : ∀ m, Prepared.Asks c program facts m →
      ∃ reason, c.reason? program m = .ok reason) :
    Prepared.Renamed ρ c program (Prepared.decided c program facts) c' program'
      (Prepared.decided c' program' facts') where
  judged := Prepared.judged_decided hdecided
  judged' := Prepared.judged_decided fun m hm => by
    rw [← ρ.method.apply_symm_apply m] at hm ⊢
    rw [h.classifier.reason?]
    exact hdecided _ ((h.asks _).mp hm)
  graph := by
    rw [Prepared.graph_decided, Prepared.graph_decided]
    exact h.extended
  stats := by
    rw [Prepared.stats_decided, Prepared.stats_decided, h.extended.length_edges,
      h.withoutNeedlessCalls.1.length_edges, h.withoutNeedlessCalls.2]

/-- From facts at other places either no graph can be prepared, because the classifier fails, or the
same graph is, at other places. -/
theorem prepared (h : Renamed ρ program program' facts facts' c c') :
    (∃ e e', Prepared.of c program facts = .error e ∧ Prepared.of c' program' facts' = .error e' ∧
      (∃ m, c.reason? program m = .error e) ∧ ∃ m, c'.reason? program' m = .error e') ∨
    ∃ p p', Prepared.of c program facts = .ok p ∧ Prepared.of c' program' facts' = .ok p' ∧
      Prepared.Renamed ρ c program p c' program' p' := by
  obtain ⟨hsettles, heq⟩ := Prepared.settles_of c program facts
  obtain ⟨hsettles', heq'⟩ := Prepared.settles_of c' program' facts'
  have hreason : ∀ m, c'.reason? program' (ρ.method m) = c.reason? program m := h.classifier.reason?
  cases hp : Prepared.of c program facts with
  | error e =>
    obtain ⟨m, hm, hfails⟩ := hsettles.error e hp
    cases hp' : Prepared.of c' program' facts' with
    | error e' =>
      obtain ⟨m', -, hfails'⟩ := hsettles'.error e' hp'
      exact Or.inl ⟨e, e', rfl, rfl, ⟨m, hfails⟩, m', hfails'⟩
    | ok p' =>
      -- the method on which the one fails is asked about in the other, too
      obtain ⟨reason, hdecided⟩ := hsettles'.ok p' hp' _ ((h.asks m).mpr hm)
      rw [hreason, hfails] at hdecided
      cases hdecided
  | ok p =>
    have hdecided := hsettles.ok p hp
    cases hp' : Prepared.of c' program' facts' with
    | error e' =>
      obtain ⟨m', hm', hfails'⟩ := hsettles'.error e' hp'
      rw [← ρ.method.apply_symm_apply m'] at hm' hfails'
      obtain ⟨reason, hreason'⟩ := hdecided _ ((h.asks _).mp hm')
      rw [hreason, hreason'] at hfails'
      cases hfails'
    | ok p' =>
      refine Or.inr ⟨p, p', rfl, rfl, ?_⟩
      rw [heq p hp, heq' p' hp']
      exact (h.decided hdecided).prune h

end Renamed

end CallAudit

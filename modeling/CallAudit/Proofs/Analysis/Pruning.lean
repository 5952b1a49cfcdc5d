import CallAudit.Proofs.Analysis.Chains
import Mathlib

/-!
# What pruning loses

Pruning takes away the nodes that reach nothing interesting, and with them the edges that touch them.
A node lives as long as some edge touches it, so that an interesting node is lost as well if no edge of
it survives: it is `Graph.Stranded`.  `pruning_loses_stranded` says that nothing else is lost.
-/

namespace CallAudit

variable {c : Classifier} {program : Program} {facts : Facts} {n : Node}

/-- An interesting node that nothing depends on, and that depends on nothing that reaches. -/
structure Graph.Stranded (c : Classifier) (program : Program) (g : Graph) (n : Node) : Prop where
  mem : n ∈ g.nodes
  finds : c.Finds program n
  uncalled : ∀ e ∈ g.edges, e.target ≠ n
  dead_ends : ∀ e ∈ g.edges, e.source = n → ¬g.Reaches c program e.target

namespace Snapshot

/-- As many numbers pass a test as nodes that pass it. -/
theorem length_indices_judged {g : Graph} {test : Nat → Bool} {q : Node → Bool}
    (htest : ∀ i n, g.nodes[i]? = some n → test i = q n) :
    ((judged c program g).indices test).length = (g.nodes.filter q).length := by
  have hnodes : g.nodes = (List.range g.nodes.length).map fun i => g.nodes.getD i (.method 0) := by
    refine List.ext_getElem (by simp) ?_
    intro i hi _
    rw [List.getElem_map, List.getElem_range, List.getD_eq_getElem?_getD,
      List.getElem?_eq_getElem hi, Option.getD_some]
  have hsize : (judged c program g).size = g.nodes.length := size_ofVerdicts
  conv_rhs => rw [hnodes, List.filter_map, List.length_map]
  rw [indices, hsize]
  congr 1
  refine List.filter_congr ?_
  intro i hi
  have hlt : i < g.nodes.length := List.mem_range.mp hi
  have hn : g.nodes[i]? = some g.nodes[i] := List.getElem?_eq_getElem hlt
  rw [htest i _ hn, Function.comp_apply, List.getD_eq_getElem?_getD, hn, Option.getD_some]

theorem length_interesting_judged {g : Graph} : (judged c program g).interesting.length =
    (g.nodes.filter fun n => (c.verdict program n).reason.isSome).length := by
  refine length_indices_judged ?_
  intro i n hn
  rw [isInteresting, verdict_of_node hn]

end Snapshot

namespace Prepared.Judged

variable {u : Prepared}

/-- A node survives pruning exactly if it reaches something interesting and is not stranded. -/
theorem mem_nodes_prune (hu : u.Judged c program) : n ∈ u.prune.graph.nodes ↔
    n ∈ u.graph.nodes ∧ u.graph.Reaches c program n ∧ ¬u.graph.Stranded c program n := by
  rw [hu.prune.consistent.mem_nodes]
  constructor
  · rintro ⟨e, he, hend⟩
    obtain ⟨he, hreach⟩ := hu.mem_edges_prune.mp he
    rcases hend with rfl | rfl
    · refine ⟨hu.consistent.source_mem he, hreach.of_dependsOn ⟨e, he, rfl, rfl⟩, ?_⟩
      exact fun hstranded => hstranded.dead_ends e he rfl hreach
    · exact ⟨hu.consistent.target_mem he, hreach, fun hstranded => hstranded.uncalled e he rfl⟩
  · rintro ⟨hmem, hreach, hnot⟩
    by_cases hcalled : ∃ e ∈ u.graph.edges, e.target = n
    · obtain ⟨e, he, rfl⟩ := hcalled
      exact ⟨e, hu.mem_edges_prune.mpr ⟨he, hreach⟩, Or.inr rfl⟩
    by_cases hcalls : ∃ e ∈ u.graph.edges, e.source = n ∧ u.graph.Reaches c program e.target
    · obtain ⟨e, he, rfl, hreach'⟩ := hcalls
      exact ⟨e, hu.mem_edges_prune.mpr ⟨he, hreach'⟩, Or.inl rfl⟩
    -- what reaches without an edge that does is itself interesting, hence stranded
    refine absurd ⟨hmem, ?_, ?_, ?_⟩ hnot
    · rcases hreach.finds_or_step with hfinds | ⟨b, ⟨e, he, rfl, rfl⟩, hb⟩
      · exact hfinds
      · exact absurd ⟨e, he, rfl, hb⟩ hcalls
    · exact fun e he htarget => hcalled ⟨e, he, htarget⟩
    · exact fun e he hsource hb => hcalls ⟨e, he, hsource, hb⟩

/-- The nodes before pruning are those that are pruned, those that stay and those that are lost. -/
theorem nodes_perm (hu : u.Judged c program) {lost : List Node} (hnodup : lost.Nodup)
    (hlost : ∀ n, n ∈ lost ↔ u.graph.Stranded c program n) :
    u.graph.nodes.Perm (u.doomed ++ (u.prune.graph.nodes ++ lost)) := by
  have hdoomed : u.doomed.Nodup := by
    rw [doomed, hu.snapshot_eq]
    exact Snapshot.nodup_doomed hu.consistent
  -- no list holds a node twice, so that it is enough to compare their members
  refine (List.perm_ext_iff_of_nodup hu.consistent.nodes_nodup ?_).mpr ?_
  · rw [List.nodup_append, List.nodup_append]
    refine ⟨hdoomed, ⟨hu.prune.consistent.nodes_nodup, hnodup, ?_⟩, ?_⟩
    · rintro a ha b hb rfl
      exact (hu.mem_nodes_prune.mp ha).2.2 ((hlost a).mp hb)
    · rintro a ha b hb rfl
      have hnot := (hu.mem_doomed.mp ha).2
      rcases List.mem_append.mp hb with hb | hb
      · exact hnot (hu.mem_nodes_prune.mp hb).2.1
      · exact hnot (Graph.reaches_of_finds ((hlost a).mp hb).finds)
  · intro n
    rw [List.mem_append, List.mem_append, hu.mem_doomed, hu.mem_nodes_prune, hlost]
    constructor
    · intro hmem
      by_cases hreach : u.graph.Reaches c program n
      · by_cases hstranded : u.graph.Stranded c program n
        · exact Or.inr (Or.inr hstranded)
        · exact Or.inr (Or.inl ⟨hmem, hreach, hstranded⟩)
      · exact Or.inl ⟨hmem, hreach⟩
    · rintro (⟨hmem, -⟩ | ⟨hmem, -⟩ | hstranded)
      · exact hmem
      · exact hmem
      · exact hstranded.mem

/-- What the statistics of pruning count comes to all nodes but the lost ones. -/
theorem count_prune (hu : u.Judged c program) {lost : List Node} (hnodup : lost.Nodup)
    (hlost : ∀ n, n ∈ lost ↔ u.graph.Stranded c program n) :
    u.prune.stats.prunedNodes + u.prune.stats.finalNodes + lost.length = u.graph.nodes.length := by
  have hpruned : u.prune.stats.prunedNodes = u.doomed.length := rfl
  have hfinal : u.prune.stats.finalNodes = u.prune.graph.nodes.length := by
    show u.prune.snapshot.size = _
    rw [hu.prune.snapshot_eq]
    exact Snapshot.size_ofVerdicts
  rw [hpruned, hfinal, (hu.nodes_perm hnodup hlost).length_eq, List.length_append,
    List.length_append]
  omega

/-- Of the interesting nodes, those stay that are not lost. -/
theorem length_interesting_prune (hu : u.Judged c program) {lost : List Node} (hnodup : lost.Nodup)
    (hlost : ∀ n, n ∈ lost ↔ u.graph.Stranded c program n) :
    u.prune.snapshot.interesting.length + lost.length = u.snapshot.interesting.length := by
  have hperm := (hu.nodes_perm hnodup hlost).filter fun n => (c.verdict program n).reason.isSome
  -- of the three parts, the first holds nothing interesting and the last nothing else
  have hdoomed : u.doomed.filter (fun n => (c.verdict program n).reason.isSome) = [] := by
    rw [List.filter_eq_nil_iff]
    intro n hn hfinds
    exact (hu.mem_doomed.mp hn).2 (Graph.reaches_of_finds (Classifier.finds_iff.mpr hfinds))
  have hkept : lost.filter (fun n => (c.verdict program n).reason.isSome) = lost := by
    rw [List.filter_eq_self]
    exact fun n hn => Classifier.finds_iff.mp ((hlost n).mp hn).finds
  rw [List.filter_append, List.filter_append, hdoomed, hkept, List.nil_append] at hperm
  rw [hu.prune.snapshot_eq, hu.snapshot_eq, Snapshot.length_interesting_judged,
    Snapshot.length_interesting_judged, hperm.length_eq, List.length_append]

end Prepared.Judged

namespace Analysis

variable {options : AnalysisOptions} {p : Prepared} {es : List Entry} {m : MethodId}

/-- An interesting method of the snapshot is an end of some chain, or is listed as unreported. -/
theorem reported_or_unreported (hp : p.Judged c program)
    (hes : reported options program facts p = .ok es) (hm : .method m ∈ p.graph.nodes)
    (hfinds : c.Finds program (.method m)) (known : List Reason) :
    (∃ e ∈ es, e.chain.source? = some (.method m) ∨ e.chain.destination? = some (.method m)) ∨
      program.display (.method m) ∈
        ((ledgerOf options program p es).summarize program p.snapshot known).unreported := by
  have hget := Snapshot.getElem?_idxOf hm
  generalize p.graph.nodes.idxOf (.method m) = i at hget
  have hnode : p.snapshot.node? i = some (.method m) := by
    rw [hp.node?_eq, hget]
  cases hreported : (ledgerOf options program p es).isReported i with
  | true =>
    left
    rw [ledgerOf, Ledger.isReported_enterAll, Ledger.isReported_empty] at hreported
    obtain ⟨-, e, he, hends⟩ := hreported.resolve_left Bool.false_ne_true
    obtain ⟨path, hpath⟩ := reported_route hp hes he
    refine ⟨e, he, hends.imp ?_ ?_⟩
    · rintro rfl
      rw [hpath.source?, hnode]
    · rintro rfl
      rw [hpath.destination?, hnode]
  | false =>
    right
    refine List.mem_filterMap.mpr ⟨i, List.mem_filter.mpr ⟨?_, by simp [hreported]⟩, ?_⟩
    · rw [hp.snapshot_eq]
      exact Snapshot.mem_interesting_judged.mpr ⟨_, hget, hfinds⟩
    · rw [hnode, Option.map_some]

end Analysis

/-- Pruning keeps the nodes that are interesting or reach something interesting, but for the stranded
ones.  These are interesting and yet missing from the graph and its snapshot, from every chain and from
the counts of the summary; every other interesting method is an end of a chain or listed as
unreported. -/
theorem pruning_loses_stranded {p : Prepared} (h : Prepared.of c program facts = .ok p) :
    ∃ u lost, (Prepared.unpruned c program facts (Inquiry.remembering c program) []).1 = .ok u ∧
      lost.Nodup ∧ (∀ n, n ∈ lost ↔ u.graph.Stranded c program n) ∧
      (∀ n, n ∈ p.graph.nodes ↔ n ∈ u.graph.nodes ∧ u.graph.Reaches c program n ∧ n ∉ lost) ∧
      p.snapshot.nodes.toList = p.graph.nodes ∧
      p.stats.prunedNodes + p.stats.finalNodes + lost.length = u.graph.nodes.length ∧
      ((∀ n, n ∈ p.graph.nodes ↔ n ∈ u.graph.nodes ∧ u.graph.Reaches c program n) ↔ lost = []) ∧
      ∀ options sink a sink', Analysis.run options program facts c sink = (.ok a, sink') →
        a.stats = p.stats ∧
        a.summary.interestingMethods + lost.length = u.snapshot.interesting.length ∧
        ∃ es, Analysis.reported options program facts p = .ok es ∧
          (∀ n ∈ lost, ∀ e ∈ es, n ∉ e.chain.nodes) ∧
          ∀ m, .method m ∈ u.graph.nodes → c.Finds program (.method m) → .method m ∉ lost →
            (∃ e ∈ es, e.chain.source? = some (.method m) ∨
              e.chain.destination? = some (.method m)) ∨
            program.display (.method m) ∈ a.summary.unreported := by
  classical
  obtain ⟨u, hunpruned, hreduced, rfl⟩ := Prepared.of_ok h
  have hu := hreduced.toJudged
  have hnodup : (u.graph.nodes.filter (u.graph.Stranded c program ·)).Nodup :=
    hu.consistent.nodes_nodup.filter _
  have hlost : ∀ n, n ∈ u.graph.nodes.filter (u.graph.Stranded c program ·) ↔
      u.graph.Stranded c program n := by
    intro n
    rw [List.mem_filter, decide_eq_true_eq]
    exact and_iff_right_of_imp fun hstranded => hstranded.mem
  -- from here on, all that matters about the lost nodes is which they are
  generalize u.graph.nodes.filter (u.graph.Stranded c program ·) = lost at hnodup hlost
  have hnodes : ∀ n, n ∈ u.prune.graph.nodes ↔
      n ∈ u.graph.nodes ∧ u.graph.Reaches c program n ∧ n ∉ lost := by
    intro n
    rw [hu.mem_nodes_prune, hlost]
  refine ⟨u, lost, hunpruned, hnodup, hlost, hnodes, ?_, hu.count_prune hnodup hlost, ?_, ?_⟩
  · rw [hu.prune.snapshot_eq]
    simp [Snapshot.judged, Snapshot.ofVerdicts]
  · constructor
    · -- a stranded node is interesting, and so it would have to stay
      intro hall
      rw [List.eq_nil_iff_forall_not_mem]
      intro n hn
      have hstranded := (hlost n).mp hn
      have hkept := (hall n).mpr ⟨hstranded.mem, Graph.reaches_of_finds hstranded.finds⟩
      exact ((hnodes n).mp hkept).2.2 hn
    · rintro rfl
      simpa using hnodes
  · intro options sink a sink' hrun
    obtain ⟨p, es, hp, hes, hstats, hsummary, -⟩ := Analysis.run_ok hrun
    obtain rfl : u.prune = p := Except.ok.inj (h.symm.trans hp)
    refine ⟨hstats, ?_, es, hes, ?_, ?_⟩
    · rw [hsummary]
      exact hu.length_interesting_prune hnodup hlost
    · intro n hn e he hmem
      obtain ⟨path, hpath⟩ := Analysis.reported_route hu.prune hes he
      exact ((hnodes n).mp (hpath.mem_nodes hu.prune hmem)).2.2 hn
    · intro m hm hfinds hkept
      rw [hsummary]
      refine Analysis.reported_or_unreported hu.prune hes ?_ hfinds c.knownReasons
      exact (hnodes _).mpr ⟨hm, Graph.reaches_of_finds hfinds, hkept⟩

/-! ## A method that calls and is not called -/

/-- The first method calls the second. -/
def Facts.firstCallsSecond : Facts := { directCalls := [(0, 1)] }

/-- The two methods before pruning. -/
def Prepared.callerAndCallee : Prepared where
  graph := {
    edges := [⟨.method 0, .method 1, .directCall⟩]
    nodes := [.method 0, .method 1]
    constructorPassDone := true }
  snapshot := {
    nodes := #[.method 0, .method 1]
    verdicts := #[{ entry := true, reason := some "KnownReflection" }, {}]
    callees := #[[1], []]
    callers := #[[], [0]] }
  stats := { initialNodes := 2, initialEdges := 1 }

/-- What is left of them, though only one of them was to be pruned. -/
def Prepared.nothingLeft : Prepared where
  graph := { constructorPassDone := true }
  snapshot := {}
  stats := { initialNodes := 2, initialEdges := 1, prunedNodes := 1 }

theorem unpruned_firstCallsSecond :
    (Prepared.unpruned (.single 0 0) {} Facts.firstCallsSecond
      (Inquiry.remembering (.single 0 0) {}) []).1 = .ok Prepared.callerAndCallee := by
  cbv

theorem prepared_firstCallsSecond :
    Prepared.of (.single 0 0) {} Facts.firstCallsSecond = .ok Prepared.nothingLeft := by
  cbv

/-- Of the two methods one is pruned and one is lost. -/
theorem pruning_loses_stranded_caller :
    Prepared.of (.single 0 0) {} Facts.firstCallsSecond = .ok Prepared.nothingLeft ∧
      ∃ lost : List Node, lost.length = 1 ∧
        ∀ n ∈ lost, Prepared.callerAndCallee.graph.Stranded (.single 0 0) {} n := by
  refine ⟨prepared_firstCallsSecond, ?_⟩
  obtain ⟨u, lost, hu, -, hlost, -, -, hcount, -⟩ :=
    pruning_loses_stranded prepared_firstCallsSecond
  obtain rfl : Prepared.callerAndCallee = u :=
    Except.ok.inj (unpruned_firstCallsSecond.symm.trans hu)
  have hcount' : 1 + 0 + lost.length = 2 := hcount
  exact ⟨lost, by omega, fun n hn => (hlost n).mp hn⟩

/-- An interesting method may be missing after pruning. -/
theorem pruning_loses_interesting_caller :
    ¬∀ (c : Classifier) (program : Program) (facts : Facts) (p u : Prepared),
      Prepared.of c program facts = .ok p →
      (Prepared.unpruned c program facts (Inquiry.remembering c program) []).1 = .ok u →
      ∀ n, n ∈ p.graph.nodes ↔ n ∈ u.graph.nodes ∧ u.graph.Reaches c program n := by
  intro hall
  have hfinds : (Classifier.single 0 0).Finds {} (.method 0) := ⟨0, "KnownReflection", rfl, rfl⟩
  have hmem : Node.method 0 ∈ Prepared.callerAndCallee.graph.nodes := by decide
  have hkept := (hall _ _ _ _ _ prepared_firstCallsSecond unpruned_firstCallsSecond _).mpr
    ⟨hmem, Graph.reaches_of_finds hfinds⟩
  exact absurd hkept (by decide)

end CallAudit

import CallAudit.Analysis.Run
import CallAudit.Proofs.Snapshot

/-!
# What the constraints say about nodes

The constraints of a search speak about the numbers of a snapshot.  Read back, they speak about nodes,
and are the same for every snapshot of the same program that has these nodes.
-/

namespace CallAudit.Analysis

variable {options : AnalysisOptions} {program : Program} {facts : Facts} {c : Classifier}
  {g : Graph} {n m : Node} {i u v : Nat}

/-- Whether chains may end at a node. -/
def EndsAt (options : AnalysisOptions) (program : Program) (facts : Facts) (c : Classifier)
    (n : Node) : Bool :=
  (c.verdict program n).entry ||
    options.stopAtUntrackedStaticConstructors && isUntrackedStaticConstructor program facts n

/-- Whether a node is a virtual method. -/
def IsVirtual (program : Program) (n : Node) : Bool := n.method?.any program.isVirtual

/-- Whether the call from `m` to `n` is suppressed. -/
def Suppressed (options : AnalysisOptions) (program : Program) (n m : Node) : Prop :=
  ∃ call ∈ options.suppressedCalls, ∃ caller callee, program.methodId? call.caller = some caller ∧
    program.methodId? call.callee = some callee ∧ n = .method callee ∧ m = .method caller

theorem isSource_judged (hn : g.nodes[i]? = some n) :
    (constraints options program facts (Snapshot.judged c program g)).isSource i =
      (c.verdict program n).reason.isSome := by
  show ((Snapshot.judged c program g).verdict i).reason.isSome = _
  rw [Snapshot.verdict_of_node hn]

theorem isDestination_judged (hn : g.nodes[i]? = some n) :
    (constraints options program facts (Snapshot.judged c program g)).isDestination i =
      EndsAt options program facts c n := by
  show isDestination options program facts (Snapshot.judged c program g) i = _
  rw [isDestination, Snapshot.isEntry, Snapshot.verdict_of_node hn, Snapshot.judged,
    Snapshot.node?_ofVerdicts, hn]
  rfl

theorem isBarred_judged (hn : g.nodes[i]? = some n) :
    (constraints options program facts (Snapshot.judged c program g)).isBarred i =
      (c.verdict program n).safe := by
  show ((Snapshot.judged c program g).verdict i).safe = _
  rw [Snapshot.verdict_of_node hn]

theorem isDeadEnd_judged (hn : g.nodes[i]? = some n) :
    (constraints options program facts (Snapshot.judged c program g)).isDeadEnd i =
      (options.ignoreVirtualCallers && IsVirtual program n) := by
  show (options.ignoreVirtualCallers && isVirtualMethod program (Snapshot.judged c program g) i) = _
  rw [isVirtualMethod, Snapshot.judged, Snapshot.node?_ofVerdicts, hn]
  rfl

theorem mem_suppressedPairs (h : g.nodes.Nodup) :
    (u, v) ∈ suppressedPairs options program (Snapshot.judged c program g) ↔
      ∃ n m, g.nodes[u]? = some n ∧ g.nodes[v]? = some m ∧ Suppressed options program n m := by
  unfold suppressedPairs
  rw [List.mem_filterMap]
  constructor
  · rintro ⟨call, hcall, hpair⟩
    obtain ⟨j, hj, hpair⟩ := Option.bind_eq_some_iff.mp hpair
    obtain ⟨k, hk, hpair⟩ := Option.bind_eq_some_iff.mp hpair
    obtain ⟨rfl, rfl⟩ := Prod.mk.inj (Option.some.inj hpair)
    obtain ⟨caller, hcaller, hj⟩ := Option.bind_eq_some_iff.mp hj
    obtain ⟨callee, hcallee, hk⟩ := Option.bind_eq_some_iff.mp hk
    exact ⟨_, _, (Snapshot.index?_eq_some_iff h).mp hk, (Snapshot.index?_eq_some_iff h).mp hj,
      call, hcall, caller, callee, hcaller, hcallee, rfl, rfl⟩
  · rintro ⟨_, _, hu, hv, call, hcall, caller, callee, hcaller, hcallee, rfl, rfl⟩
    refine ⟨call, hcall, ?_⟩
    have hj : (Snapshot.judged c program g).index? (.method caller) = some v :=
      (Snapshot.index?_eq_some_iff h).mpr hv
    have hk : (Snapshot.judged c program g).index? (.method callee) = some u :=
      (Snapshot.index?_eq_some_iff h).mpr hu
    simp [hcaller, hcallee, hj, hk]

theorem isForbidden_judged (h : g.nodes.Nodup) (hu : g.nodes[u]? = some n)
    (hv : g.nodes[v]? = some m) :
    (constraints options program facts (Snapshot.judged c program g)).isForbidden u v = true ↔
      Suppressed options program n m := by
  show (suppressedPairs options program (Snapshot.judged c program g)).contains (u, v) = true ↔ _
  rw [List.contains_iff_mem, mem_suppressedPairs h]
  constructor
  · rintro ⟨n', m', hu', hv', hsuppressed⟩
    rwa [Option.some.inj (hu.symm.trans hu'), Option.some.inj (hv.symm.trans hv')]
  · exact fun hsuppressed => ⟨n, m, hu, hv, hsuppressed⟩

end CallAudit.Analysis

import CallAudit.Proofs.Analysis.Constraints
import CallAudit.Proofs.Analysis.Spans
import CallAudit.Proofs.Renaming.Prepared

/-!
# Searches at other places

The nodes of the same graph at other places come in another order, so that their numbers are permuted
as well (`Renamed.exists_numbers`).  The constraints say the same of the numbers that are matched
(`Numbered.matching`), and so the same spans are reported (`Numbered.spans_perm`).
-/

namespace CallAudit

/-- Two programs that differ in nothing but places, with the same graph prepared of both: `σ` takes the
number of a node to the number of the node at its other place. -/
structure Numbered (ρ : Renaming) (σ : Equiv.Perm Nat) (program program' : Program)
    (facts facts' : Facts) (c c' : Classifier) (p p' : Prepared) : Prop where
  renamed : Renamed ρ program program' facts facts' c c'
  prepared : Prepared.Renamed ρ c program p c' program' p'
  number : ∀ i, p'.graph.nodes[σ i]? = p.graph.nodes[i]?.map ρ.node

/-- The numbers of a span, changed. -/
def Entry.moveSpan (σ : Equiv.Perm Nat) (span : Nat × Nat × Nat) : Nat × Nat × Nat :=
  (σ span.1, σ span.2.1, span.2.2)

/-! ## Questions about nodes -/

namespace Renamed

variable {ρ : Renaming} {program program' : Program} {facts facts' : Facts} {c c' : Classifier}
  {options : AnalysisOptions} {n m : Node}

theorem isUntrackedStaticConstructor (h : Renamed ρ program program' facts facts' c c') (n : Node) :
    Analysis.isUntrackedStaticConstructor program' facts' (ρ.node n) =
      Analysis.isUntrackedStaticConstructor program facts n := by
  cases n with
  | type t => rfl
  | method m =>
    have haccess : facts'.fieldAccessDependencies.any (·.2 == ρ.method m) =
        facts.fieldAccessDependencies.any (·.2 == m) := by
      rw [Bool.eq_iff_iff, List.any_eq_true, List.any_eq_true]
      constructor
      · rintro ⟨⟨a, b⟩, hab, hm⟩
        obtain rfl := eq_of_beq hm
        refine ⟨(ρ.method.symm a, m), (h.facts.fieldAccesses _ _).mp ?_, beq_self_eq_true m⟩
        rwa [ρ.method.apply_symm_apply]
      · rintro ⟨⟨a, b⟩, hab, hm⟩
        obtain rfl := eq_of_beq hm
        exact ⟨(ρ.method a, ρ.method b), (h.facts.fieldAccesses a b).mpr hab, beq_self_eq_true _⟩
    rw [Renaming.node, Analysis.isUntrackedStaticConstructor, Analysis.isUntrackedStaticConstructor,
      h.program.isStaticConstructor, haccess]

theorem isVirtual (h : Renamed ρ program program' facts facts' c c') (n : Node) :
    Analysis.IsVirtual program' (ρ.node n) = Analysis.IsVirtual program n := by
  cases n with
  | type t => rfl
  | method m => exact h.program.isVirtual m

theorem suppressed (h : Renamed ρ program program' facts facts' c c') :
    Analysis.Suppressed options program' (ρ.node n) (ρ.node m) ↔
      Analysis.Suppressed options program n m := by
  have hforward : ∀ {ρ program program' n m}, Program.Renamed ρ program program' →
      Analysis.Suppressed options program n m →
        Analysis.Suppressed options program' (ρ.node n) (ρ.node m) := by
    rintro ρ program program' _ _ h ⟨call, hcall, caller, callee, hcaller, hcallee, rfl, rfl⟩
    refine ⟨call, hcall, ρ.method caller, ρ.method callee, ?_, ?_, rfl, rfl⟩
    · rw [h.methodId?, hcaller, Option.map_some]
    · rw [h.methodId?, hcallee, Option.map_some]
  refine ⟨fun hs => ?_, hforward h.program⟩
  have hback := hforward h.symm.program hs
  rwa [Renaming.symm_node_node, Renaming.symm_node_node] at hback

theorem exists_numbers {p p' : Prepared} (h : Renamed ρ program program' facts facts' c c')
    (hp : Prepared.Renamed ρ c program p c' program' p') :
    ∃ σ, Numbered ρ σ program program' facts facts' c c' p p' := by
  have hnodup : (p.graph.nodes.map ρ.node).Nodup :=
    hp.graph.consistent.nodes_nodup.map ρ.node_injective
  obtain ⟨σ, hσ⟩ := Program.exists_perm_places hp.graph.nodes_perm hnodup
  refine ⟨σ, h, hp, fun i => ?_⟩
  rw [hσ, List.getElem?_map]

end Renamed

/-! ## Questions about numbers -/

namespace Numbered

variable {ρ : Renaming} {σ : Equiv.Perm Nat} {program program' : Program} {facts facts' : Facts}
  {c c' : Classifier} {options : AnalysisOptions} {p p' : Prepared} {es es' : List Entry}
  (h : Numbered ρ σ program program' facts facts' c c' p p')

include h

theorem node? (i : Nat) : p'.snapshot.node? (σ i) = (p.snapshot.node? i).map ρ.node := by
  rw [h.prepared.judged.node?_eq, h.prepared.judged'.node?_eq, h.number]

theorem verdict (i : Nat) : p'.snapshot.verdict (σ i) = p.snapshot.verdict i := by
  have hverdict : c'.verdict program' ∘ ρ.node = c.verdict program := funext h.renamed.verdict
  rw [h.prepared.judged.snapshot_eq, h.prepared.judged'.snapshot_eq, Snapshot.verdict_judged,
    Snapshot.verdict_judged, h.number, Option.map_map, hverdict]

theorem lt_size (i : Nat) : σ i < p'.snapshot.size ↔ i < p.snapshot.size := by
  rw [h.prepared.judged.size_eq, h.prepared.judged'.size_eq, ← not_iff_not, Nat.not_lt, Nat.not_lt,
    ← List.getElem?_eq_none_iff, ← List.getElem?_eq_none_iff, h.number, Option.map_eq_none_iff]

/-- The numbers that pass a test are matched with those that pass the same test. -/
theorem indices_perm {test test' : Nat → Bool} (htest : ∀ i, test' (σ i) = test i) :
    ((p.snapshot.indices test).map σ).Perm (p'.snapshot.indices test') := by
  refine perm_map_of_mem_iff (g := σ.symm) σ.symm_apply_apply σ.apply_symm_apply
    (List.nodup_range.filter _) (List.nodup_range.filter _) fun i => ?_
  rw [Snapshot.indices, Snapshot.indices, List.mem_filter, List.mem_filter, List.mem_range,
    List.mem_range, h.lt_size, htest]

theorem mem_callers (u v : Nat) :
    σ v ∈ p'.snapshot.callers[σ u]?.getD [] ↔ v ∈ p.snapshot.callers[u]?.getD [] := by
  have hend : ∀ i n, p'.graph.nodes[σ i]? = some (ρ.node n) ↔ p.graph.nodes[i]? = some n := by
    intro i n
    rw [h.number]
    exact Option.map_eq_some_iff.trans ⟨fun ⟨m, hm, hmn⟩ => ρ.node_injective hmn ▸ hm,
      fun hn => ⟨n, hn, rfl⟩⟩
  have hgraph := h.prepared.graph
  rw [h.prepared.judged.snapshot_eq, h.prepared.judged'.snapshot_eq, Snapshot.judged,
    Snapshot.judged, Snapshot.mem_callers_iff hgraph.consistent,
    Snapshot.mem_callers_iff hgraph.consistent']
  constructor
  · rintro ⟨e, he, hsource, htarget⟩
    -- the edge comes from one between the nodes here
    rw [← Renaming.edge_symm_edge (ρ := ρ) (e := e)] at he hsource htarget
    exact ⟨_, (hgraph.mem_edges _).mp he, (hend _ _).mp hsource, (hend _ _).mp htarget⟩
  · rintro ⟨e, he, hsource, htarget⟩
    exact ⟨ρ.edge e, (hgraph.mem_edges e).mpr he, (hend _ _).mpr hsource, (hend _ _).mpr htarget⟩

theorem isForbidden (u v : Nat) :
    (Analysis.constraints options program' facts' p'.snapshot).isForbidden (σ u) (σ v) =
      (Analysis.constraints options program facts p.snapshot).isForbidden u v := by
  have hgraph := h.prepared.graph
  show (Analysis.suppressedPairs options program' p'.snapshot).contains (σ u, σ v) =
    (Analysis.suppressedPairs options program p.snapshot).contains (u, v)
  rw [Bool.eq_iff_iff, List.contains_iff_mem, List.contains_iff_mem,
    h.prepared.judged.snapshot_eq, h.prepared.judged'.snapshot_eq,
    Analysis.mem_suppressedPairs hgraph.consistent.nodes_nodup,
    Analysis.mem_suppressedPairs hgraph.consistent'.nodes_nodup, h.number, h.number]
  constructor
  · rintro ⟨_, _, hu, hv, hsuppressed⟩
    obtain ⟨n, hn, rfl⟩ := Option.map_eq_some_iff.mp hu
    obtain ⟨m, hm, rfl⟩ := Option.map_eq_some_iff.mp hv
    exact ⟨n, m, hn, hm, h.renamed.suppressed.mp hsuppressed⟩
  · rintro ⟨n, m, hn, hm, hsuppressed⟩
    exact ⟨_, _, by rw [hn, Option.map_some], by rw [hm, Option.map_some],
      h.renamed.suppressed.mpr hsuppressed⟩

/-- The constraints say the same of numbers that are matched. -/
theorem matching : Constraints.Matching σ p.snapshot.callers p'.snapshot.callers
    (Analysis.constraints options program facts p.snapshot)
    (Analysis.constraints options program' facts' p'.snapshot) where
  neighbours := h.mem_callers
  isSource := by
    intro v
    show (p'.snapshot.verdict (σ v)).reason.isSome = (p.snapshot.verdict v).reason.isSome
    rw [h.verdict]
  isDestination := by
    intro v
    show Analysis.isDestination options program' facts' p'.snapshot (σ v) =
      Analysis.isDestination options program facts p.snapshot v
    rw [Analysis.isDestination, Analysis.isDestination, Snapshot.isEntry, Snapshot.isEntry,
      h.verdict, h.node?, Option.any_map]
    simp only [h.renamed.isUntrackedStaticConstructor]
  isBarred := by
    intro v
    show (p'.snapshot.verdict (σ v)).safe = (p.snapshot.verdict v).safe
    rw [h.verdict]
  isDeadEnd := by
    intro v
    have hvirtual : ∀ n : Option Node, ((n.map ρ.node).bind Node.method?).any program'.isVirtual =
        (n.bind Node.method?).any program.isVirtual := by
      intro n
      cases n with
      | none => rfl
      | some n => exact h.renamed.isVirtual n
    show (options.ignoreVirtualCallers &&
        Analysis.isVirtualMethod program' p'.snapshot (σ v)) =
      (options.ignoreVirtualCallers && Analysis.isVirtualMethod program p.snapshot v)
    rw [Analysis.isVirtualMethod, Analysis.isVirtualMethod, h.node?, hvirtual]
  isForbidden := h.isForbidden
  stopsAtSources := rfl

/-! ## Spans -/

/-- The same spans are reported, between the numbers that are matched. -/
theorem spans_perm (hes : Analysis.reported options program facts p = .ok es)
    (hes' : Analysis.reported options program' facts' p' = .ok es') :
    ((es.map Entry.span).map (Entry.moveSpan σ)).Perm (es'.map Entry.span) := by
  refine perm_map_of_mem_iff (g := Entry.moveSpan σ.symm) ?_ ?_
    (Analysis.nodup_spans h.prepared.judged hes) (Analysis.nodup_spans h.prepared.judged' hes') ?_
  · rintro ⟨i, j, k⟩
    rw [Entry.moveSpan, Entry.moveSpan, σ.symm_apply_apply, σ.symm_apply_apply]
  · rintro ⟨i, j, k⟩
    rw [Entry.moveSpan, Entry.moveSpan, σ.apply_symm_apply, σ.apply_symm_apply]
  · rintro ⟨i, j, k⟩
    rw [Entry.moveSpan, Analysis.mem_spans h.prepared.judged hes,
      Analysis.mem_spans h.prepared.judged' hes', h.lt_size, Snapshot.isInteresting,
      Snapshot.isInteresting, h.verdict, h.matching.leads_iff]

end Numbered

end CallAudit

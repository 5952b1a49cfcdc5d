import CallAudit.Proofs.Analysis.Chains
import CallAudit.Proofs.Search.Matching

/-!
# Spans of chains

Of the chains that an analysis reports, the spans are known without the order in which searches visit
neighbours: where a chain leads from and to, and in how many hops (`Analysis.mem_spans`).  No span
comes twice (`Analysis.nodup_spans`).
-/

namespace CallAudit

/-- The numbers a chain leads from and to, and how many hops it has. -/
def Entry.span (e : Entry) : Nat × Nat × Nat :=
  (e.source, e.destination, e.chain.nodes.length - 1)

/-- A route has as many hops as the distance says. -/
theorem SearchResult.distance?_of_route {r : SearchResult} {d : Nat} {path : List Nat}
    (h : r.route d = .ok path) : r.distance? d = some (path.length - 1) := by
  unfold route at h
  unfold distance?
  cases hdist : r.dist[d]? with
  | none => rw [hdist] at h; cases h
  | some distance =>
    cases distance with
    | none => rw [hdist] at h; cases h
    | some hops =>
      rw [hdist] at h
      dsimp only [bind, Except.bind] at h
      split at h
      · cases h
      · split at h
        · next hlength =>
          rw [← Except.ok.inj h, hlength]
          rfl
        · cases h

namespace Analysis

variable {options : AnalysisOptions} {program : Program} {facts : Facts} {c : Classifier}
  {p : Prepared} {es : List Entry} {i j k : Nat}

/-- The span of what a search found. -/
def findingSpan (finding : SearchResult × Nat) : Nat × Nat × Nat :=
  (finding.1.source, finding.2, (finding.1.distance? finding.2).getD 0)

theorem findingSpan_search {neighbours : Array (List Nat)} {constraints : Constraints}
    (h : (search neighbours constraints i).distance? j = some k) :
    findingSpan (search neighbours constraints i, j) = (i, j, k) := by
  rw [findingSpan, source_search, h, Option.getD_some]

theorem spans_eq (hes : reported options program facts p = .ok es) : es.map Entry.span =
    (Report.findings (results options program facts p.snapshot)).map findingSpan := by
  refine map_of_mapM_ok (fun finding e he => ?_) hes
  obtain ⟨hchain, hsource, hdestination⟩ := Report.entry_ok he
  obtain ⟨path, hroute, hnodes, -⟩ := Basis.chain_ok hchain
  have hlength : path.length = e.chain.nodes.length := by
    have := congrArg List.length hnodes
    rwa [List.length_map, List.length_map] at this
  rw [Entry.span, findingSpan, SearchResult.distance?_of_route hroute, hsource, hdestination,
    hlength, Option.getD_some]

/-- The spans that are reported are those that the search leads to from an interesting method. -/
theorem mem_spans (hp : p.Judged c program) (hes : reported options program facts p = .ok es) :
    (i, j, k) ∈ es.map Entry.span ↔ i < p.snapshot.size ∧
      p.snapshot.isInteresting i = true ∧
      (constraints options program facts p.snapshot).Leads p.snapshot.callers i j k := by
  have hrange := hp.inRange
  rw [spans_eq hes, List.mem_map, hp.size_eq, ← hp.size_callers]
  constructor
  · rintro ⟨⟨r, d⟩, hfinding, hspan⟩
    obtain ⟨hr, hd⟩ := Report.mem_findings.mp hfinding
    obtain ⟨s, hlt, hs, hsearch⟩ := mem_results.mp hr
    dsimp only at hsearch hd
    subst hsearch
    obtain ⟨⟨hops, hhops⟩, -⟩ := destination_of_search hrange hlt rfl hd
    have hleads := (mem_search_iff hrange hlt rfl).mp ⟨hd, hhops⟩
    rw [findingSpan_search hhops] at hspan
    obtain ⟨hi, hspan⟩ := Prod.mk.inj hspan
    obtain ⟨hj, hk⟩ := Prod.mk.inj hspan
    rw [← hi, ← hj, ← hk]
    exact ⟨hlt, hs, hleads⟩
  · rintro ⟨hlt, hs, hleads⟩
    obtain ⟨hd, hhops⟩ := (mem_search_iff hrange hlt rfl).mpr hleads
    exact ⟨_, Report.mem_findings.mpr ⟨mem_results.mpr ⟨i, hlt, hs, rfl⟩, hd⟩,
      findingSpan_search hhops⟩

theorem nodup_spans (hp : p.Judged c program) (hes : reported options program facts p = .ok es) :
    (es.map Entry.span).Nodup := by
  have hrange := hp.inRange
  rw [spans_eq hes, Report.findings, List.map_flatMap, List.nodup_flatMap]
  constructor
  · -- within a result the destinations differ
    intro r hr
    obtain ⟨s, hlt, -, rfl⟩ := mem_results.mp hr
    rw [List.map_map]
    refine (nodup_destinations_search hrange hlt rfl).map ?_
    intro d d' hd
    exact (Prod.mk.inj (Prod.mk.inj hd).2).1
  · -- and the results differ in their sources
    unfold results searchAll
    rw [List.pairwise_map]
    refine (List.nodup_range.filter _).imp ?_
    intro s s' hne span hspan hspan'
    obtain ⟨finding, hfinding, rfl⟩ := List.mem_map.mp hspan
    obtain ⟨finding', hfinding', hsame⟩ := List.mem_map.mp hspan'
    obtain ⟨d, -, rfl⟩ := List.mem_map.mp hfinding
    obtain ⟨d', -, rfl⟩ := List.mem_map.mp hfinding'
    have hsource := (Prod.mk.inj hsame).1
    rw [source_search, source_search] at hsource
    exact hne hsource.symm

end Analysis

end CallAudit

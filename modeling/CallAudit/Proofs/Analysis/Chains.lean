import CallAudit.Proofs.Analysis.Outcome
import CallAudit.Proofs.Analysis.Reduction
import CallAudit.Proofs.Search.Shortest

/-!
# Chains are routes

Every chain that an analysis reports is a route of a search over the callers, written in nodes
(`Analysis.reported_route`): it starts at an interesting node, ends at a destination, and is a walk
that the constraints permit.
-/

namespace CallAudit

theorem Basis.chain_ok {b : Basis} {r : SearchResult} {d : Nat} {ch : Chain}
    (h : b.chain r d = .ok ch) :
    ∃ path, r.route d = .ok path ∧ path.map b.snapshot.node? = ch.nodes.map some ∧
      ch.reason = (b.snapshot.verdict r.source).reason ∧
      ch.lines = header ch.reason :: b.frames ch.nodes := by
  unfold chain at h
  cases hroute : r.route d with
  | error err =>
    rw [hroute] at h
    exact absurd h (by simp [bind, Except.bind])
  | ok path =>
    rw [hroute] at h
    dsimp only [bind, Except.bind] at h
    cases hnodes : path.mapM b.snapshot.node? with
    | none =>
      rw [hnodes] at h
      exact absurd h (by simp [throw, throwThe, MonadExceptOf.throw])
    | some nodes =>
      rw [hnodes] at h
      obtain rfl := Except.ok.inj h
      exact ⟨path, rfl, map_of_mapM_some hnodes, rfl, rfl⟩

theorem Prepared.Judged.inRange {c : Classifier} {program : Program} {p : Prepared}
    (hp : p.Judged c program) : Search.InRange p.snapshot.callers := by
  intro row hrow v hv
  obtain ⟨i, hi⟩ := Array.mem_iff_getElem?.mp hrow
  have hmem : v ∈ p.snapshot.callers[i]?.getD [] := by
    rw [hi, Option.getD_some]
    exact hv
  rw [hp.snapshot_eq] at hmem
  obtain ⟨e, -, hsource, -⟩ := (Snapshot.mem_callers_iff hp.consistent).mp hmem
  rw [hp.size_callers]
  exact (List.getElem?_eq_some_iff.mp hsource).1

namespace Analysis

variable {options : AnalysisOptions} {program : Program} {facts : Facts} {c : Classifier}
  {p : Prepared} {es : List Entry} {e : Entry}

theorem mem_results {s : Snapshot} {r : SearchResult} :
    r ∈ results options program facts s ↔ ∃ i, i < s.callers.size ∧ s.isInteresting i = true ∧
      r = search s.callers (constraints options program facts s) i := by
  unfold results searchAll
  rw [List.mem_map]
  constructor
  · rintro ⟨i, hi, rfl⟩
    rw [List.mem_filter, List.mem_range] at hi
    exact ⟨i, hi.1, hi.2, rfl⟩
  · rintro ⟨i, hlt, hi, rfl⟩
    exact ⟨i, List.mem_filter.mpr ⟨List.mem_range.mpr hlt, hi⟩, rfl⟩

theorem source_search {neighbours : Array (List Nat)} {cs : Constraints} {i : Nat} :
    (search neighbours cs i).source = i := by
  rw [Search.search_eq_result]
  rfl

/-- The route that a reported chain is the wording of. -/
structure Routed (options : AnalysisOptions) (program : Program) (facts : Facts) (p : Prepared)
    (e : Entry) (path : List Nat) : Prop where
  interesting : p.snapshot.isInteresting e.source = true
  destination : isDestination options program facts p.snapshot e.destination = true
  unblocked : e.destination = e.source ∨
    isDestination options program facts p.snapshot e.source = false ∧
      (constraints options program facts p.snapshot).blocks e.destination = false
  permits : (constraints options program facts p.snapshot).Permits p.snapshot.callers e.source
    e.destination path
  nodup : path.Nodup
  nodes : path.map p.snapshot.node? = e.chain.nodes.map some
  reason : e.chain.reason = (p.snapshot.verdict e.source).reason
  lines : e.chain.lines = Basis.header e.chain.reason :: (basis program p).frames e.chain.nodes

theorem reported_route (hp : p.Judged c program) (hes : reported options program facts p = .ok es)
    (he : e ∈ es) : ∃ path, Routed options program facts p e path := by
  obtain ⟨r, hr, hsource, hd, hchain⟩ := mem_reported hes he
  obtain ⟨i, hlt, hi, rfl⟩ := mem_results.mp hr
  obtain rfl : e.source = i := hsource.trans source_search
  obtain ⟨path, hroute, hnodes, hreason, hlines⟩ := Basis.chain_ok hchain
  have hrange := hp.inRange
  obtain ⟨⟨d, hfound⟩, hdestination, hunblocked⟩ := destination_of_search hrange hlt rfl hd
  obtain ⟨path', hroute', hpermits, -, hnodup⟩ := search_route hlt hfound
  obtain rfl : path = path' := Except.ok.inj (hroute.symm.trans hroute')
  rw [source_search] at hreason
  exact ⟨path, hi, hdestination, hunblocked, hpermits, hnodup, hnodes, hreason, hlines⟩

namespace Routed

variable {path : List Nat}

theorem source? (h : Routed options program facts p e path) :
    e.chain.source? = p.snapshot.node? e.source := by
  have hhead := congrArg List.head? h.nodes
  rw [List.head?_map, List.head?_map, h.permits.starts, Option.map_some] at hhead
  unfold Chain.source?
  cases hfirst : e.chain.nodes.head? with
  | none => rw [hfirst] at hhead; exact absurd hhead (by simp)
  | some n => rw [hfirst] at hhead; exact (Option.some.inj hhead).symm

theorem destination? (h : Routed options program facts p e path) :
    e.chain.destination? = p.snapshot.node? e.destination := by
  have hlast := congrArg List.getLast? h.nodes
  rw [List.getLast?_map, List.getLast?_map, h.permits.ends, Option.map_some] at hlast
  unfold Chain.destination?
  cases hend : e.chain.nodes.getLast? with
  | none => rw [hend] at hlast; exact absurd hlast (by simp)
  | some n => rw [hend] at hlast; exact (Option.some.inj hlast).symm

theorem mem_nodes (h : Routed options program facts p e path) (hp : p.Judged c program) {n : Node}
    (hn : n ∈ e.chain.nodes) : n ∈ p.graph.nodes := by
  have hmem : some n ∈ path.map p.snapshot.node? := by
    rw [h.nodes]
    exact List.mem_map_of_mem hn
  obtain ⟨i, -, hi⟩ := List.mem_map.mp hmem
  rw [hp.node?_eq] at hi
  exact List.mem_of_getElem? hi

end Routed

end Analysis

end CallAudit

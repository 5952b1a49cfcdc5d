import CallAudit.Proofs.Analysis.Constraints
import CallAudit.Proofs.Analysis.Pruning
import CallAudit.Proofs.Search.Embedding

/-!
# Pruning does not change the search

Pruning takes away nodes, edges and numbers, but every caller of a node that stays, stays as well, and
in the same place among the callers.  So the snapshot after pruning sits inside the one before it
(`Prepared.Judged.embedding`), and from a node that both have, both searches find the same nodes in the
same way (`pruned_search_agrees`).
-/

namespace CallAudit

variable {c : Classifier} {program : Program} {facts : Facts} {options : AnalysisOptions}
  {u : Prepared} {n : Node} {i j : Nat}

/-! ## The pruned snapshot inside the other -/

/-- The number that a graph gives to the node which another graph numbers `i`. -/
def Graph.placeIn (g' g : Graph) (i : Nat) : Nat :=
  (g'.nodes[i]?.map g.nodes.idxOf).getD 0

theorem Graph.placeIn_of_node {g' g : Graph} (hi : g'.nodes[i]? = some n) :
    g'.placeIn g i = g.nodes.idxOf n := by
  rw [placeIn, hi, Option.map_some, Option.getD_some]

namespace Prepared.Judged

/-- A node that reaches something interesting keeps its callers, in their order. -/
theorem callersOf_prune (hu : u.Judged c program) (hn : u.graph.Reaches c program n) :
    u.prune.graph.callersOf n = u.graph.callersOf n := by
  unfold Graph.callersOf
  rw [edges_prune, List.filter_filter]
  congr 2
  refine List.filter_congr ?_
  intro e he
  -- whatever depends on a node that reaches, reaches as well
  cases htarget : e.target == n with
  | false => rw [Bool.false_and]
  | true =>
    obtain rfl := eq_of_beq htarget
    have hsource := (hu.not_doomed (hu.consistent.source_mem he)).mpr
      (hn.of_dependsOn ⟨e, he, rfl, rfl⟩)
    rw [hsource, (hu.not_doomed (hu.consistent.target_mem he)).mpr hn]
    rfl

/-- What a number of the pruned snapshot stands for, before and after. -/
theorem exists_node (hu : u.Judged c program) (hi : i < u.prune.snapshot.callers.size) :
    ∃ n, u.prune.graph.nodes[i]? = some n ∧
      u.graph.nodes[u.prune.graph.placeIn u.graph i]? = some n := by
  rw [hu.prune.size_callers] at hi
  have hn := List.getElem?_eq_getElem hi
  refine ⟨_, hn, ?_⟩
  rw [Graph.placeIn_of_node hn]
  exact Snapshot.getElem?_idxOf (hu.nodes_prune_subset (List.getElem_mem hi))

theorem node?_placeIn (hu : u.Judged c program) (hi : i < u.prune.snapshot.callers.size) :
    u.snapshot.node? (u.prune.graph.placeIn u.graph i) = u.prune.snapshot.node? i := by
  obtain ⟨n, hn, hn'⟩ := hu.exists_node hi
  rw [hu.node?_eq, hu.prune.node?_eq, hn, hn']

/-- A list of numbers of the pruned snapshot stands for the nodes that its places stand for. -/
theorem map_node?_placeIn (hu : u.Judged c program) {is : List Nat}
    (his : ∀ i ∈ is, i < u.prune.snapshot.callers.size) :
    is.map u.prune.snapshot.node? =
      (is.map (u.prune.graph.placeIn u.graph)).map u.snapshot.node? := by
  rw [List.map_map]
  refine List.map_congr_left ?_
  intro i hi
  exact (hu.node?_placeIn (his i hi)).symm

theorem lt_of_index? (hu : u.Judged c program) (hi : u.snapshot.index? n = some i) :
    i < u.snapshot.callers.size := by
  rw [hu.size_callers]
  exact (List.getElem?_eq_some_iff.mp (hu.index?_eq_some_iff.mp hi)).1

/-- A node has the number before pruning that its number after it is placed at. -/
theorem index?_placeIn (hu : u.Judged c program) (hi : u.prune.snapshot.index? n = some i) :
    u.snapshot.index? n = some (u.prune.graph.placeIn u.graph i) := by
  obtain ⟨m, hm, hm'⟩ := hu.exists_node (hu.prune.lt_of_index? hi)
  obtain rfl : n = m := Option.some.inj ((hu.prune.index?_eq_some_iff.mp hi).symm.trans hm)
  exact hu.index?_eq_some_iff.mpr hm'

theorem index?_of_placeIn (hu : u.Judged c program) (hi : i < u.prune.snapshot.callers.size)
    (hn : u.snapshot.index? n = some (u.prune.graph.placeIn u.graph i)) :
    u.prune.snapshot.index? n = some i := by
  obtain ⟨m, hm, hm'⟩ := hu.exists_node hi
  obtain rfl : n = m := Option.some.inj ((hu.index?_eq_some_iff.mp hn).symm.trans hm')
  exact hu.prune.index?_eq_some_iff.mpr hm

/-- A test that looks at nothing but the node comes out the same before and after. -/
theorem test_placeIn (hu : u.Judged c program) (test : Snapshot → Nat → Bool) {q : Node → Bool}
    (htest : ∀ {g : Graph} {i n}, g.nodes[i]? = some n →
      test (Snapshot.judged c program g) i = q n)
    (hi : i < u.prune.snapshot.callers.size) :
    test u.snapshot (u.prune.graph.placeIn u.graph i) = test u.prune.snapshot i := by
  obtain ⟨n, hn, hn'⟩ := hu.exists_node hi
  rw [hu.snapshot_eq, hu.prune.snapshot_eq, htest hn, htest hn']

theorem embedding (hu : u.Judged c program) :
    Embedding (u.prune.graph.placeIn u.graph) u.prune.snapshot.callers u.snapshot.callers
      (Analysis.constraints options program facts u.prune.snapshot)
      (Analysis.constraints options program facts u.snapshot) where
  size_le := by
    rw [hu.size_callers, hu.prune.size_callers]
    have hsub : u.prune.graph.nodes ⊆ u.graph.nodes := fun n hn => hu.nodes_prune_subset hn
    exact (hu.prune.consistent.nodes_nodup.subperm hsub).length_le
  place_lt := by
    intro v hv
    obtain ⟨n, -, hn⟩ := hu.exists_node hv
    rw [hu.size_callers]
    exact (List.getElem?_eq_some_iff.mp hn).1
  injective := by
    intro v hv w hw heq
    obtain ⟨n, hn, hn'⟩ := hu.exists_node hv
    obtain ⟨m, hm, hm'⟩ := hu.exists_node hw
    obtain rfl : n = m := Option.some.inj (hn'.symm.trans (heq ▸ hm'))
    rw [← Snapshot.idxOf_of_getElem? hu.prune.consistent.nodes_nodup hn,
      Snapshot.idxOf_of_getElem? hu.prune.consistent.nodes_nodup hm]
  closed := hu.prune.inRange
  neighbours := by
    intro v hv
    obtain ⟨n, hn, hn'⟩ := hu.exists_node hv
    have hreach := (hu.mem_nodes_prune.mp (List.mem_of_getElem? hn)).2.1
    -- what has stayed reaches, so its callers are those it had, and all of them have stayed
    rw [hu.callers_eq hn', hu.prune.callers_eq hn, hu.callersOf_prune hreach, List.map_map]
    refine List.map_congr_left ?_
    intro m hm
    rw [← hu.callersOf_prune hreach] at hm
    have hmem := hu.prune.consistent.mem_of_mem_callersOf hm
    exact (Graph.placeIn_of_node (Snapshot.getElem?_idxOf hmem)).symm
  isSource := fun _ hv => hu.test_placeIn
    (fun s => (Analysis.constraints options program facts s).isSource) Analysis.isSource_judged hv
  isDestination := fun _ hv => hu.test_placeIn
    (fun s => (Analysis.constraints options program facts s).isDestination)
    Analysis.isDestination_judged hv
  isBarred := fun _ hv => hu.test_placeIn
    (fun s => (Analysis.constraints options program facts s).isBarred) Analysis.isBarred_judged hv
  isDeadEnd := fun _ hv => hu.test_placeIn
    (fun s => (Analysis.constraints options program facts s).isDeadEnd) Analysis.isDeadEnd_judged hv
  isForbidden := by
    intro v hv w hw
    obtain ⟨n, hn, hn'⟩ := hu.exists_node hv
    obtain ⟨m, hm, hm'⟩ := hu.exists_node hw
    rw [hu.snapshot_eq, hu.prune.snapshot_eq, Bool.eq_iff_iff,
      Analysis.isForbidden_judged hu.consistent.nodes_nodup hn' hm',
      Analysis.isForbidden_judged hu.prune.consistent.nodes_nodup hn hm]
  stopsAtSources := rfl
  findsAll := rfl

end Prepared.Judged

/-! ## Results in terms of nodes -/

namespace SearchResult

/-- The hops to a node, if the snapshot has it and the search found it. -/
def distanceTo (r : SearchResult) (s : Snapshot) (n : Node) : Option Nat :=
  (s.index? n).bind r.distance?

/-- The node that a node was found from. -/
def parentOf (r : SearchResult) (s : Snapshot) (n : Node) : Option Node :=
  (s.index? n).bind fun i => r.prev[i]?.bind s.node?

/-- Two results over two snapshots that say the same about nodes. -/
structure SameSearch (s s' : Snapshot) (r r' : SearchResult) : Prop where
  distance : ∀ n, r.distanceTo s n = r'.distanceTo s' n
  parent : ∀ n d, r.distanceTo s n = some d → r.parentOf s n = r'.parentOf s' n
  destinations : r.destinations.map s.node? = r'.destinations.map s'.node?
  route : ∀ n d i j, r.distanceTo s n = some d → s.index? n = some i → s'.index? n = some j →
    ∃ path path', r.route i = .ok path ∧ r'.route j = .ok path' ∧
      path.map s.node? = path'.map s'.node?

end SearchResult

/-- A result put in its place by a map that keeps nodes says the same about nodes. -/
theorem SearchResult.Placed.sameSearch {r r' : SearchResult} (hu : u.Judged c program)
    (h : r.Placed (u.prune.graph.placeIn u.graph) u.prune.snapshot.callers.size r') :
    SameSearch u.prune.snapshot u.snapshot r r' := by
  constructor
  case distance =>
    intro n
    cases hi : u.prune.snapshot.index? n with
    | some i =>
      rw [distanceTo, distanceTo, hi, hu.index?_placeIn hi, Option.bind_some, Option.bind_some,
        h.distance i (hu.prune.lt_of_index? hi)]
    | none =>
      -- what the search found before pruning has a number after it
      cases hd : r'.distanceTo u.snapshot n with
      | none => rw [distanceTo, hi, Option.bind_none]
      | some d =>
        obtain ⟨j, hj, hd⟩ := Option.bind_eq_some_iff.mp hd
        obtain ⟨i, hlt, rfl⟩ := h.outside j d hd
        rw [hu.index?_of_placeIn hlt hj] at hi
        exact absurd hi (by simp)
  case parent =>
    intro n d hd
    obtain ⟨i, hi, -⟩ := Option.bind_eq_some_iff.mp hd
    have hlt := hu.prune.lt_of_index? hi
    rw [parentOf, parentOf, hi, hu.index?_placeIn hi, Option.bind_some, Option.bind_some,
      h.prev i hlt]
    cases hp : r.prev[i]? with
    | none => rfl
    | some v => exact (hu.node?_placeIn (h.prev_lt i hlt v hp)).symm
  case destinations =>
    rw [h.destinations]
    exact hu.map_node?_placeIn h.destinations_lt
  case route =>
    intro n d i j hd hi hj
    obtain rfl := Option.some.inj (hj.symm.trans (hu.index?_placeIn hi))
    rw [distanceTo, hi, Option.bind_some] at hd
    obtain ⟨path, hroute, hroute', hpath⟩ := h.route i (hu.prune.lt_of_index? hi) d hd
    exact ⟨path, _, hroute, hroute', hu.map_node?_placeIn hpath⟩

/-- From a node that the snapshots before and after pruning both have, interesting or not, the searches
over both find the same nodes, at the same distance, from the same parents, with the same routes to
them, and list the same destinations in the same order. -/
theorem pruned_search_agrees {p : Prepared} (options : AnalysisOptions)
    (h : Prepared.of c program facts = .ok p) :
    ∃ u, (Prepared.unpruned c program facts (Inquiry.remembering c program) []).1 = .ok u ∧
      ∀ n i j, p.snapshot.index? n = some i → u.snapshot.index? n = some j →
        SearchResult.SameSearch p.snapshot u.snapshot
          (search p.snapshot.callers (Analysis.constraints options program facts p.snapshot) i)
          (search u.snapshot.callers (Analysis.constraints options program facts u.snapshot) j) := by
  obtain ⟨u, hunpruned, hreduced, rfl⟩ := Prepared.of_ok h
  have hu := hreduced.toJudged
  refine ⟨u, hunpruned, ?_⟩
  intro n i j hi hj
  obtain rfl := Option.some.inj (hj.symm.trans (hu.index?_placeIn hi))
  exact (hu.embedding.search (hu.prune.lt_of_index? hi)).sameSearch hu

/-- Two calls, of which only the second leads to the interesting method, so that pruning numbers this
method anew. -/
def Facts.twoCalls : Facts := { directCalls := [(0, 1), (2, 3)] }

theorem pruned_search_agrees_renumbered :
    ∃ p u, Prepared.of (.single 2 3) {} Facts.twoCalls = .ok p ∧
      (Prepared.unpruned (.single 2 3) {} Facts.twoCalls
        (Inquiry.remembering (.single 2 3) {}) []).1 = .ok u ∧
      p.snapshot.index? (.method 3) = some 1 ∧ u.snapshot.index? (.method 3) = some 3 ∧
      SearchResult.SameSearch p.snapshot u.snapshot
        (search p.snapshot.callers (Analysis.constraints {} {} Facts.twoCalls p.snapshot) 1)
        (search u.snapshot.callers (Analysis.constraints {} {} Facts.twoCalls u.snapshot) 3) := by
  have hafter : (Prepared.of (.single 2 3) {} Facts.twoCalls).toOption.map
      (·.snapshot.index? (.method 3)) = some (some 1) := by cbv
  have hbefore : (Prepared.unpruned (.single 2 3) {} Facts.twoCalls
      (Inquiry.remembering (.single 2 3) {}) []).1.toOption.map
      (·.snapshot.index? (.method 3)) = some (some 3) := by cbv
  cases hp : Prepared.of (.single 2 3) {} Facts.twoCalls with
  | error e =>
    rw [hp] at hafter
    exact absurd hafter (by simp [Except.toOption])
  | ok p =>
    obtain ⟨u, hu, hagrees⟩ := pruned_search_agrees {} hp
    rw [hp] at hafter
    rw [hu] at hbefore
    have hi : p.snapshot.index? (.method 3) = some 1 := Option.some.inj hafter
    have hj : u.snapshot.index? (.method 3) = some 3 := Option.some.inj hbefore
    exact ⟨p, u, rfl, hu, hi, hj, hagrees _ 1 3 hi hj⟩

end CallAudit

import CallAudit.Proofs.Classifier.Settled
import CallAudit.Proofs.Dependency.Operations
import CallAudit.Proofs.MapM
import CallAudit.Proofs.Reachability
import Mathlib.Data.Finset.Card

/-!
# Snapshots say what the graph says

Whatever was done to a graph, a snapshot of it can be taken exactly if the classifier can decide about
all its methods, and then it describes the graph (`Describes`): its numbers are the places of the nodes,
its rows are the joined pairs seen from either end, in the order of the first edge, and its verdicts are
the classifier's answers (`taken_describes`).
-/

namespace CallAudit

namespace Graph

/-- The place of the first edge from one node to another. -/
def firstEdge (g : Graph) (a b : Node) : Nat :=
  g.edges.findIdx fun e => e.source == a && e.target == b

/-- The first edge for one pair of numbers comes before the first for another. -/
def JoinsEarlier (g : Graph) (p q : Nat × Nat) : Prop :=
  ∀ a b a' b', g.nodes[p.1]? = some a → g.nodes[p.2]? = some b → g.nodes[q.1]? = some a' →
    g.nodes[q.2]? = some b' → g.firstEdge a b < g.firstEdge a' b'

/-- Pairs of nodes come in the order of the first edge. -/
theorem pairwise_firstEdge (g : Graph) : (Distinct.ofList g.joined).Pairwise fun p q =>
    g.firstEdge p.1 p.2 < g.firstEdge q.1 q.2 := by
  refine (Distinct.pairwise_idxOf_ofList g.joined).imp fun {p q} hpq => ?_
  -- an edge is found among the edges where its pair of ends is found among the pairs
  have hplace : ∀ p : Node × Node,
      g.firstEdge p.1 p.2 = g.joined.findIdx fun p' => decide (p' = p) := by
    intro p
    rw [joined, List.findIdx_map, firstEdge]
    congr 1
    funext e
    rw [Bool.eq_iff_iff]
    simp [Prod.ext_iff]
  rw [hplace, hplace]
  exact hpq

end Graph

namespace Snapshot

variable {σ : Type} {c : Classifier} {program : Program} {ask : Inquiry σ} {Good : σ → Prop}
  {memory : σ} {g : Graph} {verdicts : List Verdict} {i j : Nat}

/-! ## Rows in order -/

/-- What a row keeps of the order of the pairs that it was made from. -/
theorem pairwise_neighbours {R : Nat × Nat → Nat × Nat → Prop} {count : Nat}
    {pairs : List (Nat × Nat)} (h : pairs.Pairwise R) (i : Nat) :
    ((neighbours count pairs)[i]?.getD []).Pairwise fun j k => R (i, j) (i, k) := by
  rw [neighbours, Array.getElem?_ofFn]
  split
  · rw [Option.getD_some, List.pairwise_map]
    refine (h.filter _).imp_of_mem fun {p q} hp hq hpq => ?_
    -- both pairs are from the row of `i`
    obtain ⟨p₁, j⟩ := p
    obtain ⟨q₁, k⟩ := q
    obtain rfl : p₁ = i := eq_of_beq (List.mem_filter.mp hp).2
    obtain rfl : q₁ = p₁ := eq_of_beq (List.mem_filter.mp hq).2
    exact hpq
  · exact List.Pairwise.nil

theorem nodup_joinedPairs : (joinedPairs g g.nodes.toArray).Nodup :=
  Distinct.nodup_ofList _

theorem nodup_callerPairs : ((joinedPairs g g.nodes.toArray).map Prod.swap).Nodup :=
  nodup_joinedPairs.map Prod.swap_injective

theorem pairwise_joinedPairs (h : g.Consistent) :
    (joinedPairs g g.nodes.toArray).Pairwise g.JoinsEarlier := by
  rw [joinedPairs_eq_map h, List.pairwise_map]
  refine (g.pairwise_firstEdge).imp_of_mem fun {p q} hp hq hpq => ?_
  -- the numbers of the ends of an edge stand for these ends
  have hends : ∀ p ∈ Distinct.ofList g.joined, ∀ a b, g.nodes[g.nodes.idxOf p.1]? = some a →
      g.nodes[g.nodes.idxOf p.2]? = some b → p = (a, b) := by
    intro p hp a b ha hb
    obtain ⟨e, he, rfl⟩ := List.mem_map.mp (Distinct.mem_ofList.mp hp)
    rw [getElem?_idxOf (h.source_mem he)] at ha
    rw [getElem?_idxOf (h.target_mem he)] at hb
    rw [Option.some.inj ha, Option.some.inj hb]
  intro a b a' b' ha hb ha' hb'
  obtain rfl := hends p hp a b ha hb
  obtain rfl := hends q hq a' b' ha' hb'
  exact hpq

theorem pairwise_callerPairs (h : g.Consistent) :
    ((joinedPairs g g.nodes.toArray).map Prod.swap).Pairwise fun p q =>
      g.JoinsEarlier p.swap q.swap := by
  rw [List.pairwise_map]
  exact pairwise_joinedPairs h

/-! ## What a snapshot says -/

/-- What a number depends on. -/
def calleesOf (s : Snapshot) (i : Nat) : List Nat :=
  s.callees[i]?.getD []

/-- What depends on a number. -/
def callersOf (s : Snapshot) (i : Nat) : List Nat :=
  s.callers[i]?.getD []

/-- Some edge, of whatever kind, leads from the node of `i` to the node of `j`. -/
def Joins (s : Snapshot) (g : Graph) (i j : Nat) : Prop :=
  ∃ a b kind, s.node? i = some a ∧ s.node? j = some b ∧ ⟨a, b, kind⟩ ∈ g.edges

/-- What a snapshot says of a graph if it is faithful to it. -/
structure Describes (c : Classifier) (program : Program) (g : Graph) (s : Snapshot) : Prop where
  /-- A number is the place of its node in the graph. -/
  nodes : s.nodes.toList = g.nodes
  /-- To go from a node to its number and to come back is one and the same. -/
  index?_eq_some_iff : ∀ n i, s.index? n = some i ↔ s.node? i = some n
  size_verdicts : s.verdicts.size = s.size
  size_callees : s.callees.size = s.size
  size_callers : s.callers.size = s.size
  callees_lt : ∀ i, ∀ j ∈ s.calleesOf i, j < s.size
  callers_lt : ∀ j, ∀ i ∈ s.callersOf j, i < s.size
  mem_callees : ∀ i j, j ∈ s.calleesOf i ↔ s.Joins g i j
  mem_callers : ∀ i j, i ∈ s.callersOf j ↔ s.Joins g i j
  /-- However many edges join two nodes, their numbers are joined once. -/
  nodup_callees : ∀ i, (s.calleesOf i).Nodup
  nodup_callers : ∀ j, (s.callersOf j).Nodup
  /-- The nodes that a node depends on come in the order of the first edges that lead to them. -/
  callees_ordered : ∀ i a, s.node? i = some a → ((s.calleesOf i).filterMap s.node?).Pairwise
    fun b b' => g.firstEdge a b < g.firstEdge a b'
  callers_ordered : ∀ j b, s.node? j = some b → ((s.callersOf j).filterMap s.node?).Pairwise
    fun a a' => g.firstEdge a b < g.firstEdge a' b
  edgeCount : s.edgeCount = g.joined.toFinset.card
  /-- Of a method the snapshot says what the classifier answers. -/
  method : ∀ i m, s.node? i = some (.method m) →
    s.isEntry i = c.isEntry program m ∧ s.isSafe i = c.isSafe program m ∧
      c.reason? program m = .ok (s.verdict i).reason
  /-- Of a type nothing is said. -/
  type : ∀ i t, s.node? i = some (.type t) → s.verdict i = {}
  isInteresting_iff : ∀ i, s.isInteresting i = true ↔ ∃ reason, (s.verdict i).reason = some reason

theorem joins_iff : (ofVerdicts g verdicts).Joins g i j ↔
    ∃ e ∈ g.edges, g.nodes[i]? = some e.source ∧ g.nodes[j]? = some e.target := by
  unfold Joins
  rw [node?_ofVerdicts, node?_ofVerdicts]
  constructor
  · rintro ⟨a, b, kind, hi, hj, he⟩
    exact ⟨_, he, hi, hj⟩
  · rintro ⟨e, he, hi, hj⟩
    exact ⟨e.source, e.target, e.kind, hi, hj, he⟩

/-- The snapshot with the verdicts of a classifier that can decide describes the graph. -/
theorem describes_judged (h : g.Consistent)
    (hdecided : ∀ m, .method m ∈ g.nodes → ∃ reason, c.reason? program m = .ok reason) :
    Describes c program g (judged c program g) := by
  have hnode : ∀ i, (judged c program g).node? i = g.nodes[i]? := fun i => node?_ofVerdicts
  have htransposed : (judged c program g).Transposed := transposed_judged h
  constructor
  case nodes => rfl
  case index?_eq_some_iff =>
    intro n i
    rw [hnode]
    exact index?_eq_some_iff h.nodes_nodup
  case size_verdicts => simp [judged, ofVerdicts, size]
  case size_callees => exact htransposed.size_callees
  case size_callers => simp [judged, ofVerdicts, neighbours, size]
  case callees_lt => exact fun i j hj => htransposed.target_lt hj
  case callers_lt => exact fun j i hi => htransposed.source_lt (htransposed.mem_callers.mp hi)
  case mem_callees => exact fun i j => (mem_callees_iff h.nodes_nodup).trans joins_iff.symm
  case mem_callers => exact fun i j => (mem_callers_iff h).trans joins_iff.symm
  case nodup_callees =>
    intro i
    refine (pairwise_neighbours nodup_joinedPairs i).imp ?_
    rintro j k hne rfl
    exact hne rfl
  case nodup_callers =>
    intro j
    refine (pairwise_neighbours nodup_callerPairs j).imp ?_
    rintro i k hne rfl
    exact hne rfl
  case callees_ordered =>
    intro i a hi
    rw [hnode] at hi
    rw [List.pairwise_filterMap]
    refine (pairwise_neighbours (pairwise_joinedPairs h) i).imp ?_
    intro j k hjk b hj b' hk
    rw [hnode] at hj hk
    exact hjk a b a b' hi hj hi hk
  case callers_ordered =>
    intro j b hj
    rw [hnode] at hj
    rw [List.pairwise_filterMap]
    refine (pairwise_neighbours (pairwise_callerPairs h) j).imp ?_
    intro i k hik a hi a' hk
    rw [hnode] at hi hk
    exact hik a b a' b hi hj hk hj
  case edgeCount =>
    -- a list without repetitions is as long as the set of its elements is large
    rw [judged, edgeCount_ofVerdicts h, ← List.toFinset_card_of_nodup (Distinct.nodup_ofList _)]
    congr 1
    ext pair
    rw [List.mem_toFinset, List.mem_toFinset, Distinct.mem_ofList]
  case method =>
    intro i m hi
    rw [hnode] at hi
    obtain ⟨reason, hreason⟩ := hdecided m (List.mem_of_getElem? hi)
    rw [isEntry, isSafe, verdict_of_node hi, Classifier.verdict, hreason]
    exact ⟨rfl, rfl, rfl⟩
  case type =>
    intro i t hi
    rw [hnode] at hi
    rw [verdict_of_node hi, Classifier.verdict]
  case isInteresting_iff =>
    intro i
    rw [isInteresting, Option.isSome_iff_exists]

/-- Whatever was done to a graph, a snapshot of it can be taken if the classifier answers about all its
methods, and describes the graph.  If the classifier fails on one of them, there is no snapshot, and the
error is its failure on such a method. -/
theorem taken_describes (hfaithful : ask.Faithful c program Good) (hgood : Good memory)
    (builtFor : Program) (facts : Facts) (operations : List Graph.Operation) :
    let g := Graph.operate builtFor (.build builtFor facts) operations
    ((∀ m, .method m ∈ g.nodes → ∃ reason, c.reason? program m = .ok reason) →
      ∃ s, (take c program ask g memory).1 = .ok s ∧ s.Describes c program g) ∧
    ((∃ m e, .method m ∈ g.nodes ∧ c.reason? program m = .error e) →
      ∃ m e, .method m ∈ g.nodes ∧ c.reason? program m = .error e ∧
        (take c program ask g memory).1 = .error e) := by
  intro g
  have h : g.Consistent := ((Graph.ordered_build builtFor facts).operate operations).toConsistent
  constructor
  · intro hdecided
    exact ⟨judged c program g, take_decided hfaithful hgood hdecided, describes_judged h hdecided⟩
  · rintro ⟨m, e, hm, hfails⟩
    have hsettles := settles_take hfaithful (g := g) hgood
    cases hresult : (take c program ask g memory).1 with
    | ok s =>
      -- there would be an answer about the method that the classifier fails on
      obtain ⟨reason, hreason⟩ := hsettles.ok s hresult m hm
      rw [hfails] at hreason
      cases hreason
    | error e' =>
      obtain ⟨m', hm', hfails'⟩ := hsettles.error e' hresult
      exact ⟨m', e', hm', hfails', rfl⟩

/-- A method that calls itself, two that are joined by edges of two kinds, and a method and a type that
need each other. -/
def tangled : Facts where
  directCalls := [(0, 2), (1, 1), (0, 1)]
  staticConstructorDependencies := [(0, 1)]
  fieldAccessDependencies := [(0, 1)]
  typeDependencies := [(1, 0)]

/-- Six edges join five pairs, and the callers of the second method come in the order of the edges. -/
theorem taken_describes_tangled :
    ∃ s, (take (.single 0 1) {} (Inquiry.direct (.single 0 1) {}) (.build {} tangled) ()).1 = .ok s ∧
      s.Describes (.single 0 1) {} (.build {} tangled) ∧ s.edgeCount = 5 ∧
      s.node? 2 = some (.method 1) ∧ s.calleesOf 0 = [1, 2] ∧ s.callersOf 2 = [2, 0, 3] := by
  have hnumbers : (take (.single 0 1) {} (Inquiry.direct (.single 0 1) {})
      (.build {} tangled) ()).1.toOption.map (fun s =>
        (s.edgeCount, s.node? 2, s.calleesOf 0, s.callersOf 2)) =
      some (5, some (.method 1), [1, 2], [2, 0, 3]) := by decide +kernel
  obtain ⟨s, htake, hs⟩ := exists_ok_of_map_toOption hnumbers
  have hdescribes : s.Describes (.single 0 1) {} (.build {} tangled) := by
    obtain ⟨s', htake', hdescribes⟩ : ∃ s', (take (.single 0 1) {}
        (Inquiry.direct (.single 0 1) {}) (.build {} tangled) ()).1 = .ok s' ∧
          s'.Describes (.single 0 1) {} (.build {} tangled) :=
      (taken_describes Inquiry.direct_faithful trivial {} tangled []).1 fun m _ => ⟨_, rfl⟩
    obtain rfl := Except.ok.inj (htake.symm.trans htake')
    exact hdescribes
  simp only [Prod.mk.injEq] at hs
  exact ⟨s, htake, hdescribes, hs⟩

end Snapshot

end CallAudit

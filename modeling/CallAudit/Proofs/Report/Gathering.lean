import CallAudit.Proofs.Descending
import CallAudit.Proofs.Keyed
import CallAudit.Report.Ledger
import Mathlib.Data.List.Permutation

/-!
# Gathered chains

A ledger gathers the chains that are posted to it under the node at one of their ends.  Whatever was
posted, taking the groups out divides the chains among these nodes, with none left over and none in two
places, the largest groups first (`posted_chains_divided`).
-/

namespace CallAudit

/-- What a ledger is told about a chain: its category, and the numbers that it leads from and to. -/
structure Posting where
  chain : Chain
  category : String
  source : Nat
  destination : Nat

/-- Chains divided among the nodes that a key gives them. -/
structure DividedBy (key : Chain → Option Node) (chains : List Chain)
    (gathered : List (Node × List Chain)) : Prop where
  nodup : (Keyed.keys gathered).Nodup
  /-- The group of a node is all its chains in their order, and there is one if there are any. -/
  mem_iff : ∀ n cs, (n, cs) ∈ gathered ↔ cs ≠ [] ∧ cs = chains.filter fun c => key c = some n
  descending : gathered.Pairwise fun g g' => g'.2.length ≤ g.2.length
  /-- Of two groups of one size the one whose first chain came first comes first. -/
  ties : gathered.Pairwise fun g g' => g.2.length = g'.2.length →
    chains.findIdx (key · = some g.1) < chains.findIdx (key · = some g'.1)

namespace Ledger

variable {program : Program} {l : Ledger} {ps : List Posting} {size : Nat} {grouping : Grouping}

/-- Records what is posted. -/
def post (program : Program) (l : Ledger) (p : Posting) : Ledger :=
  l.record program p.chain p.category p.source p.destination

theorem chainCount_postAll : (ps.foldl (post program) l).chainCount = l.chainCount + ps.length := by
  induction ps generalizing l with
  | nil => rfl
  | cons p ps ih =>
    rw [List.foldl_cons, ih, List.length_cons]
    show l.chainCount + 1 + ps.length = _
    omega

/-- A chain that is posted is added to the group of its node. -/
theorem groups_postAll : (ps.foldl (post program) l).groups =
    Keyed.collect (fun c : Chain => c.groupKey? l.grouping) [] (fun c cs => cs ++ [c])
      (ps.map Posting.chain) l.groups := by
  induction ps generalizing l with
  | nil => rfl
  | cons p ps ih =>
    rw [List.foldl_cons, ih, List.map_cons]
    show Keyed.collect (fun c : Chain => c.groupKey? l.grouping) [] (fun c cs => cs ++ [c])
      (ps.map Posting.chain) (gather l.groups p.chain (p.chain.groupKey? l.grouping)) = _
    rw [Keyed.collect, Keyed.collect, List.foldl_cons]
    cases p.chain.groupKey? l.grouping <;> rfl

theorem perm_takeGroups : l.takeGroups.1.Perm l.groups :=
  List.mergeSort_perm _ _

theorem keys_takeGroups_perm : (Keyed.keys l.takeGroups.1).Perm (Keyed.keys l.groups) :=
  perm_takeGroups.map Prod.fst

/-- The groups that are taken out divide all chains among their nodes. -/
theorem divided_takeGroups : DividedBy (·.groupKey? grouping) (ps.map Posting.chain)
    (ps.foldl (post program) (empty size grouping)).takeGroups.1 := by
  have hgroups : (ps.foldl (post program) (empty size grouping)).groups =
      Keyed.collect (fun c : Chain => c.groupKey? grouping) [] (fun c cs => cs ++ [c])
        (ps.map Posting.chain) [] := groups_postAll
  constructor
  case nodup =>
    rw [keys_takeGroups_perm.nodup_iff, hgroups]
    exact Keyed.nodup_keys_collect
  case mem_iff =>
    intro n cs
    rw [perm_takeGroups.mem_iff, hgroups, Keyed.mem_collect_append, List.map_id']
  case descending =>
    exact pairwise_mergeSort_descending (fun g : Node × List Chain => g.2.length) _
  case ties =>
    -- before they are sorted the groups stand in the order of their first chains
    have hfirst := List.pairwise_map.mp (hgroups ▸ Keyed.pairwise_findIdx_keys_collect)
    refine (pairwise_mergeSort_ties (fun g : Node × List Chain => g.2.length) hfirst).imp ?_
    intro g g' hpair hsize
    rcases hpair with hlt | ⟨-, hfirst⟩
    · exact absurd hsize (Nat.ne_of_gt hlt)
    · exact hfirst

/-- If every chain belongs to a group, the groups hold as many chains as there are. -/
theorem sum_takeGroups_postAll (hall : ∀ p ∈ ps, (p.chain.groupKey? grouping).isSome) :
    ((ps.foldl (post program) (empty size grouping)).takeGroups.1.map (·.2.length)).sum =
      ps.length := by
  have hkeyed : ((ps.map Posting.chain).filterMap (·.groupKey? grouping)).length = ps.length := by
    rw [List.filterMap_map, List.length_filterMap_eq_countP, List.countP_eq_length]
    exact hall
  rw [(perm_takeGroups.map _).sum_nat, groups_postAll]
  exact Keyed.sum_length_collect_append.trans hkeyed

end Ledger

/-- A chain that has nodes has one at either end. -/
theorem Chain.groupKey?_isSome {c : Chain} {grouping : Grouping} (hgrouping : grouping ≠ .none)
    (hnodes : c.nodes ≠ []) : (c.groupKey? grouping).isSome := by
  cases grouping with
  | none => exact absurd rfl hgrouping
  | callee => exact List.isSome_head?.mpr hnodes
  | caller => exact Option.isSome_iff_exists.mpr ⟨_, List.getLast?_eq_some_getLast hnodes⟩

/-- Whatever is posted to a ledger that groups chains by the node they start from, or by the one they
end at, the groups that are taken out of it divide the chains among these nodes: every chain is in the
group of its node and in no other, in the order in which it was posted, larger groups come before
smaller ones, and groups of one size in the order of their first chains.  They hold as many chains as
were counted.  Afterwards there is nothing left to take, and the tallies are as they were. -/
theorem posted_chains_divided {grouping : Grouping} {key : Chain → Option Node}
    (hkey : grouping = .callee ∧ key = Chain.source? ∨
      grouping = .caller ∧ key = Chain.destination?)
    (program : Program) (size : Nat) {ps : List Posting} (hnodes : ∀ p ∈ ps, p.chain.nodes ≠ []) :
    let l := ps.foldl (Ledger.post program) (.empty size grouping)
    DividedBy key (ps.map Posting.chain) l.takeGroups.1 ∧
      (l.takeGroups.1.map (·.2.length)).sum = l.chainCount ∧ l.chainCount = ps.length ∧
      l.takeGroups.2.takeGroups = ([], l.takeGroups.2) ∧
      { l.takeGroups.2 with groups := l.groups } = l := by
  intro l
  have hnode : (·.groupKey? grouping) = key ∧ grouping ≠ .none := by
    rcases hkey with ⟨rfl, rfl⟩ | ⟨rfl, rfl⟩
    · exact ⟨rfl, by decide⟩
    · exact ⟨rfl, by decide⟩
  have hcount : l.chainCount = ps.length := Ledger.chainCount_postAll.trans (Nat.zero_add _)
  refine ⟨hnode.1 ▸ Ledger.divided_takeGroups, ?_, hcount, ?_, rfl⟩
  · rw [hcount]
    exact Ledger.sum_takeGroups_postAll fun p hp => Chain.groupKey?_isSome hnode.2 (hnodes p hp)
  · show (List.mergeSort [] _, l.takeGroups.2) = _
    rw [List.mergeSort_nil]

/-- The chain of one hop between two methods of these numbers. -/
def Posting.between (source destination : Nat) : Posting where
  chain := { nodes := [.method source, .method destination], lines := [] }
  category := "App"
  source := source
  destination := destination

/-- Chains from three methods to two others, one after the other. -/
def Posting.interleaved : List Posting :=
  [between 3 0, between 1 0, between 2 4, between 1 4, between 2 0]

/-- The method whose chain comes first has fewer than the other two, which have as many as each other. -/
theorem posted_chains_divided_interleaved :
    (∀ p ∈ Posting.interleaved, p.chain.nodes ≠ []) ∧
      ∃ l : Ledger, l = Posting.interleaved.foldl (Ledger.post {}) (.empty 5 .callee) ∧
        DividedBy Chain.source? (Posting.interleaved.map Posting.chain) l.takeGroups.1 ∧
        (l.takeGroups.1.map (·.2.length)).sum = 5 ∧
        Keyed.keys l.takeGroups.1 = [.method 1, .method 2, .method 3] ∧
        l.takeGroups.1.map (·.2.length) = [2, 2, 1] := by
  have hnodes : ∀ p ∈ Posting.interleaved, p.chain.nodes ≠ [] := by
    decide
  obtain ⟨hdivided, hsum, hcount, -⟩ := posted_chains_divided (Or.inl ⟨rfl, rfl⟩) {} 5 hnodes
  exact ⟨hnodes, _, rfl, hdivided, hsum.trans hcount, by cbv, by cbv⟩

end CallAudit

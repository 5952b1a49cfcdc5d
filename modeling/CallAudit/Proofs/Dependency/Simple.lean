import CallAudit.Proofs.Analysis.Reduction
import CallAudit.Proofs.Report.Wording

/-!
# One edge for every joined pair

However many edges join two nodes, one of them stands for all: the one that arrived first
(`map_ends_simpleEdges`, `isEarliest_of_mem_simpleEdges`).  Where calls come before all other edges it
is a call if and only if any of them is (`IsEarliest.isCall_iff`), and they do so in every prepared
graph (`Prepared.ordered_of_ok`).
-/

namespace CallAudit

/-- The ends of an edge, the source before the target. -/
def Edge.ends (e : Edge) : Node × Node :=
  (e.source, e.target)

namespace Graph

variable {g : Graph} {e : Edge}

/-! ## The edges that stand for their pairs -/

/-- The first of a list of edges for each pair of ends. -/
def firstEdges (edges : List Edge) : List Edge :=
  simpleEdges { edges := edges }

theorem firstEdges_concat (edges : List Edge) (e : Edge) : firstEdges (edges ++ [e]) =
    if e.ends ∈ (firstEdges edges).map Edge.ends then firstEdges edges else firstEdges edges ++ [e] := by
  have hany : ((firstEdges edges).any fun k => k.source == e.source && k.target == e.target) = true ↔
      e.ends ∈ (firstEdges edges).map Edge.ends := by
    simp only [List.any_eq_true, Bool.and_eq_true, beq_iff_eq, List.mem_map, Edge.ends, Prod.mk.injEq]
  have hstep : firstEdges (edges ++ [e]) =
      if (firstEdges edges).any fun k => k.source == e.source && k.target == e.target then
        firstEdges edges
      else firstEdges edges ++ [e] := by
    unfold firstEdges simpleEdges
    rw [List.foldl_append]
    rfl
  rw [hstep]
  exact if_congr hany rfl rfl

theorem map_ends_firstEdges (edges : List Edge) :
    (firstEdges edges).map Edge.ends = Distinct.ofList (edges.map Edge.ends) := by
  induction edges using List.reverseRecOn with
  | nil => rfl
  | append_singleton edges e ih =>
    have hlist : Distinct.ofList (edges.map Edge.ends ++ [e.ends]) =
        Distinct.insert (Distinct.ofList (edges.map Edge.ends)) e.ends := Distinct.ofList_append _ _
    rw [firstEdges_concat, List.map_append, List.map_singleton, hlist, Distinct.insert, ← ih]
    split
    · rfl
    · rw [List.map_append, List.map_singleton]

/-- Every joined pair has its edge, in the order of first arrival. -/
theorem map_ends_simpleEdges (g : Graph) : g.simpleEdges.map Edge.ends = Distinct.ofList g.joined :=
  map_ends_firstEdges g.edges

theorem isEarliest_of_mem_firstEdges {edges : List Edge} (h : e ∈ firstEdges edges) :
    IsEarliest { edges := edges } e := by
  induction edges using List.reverseRecOn with
  | nil => exact absurd h List.not_mem_nil
  | append_singleton edges last ih =>
    rw [firstEdges_concat] at h
    -- what was first before stays first, and the last edge is kept only if its pair is new
    have hold : e ∈ firstEdges edges → IsEarliest { edges := edges ++ [last] } e := by
      intro he
      obtain ⟨before, after, hedges, hbefore⟩ := ih he
      dsimp only at hedges
      exact ⟨before, after ++ [last], by rw [hedges, List.append_assoc, List.cons_append], hbefore⟩
    split at h
    · exact hold h
    · next hnew =>
      rcases List.mem_append.mp h with he | he
      · exact hold he
      · obtain rfl := List.mem_singleton.mp he
        refine ⟨edges, [], rfl, fun e' he' hsame => hnew ?_⟩
        rw [map_ends_firstEdges, Distinct.mem_ofList]
        exact List.mem_map.mpr ⟨e', he', Prod.ext hsame.1 hsame.2⟩

theorem isEarliest_of_mem_simpleEdges (h : e ∈ g.simpleEdges) : g.IsEarliest e := by
  have h : e ∈ firstEdges g.edges := h
  exact isEarliest_of_mem_firstEdges h

/-! ## Calls first -/

/-- Whether a node calls another one, in whatever way. -/
def Calls (g : Graph) (caller callee : Node) : Prop :=
  ∃ e ∈ g.edges, e.source = caller ∧ e.target = callee ∧ e.kind.isCall = true

/-- Where calls come first, an edge that is first is a call if any edge between its ends is. -/
theorem IsEarliest.isCall_iff (h : g.IsEarliest e) (hcalls : CallsFirst g.edges) :
    e.kind.isCall = true ↔ g.Calls e.source e.target := by
  obtain ⟨before, after, hedges, hbefore⟩ := h
  constructor
  · intro hcall
    refine ⟨e, ?_, rfl, rfl, hcall⟩
    rw [hedges]
    exact List.mem_append_right _ List.mem_cons_self
  · rintro ⟨e', he', hsource, htarget, hcall⟩
    rw [hedges] at he' hcalls
    rcases List.mem_append.mp he' with he' | he'
    · exact absurd ⟨hsource, htarget⟩ (hbefore e' he')
    rcases List.mem_cons.mp he' with rfl | hafter
    · exact hcall
    · exact List.rel_of_pairwise_cons (List.pairwise_append.mp hcalls).2.1 hafter hcall

end Graph

namespace Prepared

variable {σ : Type} {c : Classifier} {program : Program} {facts : Facts} {ask : Inquiry σ}
  {memory : σ} {p u : Prepared}

theorem ordered_withoutNeedlessCalls (program : Program) (facts : Facts) :
    (withoutNeedlessCalls program facts).1.Ordered := by
  have h : (Graph.operate program (.build program facts)
      [.remove .virtualCalls, .remove (.calls facts.resolvedReflectionCalls)]).Ordered :=
    (Graph.ordered_build program facts).operate _
  exact h

/-- The graph before pruning is what the constructor pass leaves. -/
theorem graph_of_unpruned (h : (unpruned c program facts ask memory).1 = .ok u) :
    u.graph = ((withoutNeedlessCalls program facts).1.addConstructorEdges program ask memory).2.1 := by
  unfold unpruned at h
  dsimp only at h
  split at h
  · cases h
  · next hadd =>
    split at h
    · cases h
    · obtain rfl := Except.ok.inj h
      rw [hadd]

/-- A preparation that succeeds leaves a graph with the calls in front. -/
theorem ordered_of_ok (h : Prepared.of c program facts = .ok p) : p.graph.Ordered := by
  obtain ⟨u, hunpruned, -, rfl⟩ := of_ok h
  have hpassed : (Graph.Operation.apply program (withoutNeedlessCalls program facts).1
      (.addConstructorEdges (Inquiry.remembering c program) [])).Ordered :=
    (ordered_withoutNeedlessCalls program facts).operation _
  have hu : u.graph.Ordered := graph_of_unpruned hunpruned ▸ hpassed
  have hpruned : (Graph.Operation.apply program u.graph (.remove (.nodes u.doomed))).Ordered :=
    hu.operation _
  rw [graph_prune]
  exact hpruned

end Prepared

end CallAudit

import CallAudit.Dependency.Build
import CallAudit.Dependency.Construction
import CallAudit.Proofs.Distinct

/-!
# Graphs keep their nodes

In every graph that is built, reduced and extended, no edge occurs twice and the nodes are the ends of
the edges, in order of arrival (`Graph.Consistent`).  Hence a node lives exactly as long as some edge
touches it.
-/

namespace CallAudit.Graph

variable {g : Graph} {e e' : Edge} {n : Node}

/-- No edge occurs twice, and the nodes are the ends of the edges. -/
structure Consistent (g : Graph) : Prop where
  edges_nodup : g.edges.Nodup
  nodes_eq : g.nodes = endpoints g.edges

theorem mem_endpoints {edges : List Edge} :
    n ∈ endpoints edges ↔ ∃ e ∈ edges, n = e.source ∨ n = e.target := by
  simp [endpoints]

theorem endpoints_append {edges : List Edge} :
    endpoints (edges ++ [e]) = Distinct.insertAll (endpoints edges) [e.source, e.target] := by
  rw [endpoints, List.flatMap_append, Distinct.ofList, Distinct.insertAll_append]
  rfl

namespace Consistent

theorem mem_nodes (h : g.Consistent) : n ∈ g.nodes ↔ ∃ e ∈ g.edges, n = e.source ∨ n = e.target := by
  rw [h.nodes_eq, mem_endpoints]

theorem source_mem (h : g.Consistent) (he : e ∈ g.edges) : e.source ∈ g.nodes :=
  h.mem_nodes.mpr ⟨e, he, Or.inl rfl⟩

theorem target_mem (h : g.Consistent) (he : e ∈ g.edges) : e.target ∈ g.nodes :=
  h.mem_nodes.mpr ⟨e, he, Or.inr rfl⟩

theorem nodes_nodup (h : g.Consistent) : g.nodes.Nodup :=
  h.nodes_eq ▸ Distinct.nodup_ofList _

end Consistent

/-! ## Adding -/

@[simp] theorem mem_edges_addEdge : e' ∈ (g.addEdge e).edges ↔ e' ∈ g.edges ∨ e' = e := by
  unfold addEdge
  split
  · next h => exact ⟨Or.inl, fun he => he.elim id (· ▸ h)⟩
  · simp

@[simp] theorem mem_edges_addEdges {edges : List Edge} :
    e' ∈ (g.addEdges edges).edges ↔ e' ∈ g.edges ∨ e' ∈ edges := by
  induction edges generalizing g with
  | nil => simp [addEdges]
  | cons e edges ih =>
    have hstep : g.addEdges (e :: edges) = (g.addEdge e).addEdges edges := rfl
    rw [hstep, ih, mem_edges_addEdge, List.mem_cons, or_assoc]

@[simp] theorem edges_addVirtualTarget {m : MethodId} : (g.addVirtualTarget m).edges = g.edges := rfl

theorem consistent_empty : Consistent {} := ⟨List.nodup_nil, rfl⟩

theorem Consistent.addEdge (h : g.Consistent) : (g.addEdge e).Consistent := by
  unfold Graph.addEdge
  split
  · exact h
  · next hnew =>
    refine ⟨?_, ?_⟩
    · rw [List.nodup_append]
      refine ⟨h.edges_nodup, by simp, ?_⟩
      rintro a ha b hb rfl
      exact hnew (List.mem_singleton.mp hb ▸ ha)
    · show Distinct.insertAll g.nodes [e.source, e.target] = endpoints (g.edges ++ [e])
      rw [endpoints_append, h.nodes_eq]

theorem Consistent.addEdges {edges : List Edge} (h : g.Consistent) :
    (g.addEdges edges).Consistent := by
  induction edges generalizing g with
  | nil => exact h
  | cons e edges ih => exact ih h.addEdge

theorem Consistent.addVirtualTarget {m : MethodId} (h : g.Consistent) :
    (g.addVirtualTarget m).Consistent := ⟨h.edges_nodup, h.nodes_eq⟩

theorem Consistent.addDispatch {caller : MethodId} {targets : List MethodId} (h : g.Consistent) :
    (g.addDispatch caller targets).Consistent := by
  induction targets generalizing g with
  | nil => exact h
  | cons t targets ih => exact ih h.addEdge.addVirtualTarget

theorem Consistent.addVirtualCall {program : Program} {facts : Facts} {call : MethodId × MethodId}
    (h : g.Consistent) : (addVirtualCall program facts g call).Consistent := by
  unfold Graph.addVirtualCall
  dsimp only
  split
  · exact h.addEdge
  split
  · exact h
  · exact h.addDispatch

theorem consistent_build (program : Program) (facts : Facts) : (build program facts).Consistent := by
  have hcalls : ∀ (calls : List (MethodId × MethodId)) (g : Graph), g.Consistent →
      (calls.foldl (addVirtualCall program facts) g).Consistent := by
    intro calls
    induction calls with
    | nil => exact fun g h => h
    | cons call calls ih => exact fun g h => ih _ h.addVirtualCall
  exact (hcalls _ _ consistent_empty.addEdges).addEdges.addEdges.addEdges

theorem Consistent.addConstructorEdges {σ : Type} {program : Program} {ask : Inquiry σ} {memory : σ}
    (h : g.Consistent) : (g.addConstructorEdges program ask memory).2.1.Consistent := by
  unfold Graph.addConstructorEdges
  split
  · exact h
  · have hmarked : Consistent { g with constructorPassDone := true } := ⟨h.edges_nodup, h.nodes_eq⟩
    dsimp only
    split
    · exact hmarked
    · exact hmarked.addEdges

/-! ## Taking away -/

theorem edges_keepEdges (g : Graph) (keep : Edge → Bool) :
    (g.keepEdges keep).2.edges = g.edges.filter keep := by
  unfold keepEdges
  dsimp only
  split
  · next h =>
    -- nothing was removed, so every edge passes the test
    show g.edges = g.edges.filter keep
    refine (List.filter_eq_self.mpr ?_).symm
    refine List.length_filter_eq_length_iff.mp ?_
    have := List.length_filter_le keep g.edges
    omega
  · rfl

theorem Consistent.keepEdges {keep : Edge → Bool} (h : g.Consistent) :
    (g.keepEdges keep).2.Consistent := by
  unfold Graph.keepEdges
  dsimp only
  split
  · exact h
  · exact ⟨h.edges_nodup.filter keep, rfl⟩

@[simp] theorem virtualTargets_keepEdges (keep : Edge → Bool) :
    (g.keepEdges keep).2.virtualTargets = g.virtualTargets := by
  unfold keepEdges
  dsimp only
  split <;> rfl

end CallAudit.Graph

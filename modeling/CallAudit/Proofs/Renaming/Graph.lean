import CallAudit.Proofs.Analysis.Reduction
import CallAudit.Proofs.Dependency.Resolution
import CallAudit.Proofs.Renaming.Program

/-!
# Graphs at other places

From the same facts at other places the same graph is built, at other places (`Renamed.build`): its
edges may come in another order, but they are the same in number and kind, and so are those that each
reduction takes away or adds.
-/

namespace CallAudit

/-- Lists whose elements correspond one to one, without repetitions, are the same up to order. -/
theorem perm_map_of_mem_iff {α β : Type} {f : α → β} {g : β → α} (hgf : ∀ a, g (f a) = a)
    (hfg : ∀ b, f (g b) = b) {xs : List α} {ys : List β} (hxs : xs.Nodup) (hys : ys.Nodup)
    (h : ∀ a, f a ∈ ys ↔ a ∈ xs) : (xs.map f).Perm ys := by
  have hf : Function.Injective f := Function.LeftInverse.injective hgf
  refine (List.perm_ext_iff_of_nodup (hxs.map hf) hys).mpr fun b => ?_
  rw [← hfg b, List.mem_map_of_injective hf, h]

/-- Of elements that correspond, up to order, questions with the same answers bring up the same. -/
theorem perm_filterMap_of_map {α β γ : Type} {f : α → β} {xs : List α} {ys : List β}
    {ask : α → Option γ} {ask' : β → Option γ} (h : (xs.map f).Perm ys)
    (hask : ∀ a, ask' (f a) = ask a) : (xs.filterMap ask).Perm (ys.filterMap ask') := by
  have hperm := h.filterMap ask'
  rw [List.filterMap_map] at hperm
  refine (List.Perm.of_eq ?_).trans hperm
  exact List.filterMap_congr fun a _ => (hask a).symm

namespace Graph

/-- The edges of `g'` are those of `g`, with their ends at other places. -/
structure Renamed (ρ : Renaming) (g g' : Graph) : Prop where
  consistent : g.Consistent
  consistent' : g'.Consistent
  mem_edges : ∀ e, ρ.edge e ∈ g'.edges ↔ e ∈ g.edges

namespace Renamed

variable {ρ : Renaming} {g g' : Graph} {e : Edge} {m n : Node}

theorem symm (h : Renamed ρ g g') : Renamed ρ.symm g' g :=
  ⟨h.consistent', h.consistent, fun e => by rw [← h.mem_edges, Renaming.edge_symm_edge]⟩

theorem edges_perm (h : Renamed ρ g g') : (g.edges.map ρ.edge).Perm g'.edges :=
  perm_map_of_mem_iff (g := ρ.symm.edge) (fun _ => Renaming.symm_edge_edge)
    (fun _ => Renaming.edge_symm_edge) h.consistent.edges_nodup h.consistent'.edges_nodup
    h.mem_edges

theorem mem_nodes (h : Renamed ρ g g') (n : Node) : ρ.node n ∈ g'.nodes ↔ n ∈ g.nodes := by
  have hforward : ∀ {ρ g g' n}, Renamed ρ g g' → n ∈ g.nodes → ρ.node n ∈ g'.nodes := by
    intro ρ g g' n h hn
    obtain ⟨e, he, hend⟩ := h.consistent.mem_nodes.mp hn
    refine h.consistent'.mem_nodes.mpr ⟨ρ.edge e, (h.mem_edges e).mpr he, ?_⟩
    exact hend.imp (congrArg ρ.node) (congrArg ρ.node)
  refine ⟨fun hn => ?_, hforward h⟩
  have hback := hforward h.symm hn
  rwa [Renaming.symm_node_node] at hback

theorem nodes_perm (h : Renamed ρ g g') : (g.nodes.map ρ.node).Perm g'.nodes :=
  perm_map_of_mem_iff (g := ρ.symm.node) (fun _ => Renaming.symm_node_node)
    (fun _ => Renaming.node_symm_node) h.consistent.nodes_nodup h.consistent'.nodes_nodup
    h.mem_nodes

theorem length_edges (h : Renamed ρ g g') : g'.edges.length = g.edges.length := by
  rw [← h.edges_perm.length_eq, List.length_map]

theorem length_nodes (h : Renamed ρ g g') : g'.nodes.length = g.nodes.length := by
  rw [← h.nodes_perm.length_eq, List.length_map]

/-- As many pairs of nodes are joined. -/
theorem length_joined (h : Renamed ρ g g') :
    (Distinct.ofList g'.joined).length = (Distinct.ofList g.joined).length := by
  have hinjective : Function.Injective (Prod.map ρ.node ρ.node) :=
    ρ.node_injective.prodMap ρ.node_injective
  have hpairs : g'.joined.Perm (g.joined.map (Prod.map ρ.node ρ.node)) := by
    have hperm := h.edges_perm.symm.map fun e => (e.source, e.target)
    rw [List.map_map] at hperm
    rw [Graph.joined, Graph.joined, List.map_map]
    exact hperm
  rw [(Distinct.ofList_perm fun _ => hpairs.mem_iff).length_eq,
    ← Distinct.map_ofList fun _ _ _ _ hab => hinjective hab, List.length_map]

theorem dependsOn (h : Renamed ρ g g') (hmn : g.DependsOn m n) :
    g'.DependsOn (ρ.node m) (ρ.node n) := by
  obtain ⟨e, he, rfl, rfl⟩ := hmn
  exact ⟨ρ.edge e, (h.mem_edges e).mpr he, rfl, rfl⟩

/-! ### Taking away and adding -/

theorem keepEdges (h : Renamed ρ g g') {keep keep' : Edge → Bool}
    (hkeep : ∀ e, keep' (ρ.edge e) = keep e) :
    Renamed ρ (g.keepEdges keep).2 (g'.keepEdges keep').2 where
  consistent := h.consistent.keepEdges
  consistent' := h.consistent'.keepEdges
  mem_edges := by
    intro e
    rw [edges_keepEdges, edges_keepEdges, List.mem_filter, List.mem_filter, h.mem_edges, hkeep]

/-- As many edges are taken away as are not kept. -/
theorem count_keepEdges (g : Graph) (keep : Edge → Bool) :
    (g.keepEdges keep).1 = g.edges.length - (g.keepEdges keep).2.edges.length := by
  rw [edges_keepEdges]
  unfold Graph.keepEdges
  dsimp only
  split
  · next hnone => exact hnone.symm
  · rfl

theorem count_keepEdges_eq (h : Renamed ρ g g') {keep keep' : Edge → Bool}
    (hkeep : ∀ e, keep' (ρ.edge e) = keep e) : (g'.keepEdges keep').1 = (g.keepEdges keep).1 := by
  rw [count_keepEdges, count_keepEdges, h.length_edges, (h.keepEdges hkeep).length_edges]

theorem addEdges (h : Renamed ρ g g') {new new' : List Edge}
    (hnew : ∀ e, ρ.edge e ∈ new' ↔ e ∈ new) : Renamed ρ (g.addEdges new) (g'.addEdges new') where
  consistent := h.consistent.addEdges
  consistent' := h.consistent'.addEdges
  mem_edges := by
    intro e
    rw [mem_edges_addEdges, mem_edges_addEdges, h.mem_edges, hnew]

theorem isDirectlyCalled (h : Renamed ρ g g') (m : MethodId) :
    g'.isDirectlyCalled (ρ.method m) = g.isDirectlyCalled m := by
  unfold Graph.isDirectlyCalled
  rw [← h.edges_perm.any_eq, List.any_map]
  congr 1
  funext e
  show (e.kind.isDirectCall && ρ.node e.target == ρ.node (.method m)) = _
  rw [Bool.eq_iff_iff]
  simp

end Renamed

end Graph

namespace Renamed

variable {ρ : Renaming} {p p' : Program} {f f' : Facts} {c c' : Classifier} {g g' : Graph}
  {e : Edge} {n : Node} {a b m : MethodId}

/-! ## What is built -/

theorem overrides (h : Renamed ρ p p' f f' c c') (hab : Dispatch.Overrides f a b) :
    Dispatch.Overrides f' (ρ.method a) (ρ.method b) :=
  (h.facts.overrides a b).mpr hab

theorem runs (h : Renamed ρ p p' f f' c c') (hruns : Dispatch.Runs p f a b) :
    Dispatch.Runs p' f' (ρ.method a) (ρ.method b) := by
  rcases hruns with ⟨hnone, rfl⟩ | ⟨⟨k, hk⟩, hruns⟩
  · refine Or.inl ⟨fun k hk => ?_, rfl⟩
    -- what overrides the callee at its other place, overrides it here
    have hback := h.symm.overrides hk
    rw [Renaming.symm, ρ.method.symm_apply_apply] at hback
    exact hnone _ hback
  · refine Or.inr ⟨⟨_, h.overrides hk⟩, ?_⟩
    rcases hruns with ⟨hne, hclass, hreach⟩ | ⟨rfl, hself⟩
    · refine Or.inl ⟨fun heq => hne (ρ.method.injective heq), ?_, ?_⟩
      · rw [h.program.isInterfaceMethod, hclass]
      · exact hreach.lift ρ.method fun _ _ => h.overrides
    · exact Or.inr ⟨rfl, h.overrides hself⟩

theorem recorded (h : Renamed ρ p p' f f' c c') (he : Graph.Recorded p f e) :
    Graph.Recorded p' f' (ρ.edge e) := by
  cases he with
  | directCall hcall => exact .directCall ((h.facts.directCalls _ _).mpr hcall)
  | plainCall hcall hvirtual =>
    refine .plainCall ((h.facts.virtualCalls _ _).mpr hcall) ?_
    rw [h.program.isVirtual, hvirtual]
  | dispatch hcall hvirtual hclass hruns =>
    refine .dispatch ((h.facts.virtualCalls _ _).mpr hcall) ?_ ?_ (h.runs hruns)
    · rw [h.program.isVirtual, hvirtual]
    · rw [h.program.isInterfaceMethod, hclass]
  | staticConstructor hpair => exact .staticConstructor ((h.facts.staticConstructors _ _).mpr hpair)
  | fieldAccess hpair => exact .fieldAccess ((h.facts.fieldAccesses _ _).mpr hpair)
  | typeReference hpair => exact .typeReference ((h.facts.typeDependencies _ _).mpr hpair)

theorem recorded_iff (h : Renamed ρ p p' f f' c c') (e : Edge) :
    Graph.Recorded p' f' (ρ.edge e) ↔ Graph.Recorded p f e := by
  refine ⟨fun he => ?_, h.recorded⟩
  have hback := h.symm.recorded he
  rwa [Renaming.symm_edge_edge] at hback

theorem build (h : Renamed ρ p p' f f' c c') :
    Graph.Renamed ρ (Graph.build p f) (Graph.build p' f') where
  consistent := Graph.consistent_build p f
  consistent' := Graph.consistent_build p' f'
  mem_edges := by
    intro e
    rw [Graph.mem_edges_build, Graph.mem_edges_build, Graph.calledFor_iff_recorded,
      Graph.calledFor_iff_recorded, h.recorded_iff]

theorem dispatchedTo (h : Renamed ρ p p' f f' c c') (m : MethodId) :
    Graph.DispatchedTo p' f' (ρ.method m) ↔ Graph.DispatchedTo p f m := by
  rw [Graph.dispatchedTo_iff_recorded, Graph.dispatchedTo_iff_recorded]
  constructor
  · rintro ⟨a, ha⟩
    refine ⟨ρ.method.symm a, (h.recorded_iff _).mp ?_⟩
    rwa [Renaming.edge, Renaming.node, Renaming.node, ρ.method.apply_symm_apply]
  · rintro ⟨a, ha⟩
    exact ⟨ρ.method a, h.recorded ha⟩

/-! ## Calls that are needless -/

theorem isCallAmong (h : Renamed ρ p p' f f' c c') (e : Edge) :
    Graph.isCallAmong f'.resolvedReflectionCalls (ρ.edge e) =
      Graph.isCallAmong f.resolvedReflectionCalls e := by
  obtain ⟨source, target, kind⟩ := e
  unfold Graph.isCallAmong Renaming.edge
  cases source <;> cases target <;> try rfl
  next a b =>
    dsimp only [Renaming.node]
    congr 1
    rw [Bool.eq_iff_iff, List.contains_iff_mem, List.contains_iff_mem]
    exact h.facts.resolvedCalls a b

theorem withoutNeedlessCalls (h : Renamed ρ p p' f f' c c') :
    Graph.Renamed ρ (Prepared.withoutNeedlessCalls p f).1 (Prepared.withoutNeedlessCalls p' f').1 ∧
      (Prepared.withoutNeedlessCalls p' f').2 = (Prepared.withoutNeedlessCalls p f).2 := by
  have hvirtual : Graph.Renamed ρ (Graph.build p f).removeVirtualCalls.2
      (Graph.build p' f').removeVirtualCalls.2 := h.build.keepEdges fun _ => rfl
  have hvirtualCount : (Graph.build p' f').removeVirtualCalls.1 =
      (Graph.build p f).removeVirtualCalls.1 := h.build.count_keepEdges_eq fun _ => rfl
  have hcalls : ∀ e, (!Graph.isCallAmong f'.resolvedReflectionCalls (ρ.edge e)) =
      !Graph.isCallAmong f.resolvedReflectionCalls e := fun e => congrArg not (h.isCallAmong e)
  have hresolved : Graph.Renamed ρ ((Graph.build p f).removeVirtualCalls.2.removeCalls
        f.resolvedReflectionCalls).2
      ((Graph.build p' f').removeVirtualCalls.2.removeCalls f'.resolvedReflectionCalls).2 :=
    hvirtual.keepEdges hcalls
  have hresolvedCount : ((Graph.build p' f').removeVirtualCalls.2.removeCalls
        f'.resolvedReflectionCalls).1 =
      ((Graph.build p f).removeVirtualCalls.2.removeCalls f.resolvedReflectionCalls).1 :=
    hvirtual.count_keepEdges_eq hcalls
  unfold Prepared.withoutNeedlessCalls
  dsimp only
  refine ⟨hresolved, ?_⟩
  rw [h.build.length_nodes, h.build.length_edges, hvirtualCount, hresolvedCount]

/-! ## Constructor dependencies -/

theorem needsConstruction (h : Renamed ρ p p' f f' c c') (hg : g.Renamed ρ g') (m : MethodId) :
    Graph.needsConstruction p' g' (ρ.method m) = Graph.needsConstruction p g m := by
  unfold Graph.needsConstruction
  rw [h.program.method?, hg.isDirectlyCalled]

theorem mem_constructorsOf (h : Renamed ρ p p' f f' c c') (declaringType : String) (m : MethodId) :
    ρ.method m ∈ p'.constructorsOf declaringType ↔ m ∈ p.constructorsOf declaringType := by
  rw [Program.mem_constructorsOf, Program.mem_constructorsOf, h.program.method?]

theorem constructionEdges (h : Renamed ρ p p' f f' c c') (hg : g.Renamed ρ g')
    {targets targets' : List MethodId} (htargets : ∀ m, ρ.method m ∈ targets' ↔ m ∈ targets)
    (he : e ∈ Graph.constructionEdges c p g targets) :
    ρ.edge e ∈ Graph.constructionEdges c' p' g' targets' := by
  rw [Graph.mem_constructionEdges] at he ⊢
  obtain ⟨m, row, k, hm, hneeds, hfinds, hrow, hk, hnode, rfl⟩ := he
  refine ⟨ρ.method m, row, ρ.method k, (htargets m).mpr hm, ?_, ?_, ?_, ?_, ?_, rfl⟩
  · rw [h.needsConstruction hg, hneeds]
  · have hverdict := h.verdict (.method m)
    rw [Renaming.node] at hverdict
    rw [hverdict, hfinds]
  · rw [h.program.method?, hrow]
  · rwa [h.mem_constructorsOf]
  · exact (hg.mem_nodes (.method k)).mpr hnode

theorem mem_constructionEdges (h : Renamed ρ p p' f f' c c') (hg : g.Renamed ρ g')
    {targets targets' : List MethodId} (htargets : ∀ m, ρ.method m ∈ targets' ↔ m ∈ targets)
    (e : Edge) : ρ.edge e ∈ Graph.constructionEdges c' p' g' targets' ↔
      e ∈ Graph.constructionEdges c p g targets := by
  refine ⟨fun he => ?_, h.constructionEdges hg htargets⟩
  have hback : ∀ m, ρ.symm.method m ∈ targets ↔ m ∈ targets' := fun m => by
    rw [← htargets, Renaming.symm, ρ.method.apply_symm_apply]
  have he' := h.symm.constructionEdges hg.symm hback he
  rwa [Renaming.symm_edge_edge] at he'

/-! ## What reaches something interesting -/

theorem finds (h : Renamed ρ p p' f f' c c') (n : Node) :
    c'.Finds p' (ρ.node n) ↔ c.Finds p n := by
  rw [Classifier.finds_iff, Classifier.finds_iff, h.verdict]

theorem reaches (h : Renamed ρ p p' f f' c c') (hg : g.Renamed ρ g') (n : Node) :
    g'.Reaches c' p' (ρ.node n) ↔ g.Reaches c p n := by
  constructor
  · rintro ⟨m, hreach, hm⟩
    refine ⟨ρ.symm.node m, ?_, (h.finds _).mp (by rwa [Renaming.node_symm_node])⟩
    have hback : Relation.ReflTransGen g.DependsOn (ρ.symm.node (ρ.node n)) (ρ.symm.node m) :=
      hreach.lift ρ.symm.node fun _ _ => hg.symm.dependsOn
    rwa [Renaming.symm_node_node] at hback
  · rintro ⟨m, hreach, hm⟩
    exact ⟨ρ.node m, hreach.lift ρ.node fun _ _ => hg.dependsOn, (h.finds m).mpr hm⟩

end Renamed

end CallAudit

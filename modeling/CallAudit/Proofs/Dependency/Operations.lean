import CallAudit.Proofs.Dependency.Edges

/-!
# Graphs under operations

After it is built a graph is only changed by taking edges away and by the constructor pass.  Whatever
is done to it in whatever order, its edges stay distinct with the calls in front, and its nodes are the
ends of its edges (`Ordered`).  So what a removal leaves is a matter of its criterion alone, and removals
commute and are idempotent (`operations_keep_order`).
-/

namespace CallAudit.Graph

variable {program : Program} {facts : Facts} {g : Graph} {e : Edge}

/-! ## Calls in front -/

/-- Whatever stands before a call is a call. -/
def CallsFirst (edges : List Edge) : Prop :=
  edges.Pairwise fun e later => later.kind.isCall = true → e.kind.isCall = true

theorem callsFirst_of_forall {edges : List Edge} (h : ∀ e ∈ edges, e.kind.isCall = true) :
    CallsFirst edges :=
  List.pairwise_of_forall_mem_list fun e he _ _ _ => h e he

theorem CallsFirst.append {edges new : List Edge} (h : CallsFirst edges)
    (hnew : ∀ e ∈ new, e.kind.isCall = false) : CallsFirst (edges ++ new) := by
  refine List.pairwise_append.mpr ⟨h, ?_, ?_⟩
  · refine List.pairwise_of_forall_mem_list fun e _ later hlater hcall => ?_
    exact absurd hcall (by simp [hnew later hlater])
  · intro e _ later hlater hcall
    exact absurd hcall (by simp [hnew later hlater])

/-! ## Adding -/

/-- Edges that are added come after those that are there. -/
theorem edges_addEdges_eq_append (g : Graph) (edges : List Edge) :
    ∃ new, (g.addEdges edges).edges = g.edges ++ new ∧ ∀ e ∈ new, e ∈ edges := by
  induction edges generalizing g with
  | nil => exact ⟨[], (List.append_nil _).symm, by simp⟩
  | cons e edges ih =>
    obtain ⟨new, hnew, hmem⟩ := ih (g.addEdge e)
    have hlater : ∀ e' ∈ new, e' ∈ e :: edges := fun e' he' => List.mem_cons_of_mem e (hmem e' he')
    have hstep : g.addEdges (e :: edges) = (g.addEdge e).addEdges edges := rfl
    rw [hstep, hnew]
    unfold addEdge
    split
    · exact ⟨new, rfl, hlater⟩
    · refine ⟨e :: new, by rw [List.append_assoc, List.singleton_append], ?_⟩
      intro e' he'
      rcases List.mem_cons.mp he' with rfl | he'
      · exact List.mem_cons_self
      · exact hlater e' he'

theorem CallsFirst.addEdges {edges : List Edge} (h : CallsFirst g.edges)
    (hedges : ∀ e ∈ edges, e.kind.isCall = false) : CallsFirst (g.addEdges edges).edges := by
  obtain ⟨new, hnew, hmem⟩ := edges_addEdges_eq_append g edges
  rw [hnew]
  exact h.append fun e he => hedges e (hmem e he)

/-- Whoever is asked, the pass has nothing to add but constructor dependencies. -/
theorem kind_of_mem_newConstructorEdges {σ : Type} {ask : Inquiry σ} {ms : List MethodId}
    {memory memory' : σ} {edges : List Edge}
    (h : newConstructorEdges program g ask ms memory = (.ok edges, memory')) (he : e ∈ edges) :
    e.kind = .constructorDependency := by
  induction ms generalizing memory memory' edges with
  | nil =>
    obtain rfl := Except.ok.inj (Prod.mk.inj h).1
    exact absurd he (by simp)
  | cons m ms ih =>
    rw [newConstructorEdges] at h
    split at h
    · split at h
      · cases h
      · exact ih h he
      · split at h
        next hrest =>
          obtain rfl := Except.ok.inj (Prod.mk.inj h).1
          rcases List.mem_append.mp he with he | he
          · unfold constructorEdges at he
            split at he
            · exact absurd he (by simp)
            · obtain ⟨k, -, rfl⟩ := List.mem_map.mp he
              rfl
          · exact ih hrest he
        · cases h
    · exact ih h he

/-- The constructor pass fails and leaves edges and nodes alone, or puts constructor dependencies
after the edges and tells how many. -/
theorem addConstructorEdges_cases {σ : Type} (program : Program) (ask : Inquiry σ) (g : Graph)
    (memory : σ) :
    (∃ err, (g.addConstructorEdges program ask memory).1 = .error err ∧
      (g.addConstructorEdges program ask memory).2.1.edges = g.edges ∧
      (g.addConstructorEdges program ask memory).2.1.nodes = g.nodes) ∨
    ∃ new, (g.addConstructorEdges program ask memory).1 = .ok new.length ∧
      (g.addConstructorEdges program ask memory).2.1.edges = g.edges ++ new ∧
      ∀ e ∈ new, e.kind = .constructorDependency := by
  unfold addConstructorEdges
  split
  · exact Or.inl ⟨_, rfl, rfl, rfl⟩
  dsimp only
  split
  · exact Or.inl ⟨_, rfl, rfl, rfl⟩
  next edges memory' hnew =>
    obtain ⟨new, hedges, hmem⟩ :=
      edges_addEdges_eq_append { g with constructorPassDone := true } edges
    refine Or.inr ⟨new, ?_, hedges, fun e he => kind_of_mem_newConstructorEdges hnew (hmem e he)⟩
    dsimp only at hedges ⊢
    rw [hedges, List.length_append, Nat.add_sub_cancel_left]

/-! ## The mark of the pass -/

/-- What no step changes is not changed by all of them. -/
theorem foldl_keeps {α β σ : Type} {step : α → β → α} {k : α → σ} (h : ∀ a b, k (step a b) = k a) (bs : List β)
    (a : α) : k (bs.foldl step a) = k a := by
  induction bs generalizing a with
  | nil => rfl
  | cons b bs ih => exact (ih _).trans (h a b)

theorem constructorPassDone_addEdge (g : Graph) (e : Edge) :
    (g.addEdge e).constructorPassDone = g.constructorPassDone := by
  unfold addEdge
  split <;> rfl

theorem constructorPassDone_addDispatch (g : Graph) (caller : MethodId)
    (targets : List MethodId) :
    (g.addDispatch caller targets).constructorPassDone = g.constructorPassDone := by
  unfold addDispatch
  refine foldl_keeps (fun g target => ?_) targets g
  exact constructorPassDone_addEdge g _

theorem constructorPassDone_addVirtualCall (g : Graph) (call : MethodId × MethodId) :
    (addVirtualCall program facts g call).constructorPassDone = g.constructorPassDone := by
  simp only [addVirtualCall]
  split
  · exact constructorPassDone_addEdge g _
  split
  · rfl
  · exact constructorPassDone_addDispatch g _ _

/-- A graph that was only built has the constructor pass before it. -/
theorem constructorPassDone_build (program : Program) (facts : Facts) :
    (build program facts).constructorPassDone = false := by
  have hedges : ∀ es (g : Graph), (g.addEdges es).constructorPassDone = g.constructorPassDone :=
    foldl_keeps constructorPassDone_addEdge
  have hcalls : ∀ (calls : List (MethodId × MethodId)) (g : Graph),
      (calls.foldl (addVirtualCall program facts) g).constructorPassDone = g.constructorPassDone :=
    foldl_keeps constructorPassDone_addVirtualCall
  unfold build addDirectCalls addStaticConstructors addFieldAccesses addTypeReferences
  rw [hedges, hedges, hedges, hcalls, hedges]

theorem constructorPassDone_keepEdges (g : Graph) (keep : Edge → Bool) :
    (g.keepEdges keep).2.constructorPassDone = g.constructorPassDone := by
  unfold keepEdges
  dsimp only
  split <;> rfl

/-- The mark of the pass is nothing to the edges. -/
theorem Consistent.marked {g : Graph} (h : g.Consistent) :
    Consistent { g with constructorPassDone := true } := ⟨h.edges_nodup, h.nodes_eq⟩

/-! ## Taking away -/

/-- A way of taking edges away. -/
inductive Removal where
  | virtualCalls
  | calls (pairs : List (MethodId × MethodId))
  | nodes (doomed : List Node)

namespace Removal

/-- Takes edges away, and tells how many. -/
def apply (g : Graph) : Removal → Nat × Graph
  | virtualCalls => g.removeVirtualCalls
  | calls pairs => g.removeCalls pairs
  | nodes doomed => g.removeNodes doomed

/-- Whether an edge is to be taken away. -/
def Takes : Removal → Edge → Prop
  | virtualCalls, e => e.kind = .virtualCallToVirtual
  | calls pairs, e => e.kind.isCall = true ∧
      ∃ pair ∈ pairs, e.source = .method pair.1 ∧ e.target = .method pair.2
  | nodes doomed, e => e.source ∈ doomed ∨ e.target ∈ doomed

instance (r : Removal) : DecidablePred r.Takes := fun e =>
  match r with
  | virtualCalls => inferInstanceAs (Decidable (e.kind = .virtualCallToVirtual))
  | calls pairs => inferInstanceAs (Decidable (e.kind.isCall = true ∧
      ∃ pair ∈ pairs, e.source = .method pair.1 ∧ e.target = .method pair.2))
  | nodes doomed => inferInstanceAs (Decidable (e.source ∈ doomed ∨ e.target ∈ doomed))

end Removal

theorem isCallAmong_iff {pairs : List (MethodId × MethodId)} : isCallAmong pairs e = true ↔
    e.kind.isCall = true ∧
      ∃ pair ∈ pairs, e.source = .method pair.1 ∧ e.target = .method pair.2 := by
  obtain ⟨source, target, kind⟩ := e
  unfold isCallAmong
  rw [Bool.and_eq_true]
  refine and_congr_right fun _ => ?_
  cases source <;> cases target <;> simp

theorem Removal.apply_eq_keepEdges (r : Removal) (g : Graph) :
    r.apply g = g.keepEdges fun e => ¬r.Takes e := by
  cases r with
  | virtualCalls =>
    refine congrArg g.keepEdges (funext fun e => ?_)
    rw [Bool.eq_iff_iff, bne_iff_ne, decide_eq_true_eq]
    rfl
  | calls pairs =>
    refine congrArg g.keepEdges (funext fun e => ?_)
    rw [Bool.eq_iff_iff, Bool.not_eq_true', ← Bool.not_eq_true, isCallAmong_iff, decide_eq_true_eq]
    rfl
  | nodes doomed =>
    refine congrArg g.keepEdges (funext fun e => ?_)
    simp only [Takes, List.contains_eq_mem, not_or, Bool.decide_and, decide_not]

namespace Consistent

/-- What is kept makes up the graph, whether anything was taken away or not. -/
theorem keepEdges_eq (h : g.Consistent) (keep : Edge → Bool) :
    g.keepEdges keep = (g.edges.countP fun e => !keep e,
      { g with edges := g.edges.filter keep, nodes := endpoints (g.edges.filter keep) }) := by
  have hcount := List.length_eq_countP_add_countP keep (l := g.edges)
  simp only [Bool.not_eq_true, Bool.decide_eq_false] at hcount
  have hremoved : g.edges.length - (g.edges.filter keep).length = g.edges.countP fun e => !keep e := by
    rw [← List.countP_eq_length_filter]
    omega
  unfold Graph.keepEdges
  dsimp only
  rw [hremoved]
  split
  · -- nothing is rebuilt, and the old nodes are the ends of the old edges
    next hzero =>
    have hall : g.edges.filter keep = g.edges := by
      rw [← List.length_filter_eq_length_iff.trans List.filter_eq_self.symm]
      rw [← List.countP_eq_length_filter]
      omega
    rw [hall, ← h.nodes_eq, hzero]
  · rfl

variable (h : g.Consistent) (r r' : Removal)
include h

/-- A removal keeps the edges that it does not take, in their order. -/
theorem apply_eq : r.apply g = (g.edges.countP r.Takes,
    { g with
      edges := g.edges.filter fun e => ¬r.Takes e
      nodes := endpoints (g.edges.filter fun e => ¬r.Takes e) }) := by
  rw [r.apply_eq_keepEdges, h.keepEdges_eq]
  simp only [decide_not, Bool.not_not]

theorem apply : (r.apply g).2.Consistent := by
  rw [h.apply_eq]
  exact ⟨h.edges_nodup.filter _, rfl⟩

theorem apply_comm : (r'.apply (r.apply g).2).2 = (r.apply (r'.apply g).2).2 := by
  rw [(h.apply r).apply_eq, (h.apply r').apply_eq, h.apply_eq, h.apply_eq]
  dsimp only
  rw [List.filter_filter, List.filter_filter]
  simp only [Bool.and_comm]

theorem apply_idem : r.apply (r.apply g).2 = (0, (r.apply g).2) := by
  have hnone : (g.edges.filter fun e => ¬r.Takes e).countP r.Takes = 0 := by
    rw [List.countP_eq_zero]
    intro e he
    simpa using (List.mem_filter.mp he).2
  rw [(h.apply r).apply_eq, h.apply_eq]
  dsimp only
  rw [hnone, List.filter_filter]
  simp only [Bool.and_self]

theorem touched {n : Node} : n ∈ g.nodes ↔ ∃ e ∈ g.edges, e.touches n = true := by
  rw [h.mem_nodes]
  simp only [Edge.touches, Bool.or_eq_true, beq_iff_eq, @eq_comm _ n]

/-- No edge is left at a node that was taken away. -/
theorem not_touches_of_removed {doomed : List Node} {n : Node} (hn : n ∈ doomed)
    (he : e ∈ (g.removeNodes doomed).2.edges) : e.touches n = false := by
  have he' : e ∈ ((Removal.nodes doomed).apply g).2.edges := he
  rw [h.apply_eq, List.mem_filter] at he'
  have hkept := not_or.mp (of_decide_eq_true he'.2)
  rw [Edge.touches, Bool.or_eq_false_iff, beq_eq_false_iff_ne, beq_eq_false_iff_ne]
  exact ⟨fun hs => hkept.1 (hs ▸ hn), fun ht => hkept.2 (ht ▸ hn)⟩

end Consistent

/-! ## Taking away again and again -/

/-- Takes edges away in one way after another. -/
def removeAll (g : Graph) (removals : List Removal) : Graph :=
  removals.foldl (fun g r => (r.apply g).2) g

theorem removeAll_cons (r : Removal) (removals : List Removal) :
    g.removeAll (r :: removals) = (r.apply g).2.removeAll removals :=
  rfl

namespace Consistent

theorem removeAll (h : g.Consistent) (removals : List Removal) : (g.removeAll removals).Consistent := by
  induction removals generalizing g with
  | nil => exact h
  | cons r removals ih => exact ih (h.apply r)

/-- What is left are the edges that no removal takes. -/
theorem mem_edges_removeAll (h : g.Consistent) (removals : List Removal) :
    e ∈ (g.removeAll removals).edges ↔ e ∈ g.edges ∧ ∀ r ∈ removals, ¬r.Takes e := by
  induction removals generalizing g with
  | nil => simp [Graph.removeAll]
  | cons r removals ih =>
    rw [removeAll_cons, ih (h.apply r), h.apply_eq, List.mem_filter, decide_eq_true_eq,
      List.forall_mem_cons, and_assoc]

theorem mem_nodes_of_removeAll (h : g.Consistent) (removals : List Removal) {n : Node}
    (hn : n ∈ (g.removeAll removals).nodes) : n ∈ g.nodes := by
  obtain ⟨e, he, hend⟩ := (h.removeAll removals).mem_nodes.mp hn
  exact h.mem_nodes.mpr ⟨e, ((h.mem_edges_removeAll removals).mp he).1, hend⟩

end Consistent

/-! ## Any number of operations -/

/-- What may be done to a graph that is built. The constructor pass may ask anyone. -/
inductive Operation : Type 1 where
  | remove (removal : Removal)
  | addConstructorEdges {σ : Type} (ask : Inquiry σ) (memory : σ)

/-- The graph after an operation, be it successful or not. -/
def Operation.apply (program : Program) (g : Graph) : Operation → Graph
  | remove removal => (removal.apply g).2
  | addConstructorEdges ask memory => (g.addConstructorEdges program ask memory).2.1

/-- The graph after any number of operations. -/
def operate (program : Program) (g : Graph) (operations : List Operation) : Graph :=
  operations.foldl (Operation.apply program) g

/-- A consistent graph with the calls in front. -/
structure Ordered (g : Graph) : Prop extends Consistent g where
  callsFirst : CallsFirst g.edges

theorem ordered_build (program : Program) (facts : Facts) : (build program facts).Ordered where
  toConsistent := consistent_build program facts
  callsFirst := by
    have hcalls : CallsFirst (facts.virtualCalls.foldl (addVirtualCall program facts)
        (({} : Graph).addDirectCalls facts.directCalls)).edges := by
      refine callsFirst_of_forall fun e he => ?_
      rw [mem_edges_addVirtualCalls, addDirectCalls, mem_edges_addEdges] at he
      rcases he with (he | he) | ⟨call, -, ⟨-, rfl⟩ | ⟨-, -, t, -, rfl⟩⟩
      · exact absurd he (by simp)
      · obtain ⟨call, -, rfl⟩ := List.mem_map.mp he
        rfl
      · rfl
      · rfl
    -- what comes after the calls is added by lists of one kind each
    have hothers : ∀ {α : Type} (f : α → Edge) (xs : List α), (∀ x, (f x).kind.isCall = false) →
        ∀ e ∈ xs.map f, e.kind.isCall = false := by
      intro α f xs hf e he
      obtain ⟨x, -, rfl⟩ := List.mem_map.mp he
      exact hf x
    exact ((hcalls.addEdges (hothers _ _ fun _ => rfl)).addEdges
      (hothers _ _ fun _ => rfl)).addEdges (hothers _ _ fun _ => rfl)

theorem Ordered.operation (h : g.Ordered) (operation : Operation) :
    (operation.apply program g).Ordered := by
  cases operation with
  | remove r =>
    refine ⟨h.apply r, ?_⟩
    show CallsFirst (r.apply g).2.edges
    rw [h.apply_eq]
    exact h.callsFirst.filter _
  | addConstructorEdges ask memory =>
    refine ⟨h.toConsistent.addConstructorEdges, ?_⟩
    show CallsFirst (g.addConstructorEdges program ask memory).2.1.edges
    rcases addConstructorEdges_cases program ask g memory with
      ⟨-, -, hedges, -⟩ | ⟨new, -, hedges, hnew⟩
    · rw [hedges]
      exact h.callsFirst
    · rw [hedges]
      exact h.callsFirst.append fun e he => by rw [hnew e he]; rfl

theorem Ordered.operate (h : g.Ordered) (operations : List Operation) :
    (operate program g operations).Ordered := by
  induction operations generalizing g with
  | nil => exact h
  | cons operation operations ih => exact ih (h.operation operation)

/-- Whatever is done to a graph after it is built, no edge occurs twice, the calls stand in front, and
the nodes are the ends of the edges in the order of their first arrival.  Hence a removal, at any time,
keeps the edges outside of its criterion in their order and tells how many it took; removals commute,
and one that is repeated does nothing.  The constructor pass keeps the edges, puts new ones after them
and tells how many. -/
theorem operations_keep_order (program : Program) (facts : Facts) (operations : List Operation) :
    let g := operate program (build program facts) operations
    g.edges.Nodup ∧ g.nodes = endpoints g.edges ∧
      (∀ n, n ∈ g.nodes ↔ ∃ e ∈ g.edges, e.touches n = true) ∧ CallsFirst g.edges ∧
      (∀ r : Removal, (r.apply g).2.edges = g.edges.filter (fun e => ¬r.Takes e) ∧
        (r.apply g).1 = g.edges.countP r.Takes ∧ r.apply (r.apply g).2 = (0, (r.apply g).2) ∧
        ∀ r' : Removal, (r'.apply (r.apply g).2).2 = (r.apply (r'.apply g).2).2) ∧
      (∀ (doomed : List Node), ∀ n ∈ doomed, n ∉ (g.removeNodes doomed).2.nodes ∧
        ∀ e ∈ (g.removeNodes doomed).2.edges, e.touches n = false) ∧
      ∀ {σ : Type} (ask : Inquiry σ) (memory : σ),
        ∃ new, (g.addConstructorEdges program ask memory).2.1.edges = g.edges ++ new ∧
          ((g.addConstructorEdges program ask memory).1 = .ok new.length ∨
            new = [] ∧ ∃ err, (g.addConstructorEdges program ask memory).1 = .error err) := by
  intro g
  have h : g.Ordered := (ordered_build program facts).operate operations
  refine ⟨h.edges_nodup, h.nodes_eq, fun n => h.touched, h.callsFirst, ?_, ?_, ?_⟩
  · intro r
    refine ⟨?_, ?_, h.apply_idem r, fun r' => h.apply_comm r r'⟩
    · rw [h.apply_eq]
    · rw [h.apply_eq]
  · intro doomed n hn
    refine ⟨?_, fun e he => h.not_touches_of_removed hn he⟩
    intro hmem
    have hconsistent : (g.removeNodes doomed).2.Consistent := h.apply (.nodes doomed)
    obtain ⟨e, he, htouch⟩ := hconsistent.touched.mp hmem
    exact absurd htouch (by simp [h.not_touches_of_removed hn he])
  · intro σ ask memory
    rcases addConstructorEdges_cases program ask g memory with
      ⟨err, herr, hedges, -⟩ | ⟨new, hok, hedges, -⟩
    · exact ⟨[], by rw [hedges, List.append_nil], Or.inr ⟨rfl, err, herr⟩⟩
    · exact ⟨new, hedges, Or.inl hok⟩

end CallAudit.Graph

import CallAudit.Analysis.Prepared
import CallAudit.Proofs.Dependency.Consistent
import Mathlib.Logic.Relation

/-!
# Where edges come from

The edges of a graph that is built are those that some fact calls for, and no others
(`mem_edges_build`).  Dispatch is resolved soundly: a target overrides the callee, directly or through
other overrides, or nothing overrides the callee and it is the target itself
(`Dispatch.mayRun_of_mem_targets`).
-/

namespace CallAudit

variable {program : Program} {facts : Facts} {g : Graph} {e : Edge} {m callee caller : MethodId}

/-! ## Dispatch -/

namespace Dispatch

/-- Whether `b` overrides `a` directly. -/
def Overrides (facts : Facts) (a b : MethodId) : Prop := (a, b) ∈ facts.overrides

/-- Whether a dispatching call to `callee` may run `m`. -/
def MayRun (program : Program) (facts : Facts) (callee m : MethodId) : Prop :=
  (∀ b, ¬Overrides facts callee b) ∧ m = callee ∨
    Relation.TransGen (Overrides facts) callee m ∧ program.isInterfaceMethod m = false

theorem mem_overridesOf {a b : MethodId} : b ∈ overridesOf facts a ↔ Overrides facts a b := by
  unfold overridesOf Overrides
  rw [List.mem_map]
  constructor
  · rintro ⟨⟨a', b'⟩, hmem, rfl⟩
    rw [List.mem_filter] at hmem
    obtain rfl : a' = a := eq_of_beq hmem.2
    exact hmem.1
  · intro hmem
    exact ⟨(a, b), List.mem_filter.mpr ⟨hmem, beq_self_eq_true a⟩, rfl⟩

/-- Whatever is collected overrides the callee, if what is queued and what was seen does. -/
theorem collect_overrides {fuel : Nat} {queue seen : List MethodId}
    (hqueue : ∀ a ∈ queue, Relation.TransGen (Overrides facts) callee a)
    (hseen : ∀ a ∈ seen, Relation.TransGen (Overrides facts) callee a)
    (hm : m ∈ collect facts callee fuel queue seen) :
    Relation.TransGen (Overrides facts) callee m := by
  induction fuel generalizing queue seen with
  | zero => exact hseen m hm
  | succ fuel ih =>
    cases queue with
    | nil => exact hseen m hm
    | cons a queue =>
      have hrest : ∀ b ∈ queue, Relation.TransGen (Overrides facts) callee b := fun b hb =>
        hqueue b (List.mem_cons_of_mem a hb)
      have ha := hqueue a List.mem_cons_self
      rw [collect] at hm
      split at hm
      · exact ih hrest hseen hm
      · refine ih ?_ ?_ hm
        · -- what overrides an override of the callee overrides the callee
          intro b hb
          rcases List.mem_append.mp hb with hb | hb
          · exact hrest b hb
          · exact ha.tail (mem_overridesOf.mp hb)
        · intro b hb
          rcases List.mem_append.mp hb with hb | hb
          · exact hseen b hb
          · exact List.mem_singleton.mp hb ▸ ha

theorem mayRun_of_mem_targets (hm : m ∈ targets program facts callee) :
    MayRun program facts callee m := by
  unfold targets at hm
  split at hm
  · next hnone =>
    refine Or.inl ⟨fun b hb => ?_, List.mem_singleton.mp hm⟩
    have hmem := mem_overridesOf.mpr hb
    rw [hnone] at hmem
    exact absurd hmem (by simp)
  · rw [List.mem_filter] at hm
    refine Or.inr ⟨collect_overrides ?_ ?_ hm.1, by simpa using hm.2⟩
    · exact fun a ha => .single (mem_overridesOf.mp ha)
    · intro a ha
      split at ha
      · next hself =>
        obtain rfl := List.mem_singleton.mp ha
        exact .single hself
      · exact absurd ha (by simp)

end Dispatch

/-! ## Building -/

namespace Graph

/-- The edges that one dispatching call calls for. -/
def VirtualCallEdge (program : Program) (facts : Facts) (call : MethodId × MethodId) (e : Edge) :
    Prop :=
  program.isVirtual call.2 = false ∧
      e = ⟨.method call.1, .method call.2, .virtualCallToNonVirtual⟩ ∨
    program.isVirtual call.2 = true ∧ program.isInterfaceMethod call.2 = false ∧
      ∃ t ∈ Dispatch.targets program facts call.2,
        e = ⟨.method call.1, .method t, .virtualCallToVirtual⟩

/-- The edges that the facts call for. -/
inductive CalledFor (program : Program) (facts : Facts) : Edge → Prop
  | directCall {call : MethodId × MethodId} : call ∈ facts.directCalls →
      CalledFor program facts ⟨.method call.1, .method call.2, .directCall⟩
  | virtualCall {call : MethodId × MethodId} {e : Edge} : call ∈ facts.virtualCalls →
      VirtualCallEdge program facts call e → CalledFor program facts e
  | staticConstructor {pair : TypeId × MethodId} : pair ∈ facts.staticConstructorDependencies →
      CalledFor program facts ⟨.type pair.1, .method pair.2, .staticConstructorDependency⟩
  | fieldAccess {pair : MethodId × MethodId} : pair ∈ facts.fieldAccessDependencies →
      CalledFor program facts ⟨.method pair.1, .method pair.2, .staticFieldAccessDependency⟩
  | typeReference {pair : MethodId × TypeId} : pair ∈ facts.typeDependencies →
      CalledFor program facts ⟨.method pair.1, .type pair.2, .typeDependency⟩

theorem mem_edges_addDispatch {targets : List MethodId} : e ∈ (g.addDispatch caller targets).edges ↔
    e ∈ g.edges ∨ ∃ t ∈ targets, e = ⟨.method caller, .method t, .virtualCallToVirtual⟩ := by
  induction targets generalizing g with
  | nil => simp [addDispatch]
  | cons t targets ih =>
    have hstep : g.addDispatch caller (t :: targets) =
        ((g.addEdge ⟨.method caller, .method t, .virtualCallToVirtual⟩).addVirtualTarget
          t).addDispatch caller targets := rfl
    rw [hstep, ih, edges_addVirtualTarget, mem_edges_addEdge, or_assoc]
    simp

theorem mem_edges_addVirtualCall {call : MethodId × MethodId} :
    e ∈ (addVirtualCall program facts g call).edges ↔
      e ∈ g.edges ∨ VirtualCallEdge program facts call e := by
  unfold addVirtualCall VirtualCallEdge
  dsimp only
  cases hvirtual : program.isVirtual call.2 with
  | false => simp
  | true =>
    cases hinterface : program.isInterfaceMethod call.2 with
    | true => simp
    | false => simp [mem_edges_addDispatch]

theorem mem_edges_addVirtualCalls {calls : List (MethodId × MethodId)} :
    e ∈ (calls.foldl (addVirtualCall program facts) g).edges ↔
      e ∈ g.edges ∨ ∃ call ∈ calls, VirtualCallEdge program facts call e := by
  induction calls generalizing g with
  | nil => simp
  | cons call calls ih =>
    rw [List.foldl_cons, ih, mem_edges_addVirtualCall, or_assoc]
    simp

/-- The edges of a graph that is built are those that the facts call for. -/
theorem mem_edges_build : e ∈ (build program facts).edges ↔ CalledFor program facts e := by
  unfold build addDirectCalls addStaticConstructors addFieldAccesses addTypeReferences
  simp only [mem_edges_addEdges, mem_edges_addVirtualCalls, List.mem_map, List.not_mem_nil,
    false_or]
  constructor
  · rintro ((((⟨call, hcall, rfl⟩ | ⟨call, hcall, hedge⟩) | ⟨pair, hpair, rfl⟩) |
      ⟨pair, hpair, rfl⟩) | ⟨pair, hpair, rfl⟩)
    · exact .directCall hcall
    · exact .virtualCall hcall hedge
    · exact .staticConstructor hpair
    · exact .fieldAccess hpair
    · exact .typeReference hpair
  · rintro (hcall | ⟨hcall, hedge⟩ | hpair | hpair | hpair)
    · exact Or.inl (Or.inl (Or.inl (Or.inl ⟨_, hcall, rfl⟩)))
    · exact Or.inl (Or.inl (Or.inl (Or.inr ⟨_, hcall, hedge⟩)))
    · exact Or.inl (Or.inl (Or.inr ⟨_, hpair, rfl⟩))
    · exact Or.inl (Or.inr ⟨_, hpair, rfl⟩)
    · exact Or.inr ⟨_, hpair, rfl⟩

/-! ## Targets of dispatch -/

@[simp] theorem virtualTargets_addEdge : (g.addEdge e).virtualTargets = g.virtualTargets := by
  unfold addEdge
  split <;> rfl

@[simp] theorem virtualTargets_addEdges {edges : List Edge} :
    (g.addEdges edges).virtualTargets = g.virtualTargets := by
  induction edges generalizing g with
  | nil => rfl
  | cons e edges ih =>
    have hstep : g.addEdges (e :: edges) = (g.addEdge e).addEdges edges := rfl
    rw [hstep, ih, virtualTargets_addEdge]

theorem mem_virtualTargets_addDispatch {targets : List MethodId} :
    m ∈ (g.addDispatch caller targets).virtualTargets ↔ m ∈ g.virtualTargets ∨ m ∈ targets := by
  induction targets generalizing g with
  | nil => simp [addDispatch]
  | cons t targets ih =>
    have hstep : g.addDispatch caller (t :: targets) =
        ((g.addEdge ⟨.method caller, .method t, .virtualCallToVirtual⟩).addVirtualTarget
          t).addDispatch caller targets := rfl
    have htargets : ((g.addEdge ⟨.method caller, .method t, .virtualCallToVirtual⟩).addVirtualTarget
        t).virtualTargets = Distinct.insert g.virtualTargets t := by
      rw [← virtualTargets_addEdge (g := g)]
      rfl
    rw [hstep, ih, htargets, Distinct.mem_insert, List.mem_cons, or_assoc]

/-- Whether a dispatching call was resolved to a method. -/
def DispatchedTo (program : Program) (facts : Facts) (m : MethodId) : Prop :=
  ∃ call ∈ facts.virtualCalls, program.isVirtual call.2 = true ∧
    program.isInterfaceMethod call.2 = false ∧ m ∈ Dispatch.targets program facts call.2

theorem mem_virtualTargets_addVirtualCalls {calls : List (MethodId × MethodId)} :
    m ∈ (calls.foldl (addVirtualCall program facts) g).virtualTargets ↔
      m ∈ g.virtualTargets ∨ ∃ call ∈ calls, program.isVirtual call.2 = true ∧
        program.isInterfaceMethod call.2 = false ∧
        m ∈ Dispatch.targets program facts call.2 := by
  induction calls generalizing g with
  | nil => simp
  | cons call calls ih =>
    have hcall : m ∈ (addVirtualCall program facts g call).virtualTargets ↔
        m ∈ g.virtualTargets ∨ program.isVirtual call.2 = true ∧
          program.isInterfaceMethod call.2 = false ∧
          m ∈ Dispatch.targets program facts call.2 := by
      unfold addVirtualCall
      dsimp only
      cases hvirtual : program.isVirtual call.2 with
      | false => simp
      | true =>
        cases hinterface : program.isInterfaceMethod call.2 with
        | true => simp
        | false => simp [mem_virtualTargets_addDispatch]
    rw [List.foldl_cons, ih, hcall, or_assoc]
    simp

/-- A graph that is built remembers the methods that dispatch was resolved to. -/
theorem mem_virtualTargets_build :
    m ∈ (build program facts).virtualTargets ↔ DispatchedTo program facts m := by
  unfold build addDirectCalls addStaticConstructors addFieldAccesses addTypeReferences DispatchedTo
  simp only [virtualTargets_addEdges, mem_virtualTargets_addVirtualCalls, List.not_mem_nil,
    false_or]

end Graph

/-! ## After the needless calls are gone -/

theorem Prepared.mem_edges_withoutNeedlessCalls :
    e ∈ (withoutNeedlessCalls program facts).1.edges ↔ Graph.CalledFor program facts e ∧
      e.kind ≠ .virtualCallToVirtual ∧
      Graph.isCallAmong facts.resolvedReflectionCalls e = false := by
  show e ∈ (((Graph.build program facts).keepEdges _).2.keepEdges _).2.edges ↔ _
  rw [Graph.edges_keepEdges, Graph.edges_keepEdges, List.mem_filter, List.mem_filter,
    Graph.mem_edges_build, and_assoc]
  simp

theorem Prepared.mem_virtualTargets_withoutNeedlessCalls :
    m ∈ (withoutNeedlessCalls program facts).1.virtualTargets ↔
      Graph.DispatchedTo program facts m := by
  show m ∈ (((Graph.build program facts).keepEdges _).2.keepEdges _).2.virtualTargets ↔ _
  rw [Graph.virtualTargets_keepEdges, Graph.virtualTargets_keepEdges,
    Graph.mem_virtualTargets_build]

end CallAudit

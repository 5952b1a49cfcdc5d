import CallAudit.Proofs.Dependency.Edges

/-!
# Dispatch is resolved completely

Everything that overrides a callee, directly or through other overrides, is collected, whatever
cycles there are among the overrides (`Dispatch.mem_targets_iff`).  With it the edges of a graph that
is built are known from the facts alone, without the search that finds them
(`build_edges_as_recorded`).
-/

namespace CallAudit

variable {program : Program} {facts : Facts} {m callee : MethodId} {queue seen : List MethodId}
  {fuel : Nat}

namespace Dispatch

/-- What a dispatching call to `callee` runs, callees on interfaces aside: the callee itself if nothing
overrides it, and else whatever overrides it, however indirectly, and can run.  The callee is among its
own overrides only where that is recorded, not because a cycle leads back to it. -/
def Runs (program : Program) (facts : Facts) (callee m : MethodId) : Prop :=
  (∀ b, ¬Overrides facts callee b) ∧ m = callee ∨
    (∃ b, Overrides facts callee b) ∧
      (m ≠ callee ∧ program.isInterfaceMethod m = false ∧
          Relation.TransGen (Overrides facts) callee m ∨
        m = callee ∧ Overrides facts callee callee)

/-! ## The search under way -/

/-- The overrides of the callee and of whatever was seen are either seen or queued, except for the
callee, which is passed over. -/
structure Collecting (facts : Facts) (callee : MethodId) (queue seen : List MethodId) : Prop where
  direct : ∀ b, Overrides facts callee b → b = callee ∨ b ∈ queue ∨ b ∈ seen
  indirect : ∀ a ∈ seen, a ≠ callee → ∀ b, Overrides facts a b → b = callee ∨ b ∈ queue ∨ b ∈ seen

theorem Collecting.skip (h : Collecting facts callee (m :: queue) seen)
    (hm : m = callee ∨ m ∈ seen) : Collecting facts callee queue seen := by
  have hdrop : ∀ {b}, b = callee ∨ b ∈ m :: queue ∨ b ∈ seen →
      b = callee ∨ b ∈ queue ∨ b ∈ seen := by
    rintro b (hb | hb | hb)
    · exact Or.inl hb
    · rcases List.mem_cons.mp hb with rfl | hb
      · exact hm.imp_right Or.inr
      · exact Or.inr (Or.inl hb)
    · exact Or.inr (Or.inr hb)
  exact ⟨fun b hb => hdrop (h.direct b hb), fun a ha hne b hb => hdrop (h.indirect a ha hne b hb)⟩

theorem Collecting.expand (h : Collecting facts callee (m :: queue) seen) :
    Collecting facts callee (queue ++ overridesOf facts m) (seen ++ [m]) := by
  have hkeep : ∀ {b}, b = callee ∨ b ∈ m :: queue ∨ b ∈ seen →
      b = callee ∨ b ∈ queue ++ overridesOf facts m ∨ b ∈ seen ++ [m] := by
    rintro b (hb | hb | hb)
    · exact Or.inl hb
    · rcases List.mem_cons.mp hb with rfl | hb
      · exact Or.inr (Or.inr (List.mem_append_right _ (List.mem_singleton_self b)))
      · exact Or.inr (Or.inl (List.mem_append_left _ hb))
    · exact Or.inr (Or.inr (List.mem_append_left _ hb))
  refine ⟨fun b hb => hkeep (h.direct b hb), ?_⟩
  intro a ha hne b hb
  rcases List.mem_append.mp ha with ha | ha
  · exact hkeep (h.indirect a ha hne b hb)
  · -- the overrides of the method that was just seen have entered the queue
    obtain rfl := List.mem_singleton.mp ha
    exact Or.inr (Or.inl (List.mem_append_right _ (mem_overridesOf.mpr hb)))

/-- The overrides that are yet to enter the queue: those of methods that were not seen. -/
def waiting (facts : Facts) (callee : MethodId) (seen : List MethodId) : Nat :=
  facts.overrides.countP fun o => decide (o.1 ∉ callee :: seen)

theorem length_overridesOf : (overridesOf facts m).length = facts.overrides.countP (·.1 == m) := by
  rw [overridesOf, List.length_map, List.countP_eq_length_filter]

/-- What enters the queue when a method is seen waits no longer. -/
theorem waiting_expand (facts : Facts) (hnew : ¬(m = callee ∨ m ∈ seen)) :
    waiting facts callee (seen ++ [m]) + (overridesOf facts m).length =
      waiting facts callee seen := by
  rw [length_overridesOf, waiting, waiting]
  induction facts.overrides with
  | nil => rfl
  | cons o overrides ih =>
    rw [List.countP_cons, List.countP_cons, List.countP_cons, ← ih]
    by_cases hm : o.1 = m
    · simp [hm, not_or.mp hnew]
      omega
    · simp [hm]
      omega

/-! ## What is collected -/

theorem subset_collect (hm : m ∈ seen) : m ∈ collect facts callee fuel queue seen := by
  induction fuel generalizing queue seen with
  | zero => exact hm
  | succ fuel ih =>
    cases queue with
    | nil => exact hm
    | cons a queue =>
      rw [collect]
      split
      · exact ih hm
      · exact ih (List.mem_append_left _ hm)

/-- The callee is collected only if it was there from the start. -/
theorem callee_mem_collect : callee ∈ collect facts callee fuel queue seen ↔ callee ∈ seen := by
  refine ⟨fun hmem => ?_, subset_collect⟩
  induction fuel generalizing queue seen with
  | zero => exact hmem
  | succ fuel ih =>
    cases queue with
    | nil => exact hmem
    | cons a queue =>
      rw [collect] at hmem
      split at hmem
      · exact ih hmem
      · next hnew =>
        refine (List.mem_append.mp (ih hmem)).resolve_right fun ha => ?_
        exact hnew (Or.inl (List.mem_singleton.mp ha).symm)

/-- When the queue is empty, what was seen is closed under overriding. -/
theorem Collecting.closed (h : Collecting facts callee [] seen)
    (hm : Relation.TransGen (Overrides facts) callee m) : m = callee ∨ m ∈ seen := by
  induction hm with
  | single hb => simpa using h.direct _ hb
  | @tail a b _ hb ih =>
    by_cases ha : a = callee
    · subst ha
      simpa using h.direct _ hb
    · simpa using h.indirect a (ih.resolve_left ha) ha _ hb

/-- With fuel enough, nothing that overrides the callee is left out. -/
theorem Collecting.complete (h : Collecting facts callee queue seen)
    (hfuel : queue.length + waiting facts callee seen ≤ fuel)
    (hm : Relation.TransGen (Overrides facts) callee m) :
    m = callee ∨ m ∈ collect facts callee fuel queue seen := by
  induction fuel generalizing queue seen with
  | zero =>
    obtain rfl : queue = [] := List.length_eq_zero_iff.mp (by omega)
    exact h.closed hm
  | succ fuel ih =>
    cases queue with
    | nil => exact h.closed hm
    | cons a queue =>
      rw [List.length_cons] at hfuel
      rw [collect]
      split
      · next hold => exact ih (h.skip hold) (by omega)
      · next hnew =>
        refine ih h.expand ?_
        have hwaiting := waiting_expand facts hnew
        rw [List.length_append]
        omega

/-- At the start the direct overrides are queued; the callee counts as seen if it overrides itself. -/
theorem collecting_start (hseen : ∀ a ∈ seen, a = callee) :
    Collecting facts callee (overridesOf facts callee) seen where
  direct := fun _ hb => Or.inr (Or.inl (mem_overridesOf.mpr hb))
  indirect := fun a ha hne => absurd (hseen a ha) hne

theorem waiting_start (facts : Facts) (hseen : ∀ a ∈ seen, a = callee) :
    (overridesOf facts callee).length + waiting facts callee seen = facts.overrides.length := by
  rw [length_overridesOf, waiting,
    List.length_eq_countP_add_countP (fun o : MethodId × MethodId => o.1 == callee)]
  congr 2
  funext o
  have hsame : o.1 ∈ callee :: seen ↔ o.1 = callee := by
    rw [List.mem_cons]
    exact or_iff_left_of_imp (hseen o.1)
  simp [hsame]

/-- The methods that a dispatching call is resolved to are those that it runs. -/
theorem mem_targets_iff (hcallee : program.isInterfaceMethod callee = false) :
    m ∈ targets program facts callee ↔ Runs program facts callee m := by
  unfold targets Runs
  split
  · next hnone =>
    have hall : ∀ b, ¬Overrides facts callee b := by
      intro b hb
      rw [← mem_overridesOf, hnone] at hb
      exact absurd hb List.not_mem_nil
    rw [List.mem_singleton, and_iff_right hall, or_iff_left]
    rintro ⟨⟨b, hb⟩, -⟩
    exact hall b hb
  · next hsome =>
    obtain ⟨b, hb⟩ := List.exists_mem_of_ne_nil _ hsome
    have hoverridden : ∃ b, Overrides facts callee b := ⟨b, mem_overridesOf.mp hb⟩
    rw [or_iff_right fun h => h.1 b (mem_overridesOf.mp hb), and_iff_right hoverridden,
      List.mem_filter, Bool.not_eq_true']
    generalize hstart : (if (callee, callee) ∈ facts.overrides then [callee] else []) = start
    have hself : callee ∈ start ↔ Overrides facts callee callee := by
      rw [← hstart, Overrides]
      split <;> simp [*]
    have hseen : ∀ a ∈ start, a = callee := by
      rw [← hstart]
      split <;> simp
    by_cases hm : m = callee
    · subst hm
      rw [callee_mem_collect, hself]
      simp [hcallee]
    · constructor
      · rintro ⟨hmem, hclass⟩
        refine Or.inl ⟨hm, hclass, collect_overrides ?_ ?_ hmem⟩
        · exact fun a ha => .single (mem_overridesOf.mp ha)
        · intro a ha
          obtain rfl := hseen a ha
          exact .single (hself.mp ha)
      · rintro (⟨-, hclass, hreach⟩ | ⟨heq, -⟩)
        · refine ⟨?_, hclass⟩
          have hfuel := Nat.le_of_eq (waiting_start facts hseen)
          exact ((collecting_start hseen).complete hfuel hreach).resolve_left hm
        · exact absurd heq hm

-- a cycle alone does not make a method one of its own overrides, a recorded self-override does
example : targets {} { overrides := [(0, 1), (1, 0)] } 0 = [1] ∧
    targets {} { overrides := [(0, 1), (1, 0), (0, 0)] } 0 = [0, 1] := by decide

end Dispatch

/-! ## The edges of a graph that is built -/

namespace Graph

/-- The edges that the facts record, or call for by recording a dispatching call. -/
inductive Recorded (program : Program) (facts : Facts) : Edge → Prop
  | directCall {a b : MethodId} : (a, b) ∈ facts.directCalls →
      Recorded program facts ⟨.method a, .method b, .directCall⟩
  | plainCall {a v : MethodId} : (a, v) ∈ facts.virtualCalls → program.isVirtual v = false →
      Recorded program facts ⟨.method a, .method v, .virtualCallToNonVirtual⟩
  | dispatch {a v t : MethodId} : (a, v) ∈ facts.virtualCalls → program.isVirtual v = true →
      program.isInterfaceMethod v = false → Dispatch.Runs program facts v t →
      Recorded program facts ⟨.method a, .method t, .virtualCallToVirtual⟩
  | staticConstructor {t : TypeId} {s : MethodId} : (t, s) ∈ facts.staticConstructorDependencies →
      Recorded program facts ⟨.type t, .method s, .staticConstructorDependency⟩
  | fieldAccess {a s : MethodId} : (a, s) ∈ facts.fieldAccessDependencies →
      Recorded program facts ⟨.method a, .method s, .staticFieldAccessDependency⟩
  | typeReference {a : MethodId} {t : TypeId} : (a, t) ∈ facts.typeDependencies →
      Recorded program facts ⟨.method a, .type t, .typeDependency⟩

variable {e : Edge}

theorem calledFor_iff_recorded : CalledFor program facts e ↔ Recorded program facts e := by
  constructor
  · rintro (hcall | ⟨hcall, hedge⟩ | hpair | hpair | hpair)
    · exact .directCall hcall
    · rcases hedge with ⟨hvirtual, rfl⟩ | ⟨hvirtual, hinterface, t, ht, rfl⟩
      · exact .plainCall hcall hvirtual
      · exact .dispatch hcall hvirtual hinterface ((Dispatch.mem_targets_iff hinterface).mp ht)
    · exact .staticConstructor hpair
    · exact .fieldAccess hpair
    · exact .typeReference hpair
  · rintro (hcall | ⟨hcall, hvirtual⟩ | ⟨hcall, hvirtual, hinterface, hruns⟩ | hpair | hpair | hpair)
    · exact .directCall hcall
    · exact .virtualCall hcall (Or.inl ⟨hvirtual, rfl⟩)
    · refine .virtualCall hcall (Or.inr ⟨hvirtual, hinterface, _, ?_, rfl⟩)
      exact (Dispatch.mem_targets_iff hinterface).mpr hruns
    · exact .staticConstructor hpair
    · exact .fieldAccess hpair
    · exact .typeReference hpair

theorem dispatchedTo_iff_recorded : DispatchedTo program facts m ↔
    ∃ a, Recorded program facts ⟨.method a, .method m, .virtualCallToVirtual⟩ := by
  constructor
  · rintro ⟨⟨a, v⟩, hcall, hvirtual, hinterface, hm⟩
    exact ⟨a, .dispatch hcall hvirtual hinterface ((Dispatch.mem_targets_iff hinterface).mp hm)⟩
  · rintro ⟨a, hrecorded⟩
    cases hrecorded with
    | dispatch hcall hvirtual hinterface hruns =>
      exact ⟨_, hcall, hvirtual, hinterface, (Dispatch.mem_targets_iff hinterface).mpr hruns⟩

end Graph

/-- A graph that is built has each edge that the facts record once, and no other edge; the methods that
it remembers as targets of dispatch are those that its dispatch edges lead to. -/
theorem build_edges_as_recorded (program : Program) (facts : Facts) :
    (Graph.build program facts).edges.Nodup ∧
      (∀ e, e ∈ (Graph.build program facts).edges ↔ Graph.Recorded program facts e) ∧
      ∀ t, t ∈ (Graph.build program facts).virtualTargets ↔
        ∃ a, ⟨.method a, .method t, .virtualCallToVirtual⟩ ∈ (Graph.build program facts).edges := by
  have hedges : ∀ e, e ∈ (Graph.build program facts).edges ↔ Graph.Recorded program facts e :=
    fun _ => Graph.mem_edges_build.trans Graph.calledFor_iff_recorded
  refine ⟨(Graph.consistent_build program facts).edges_nodup, hedges, fun t => ?_⟩
  rw [Graph.mem_virtualTargets_build, Graph.dispatchedTo_iff_recorded]
  exact exists_congr fun a => (hedges _).symm

end CallAudit

import CallAudit.Analysis.Prepared

/-!
# Answers are the classifier's own

However the passes ask, from memory or not, every answer is the one the classifier gives.  What a
snapshot says about a node is therefore a function of the node alone (`Classifier.verdict`), and the
constructor pass adds the edges of exactly the methods that are interesting (`newConstructorEdges_ok`).
-/

namespace CallAudit

variable {σ : Type} {c : Classifier} {program : Program} {ask : Inquiry σ} {Good : σ → Prop}
  {memory memory' : σ}

/-! ## Asking -/

/-- A way of asking whose answers are the classifier's as long as its memory is good, which it stays. -/
structure Inquiry.Faithful (c : Classifier) (program : Program) (ask : Inquiry σ) (Good : σ → Prop) :
    Prop where
  answer : ∀ m memory, Good memory → (ask m memory).1 = c.reason? program m
  keeps : ∀ m memory, Good memory → Good (ask m memory).2

namespace Inquiry

theorem Faithful.ask_eq (hfaithful : ask.Faithful c program Good) (m : MethodId)
    (hgood : Good memory) : ∃ memory', ask m memory = (c.reason? program m, memory') ∧
      Good memory' :=
  ⟨(ask m memory).2, Prod.ext (hfaithful.answer m memory hgood) rfl, hfaithful.keeps m memory hgood⟩

/-- A memory of answers that the classifier gives. -/
def Remembers (c : Classifier) (program : Program) (memory : Memory) : Prop :=
  ∀ m answer, memory.lookup m = some answer → c.reason? program m = .ok answer

theorem remembers_nil : Remembers c program [] := by
  intro m answer h
  exact absurd h (by simp)

theorem direct_faithful : (direct c program).Faithful c program fun _ => True :=
  ⟨fun _ _ _ => rfl, fun _ _ _ => trivial⟩

theorem remembering_faithful : (remembering c program).Faithful c program (Remembers c program) where
  answer := by
    intro m memory hgood
    unfold remembering
    cases hlookup : memory.lookup m with
    | some answer => exact (hgood m answer hlookup).symm
    | none => cases hreason : c.reason? program m <;> simp
  keeps := by
    intro m memory hgood
    unfold remembering
    cases hlookup : memory.lookup m with
    | some answer => exact hgood
    | none =>
      cases hreason : c.reason? program m with
      | error e => exact hgood
      | ok answer =>
        intro m' answer' h
        rw [List.lookup_cons] at h
        split at h
        · next hm =>
          rw [eq_of_beq hm, hreason, Option.some.inj h]
        · exact hgood m' answer' h

end Inquiry

/-! ## Verdicts -/

/-- What a classifier that can decide says about a node. -/
def Classifier.verdict (c : Classifier) (program : Program) : Node → Verdict
  | .method m =>
      { entry := c.isEntry program m
        safe := c.isSafe program m
        reason := (c.reason? program m).toOption.join }
  | .type _ => {}

/-- Whether a classifier finds a node interesting. -/
def Classifier.Finds (c : Classifier) (program : Program) (n : Node) : Prop :=
  ∃ m reason, n = .method m ∧ c.reason? program m = .ok (some reason)

theorem Classifier.finds_iff {n : Node} :
    c.Finds program n ↔ (c.verdict program n).reason.isSome = true := by
  unfold Finds
  cases n with
  | type t => simp [verdict]
  | method m =>
    cases hreason : c.reason? program m with
    | error e => simp [verdict, hreason, Except.toOption]
    | ok reason => cases reason <;> simp [verdict, hreason, Except.toOption]

/-- Calls one method the entry point, and finds one interesting. -/
def Classifier.single (entry interesting : MethodId) : Classifier where
  isEntry _ m := m == entry
  reason? _ m := .ok (if m = interesting then some "KnownReflection" else none)
  isSafe _ _ := false

namespace Snapshot

/-- The snapshot of a graph with the verdicts of a classifier. -/
def judged (c : Classifier) (program : Program) (g : Graph) : Snapshot :=
  ofVerdicts g (g.nodes.map (c.verdict program))

theorem judge_ok (hfaithful : ask.Faithful c program Good) {nodes : List Node}
    {verdicts : List Verdict} (hgood : Good memory)
    (h : judge c program ask nodes memory = (.ok verdicts, memory')) :
    verdicts = nodes.map (c.verdict program) ∧ Good memory' ∧
      ∀ m, .method m ∈ nodes → ∃ reason, c.reason? program m = .ok reason := by
  induction nodes generalizing memory verdicts with
  | nil =>
    obtain ⟨hverdicts, rfl⟩ := Prod.mk.inj h
    exact ⟨(Except.ok.inj hverdicts).symm, hgood, by simp⟩
  | cons n nodes ih =>
    cases n with
    | type t =>
      -- nothing is asked about types
      rw [judge] at h
      generalize hrest : judge c program ask nodes memory = outcome at h
      obtain ⟨result, memory₁⟩ := outcome
      cases result with
      | error e => cases h
      | ok rest =>
        obtain ⟨hverdicts, rfl⟩ := Prod.mk.inj h
        obtain ⟨rfl, hgood', hall⟩ := ih hgood hrest
        refine ⟨(Except.ok.inj hverdicts).symm, hgood', ?_⟩
        intro m hm
        exact hall m (by simpa using hm)
    | method m =>
      -- the answer is the classifier's, and the memory stays good for the rest
      obtain ⟨memory₁, hask, hkeeps⟩ := hfaithful.ask_eq m hgood
      rw [judge, hask] at h
      cases hreason : c.reason? program m with
      | error e =>
        rw [hreason] at h
        cases h
      | ok reason =>
        rw [hreason] at h
        dsimp only at h
        generalize hrest : judge c program ask nodes memory₁ = outcome at h
        obtain ⟨result, memory₂⟩ := outcome
        cases result with
        | error e => cases h
        | ok rest =>
          obtain ⟨hverdicts, rfl⟩ := Prod.mk.inj h
          obtain ⟨rfl, hgood', hall⟩ := ih hkeeps hrest
          refine ⟨?_, hgood', ?_⟩
          · rw [← Except.ok.inj hverdicts, List.map_cons, Classifier.verdict, hreason]
            rfl
          · intro m' hm'
            rcases List.mem_cons.mp hm' with hm' | hm'
            · rw [Node.method.inj hm']
              exact ⟨reason, hreason⟩
            · exact hall m' hm'

theorem take_ok (hfaithful : ask.Faithful c program Good) {g : Graph} {s : Snapshot}
    (hgood : Good memory) (h : take c program ask g memory = (.ok s, memory')) :
    s = judged c program g ∧ Good memory' ∧
      ∀ m, .method m ∈ g.nodes → ∃ reason, c.reason? program m = .ok reason := by
  unfold take at h
  cases hjudge : judge c program ask g.nodes memory with
  | mk result memory₁ =>
    rw [hjudge] at h
    cases result with
    | error e => cases h
    | ok verdicts =>
      obtain ⟨hs, rfl⟩ := Prod.mk.inj h
      obtain ⟨rfl, hgood', hall⟩ := judge_ok hfaithful hgood hjudge
      exact ⟨(Except.ok.inj hs).symm, hgood', hall⟩

end Snapshot

/-! ## Constructor edges -/

theorem Program.mem_constructorsOf {m : MethodId} {declaringType : String} :
    m ∈ program.constructorsOf declaringType ↔ ∃ row, program.method? m = some row ∧
      row.isInstanceConstructor = true ∧ row.declaringType = declaringType := by
  unfold constructorsOf
  rw [List.mem_map]
  constructor
  · rintro ⟨⟨row, m'⟩, hmem, rfl⟩
    obtain ⟨hmem, hrow⟩ := List.mem_filter.mp hmem
    rw [Bool.and_eq_true] at hrow
    exact ⟨row, List.mem_zipIdx_iff_getElem?.mp hmem, hrow.1, eq_of_beq hrow.2⟩
  · rintro ⟨row, hrow, hinstance, rfl⟩
    refine ⟨(row, m), List.mem_filter.mpr ⟨List.mem_zipIdx_iff_getElem?.mpr hrow, ?_⟩, rfl⟩
    simpa using hinstance

namespace Graph

/-- The dependencies that a decided constructor pass adds. -/
def constructionEdges (c : Classifier) (program : Program) (g : Graph) (targets : List MethodId) :
    List Edge :=
  (targets.filter fun m => needsConstruction program g m &&
    (c.verdict program (.method m)).reason.isSome).flatMap (constructorEdges program g)

theorem mem_constructionEdges {g : Graph} {targets : List MethodId} {e : Edge} :
    e ∈ constructionEdges c program g targets ↔ ∃ m row k, m ∈ targets ∧
      needsConstruction program g m = true ∧
      (c.verdict program (.method m)).reason.isSome = true ∧ program.method? m = some row ∧
      k ∈ program.constructorsOf row.declaringType ∧ .method k ∈ g.nodes ∧
      e = ⟨.method k, .method m, .constructorDependency⟩ := by
  unfold constructionEdges
  rw [List.mem_flatMap]
  constructor
  · rintro ⟨m, hm, he⟩
    obtain ⟨hm, hwanted⟩ := List.mem_filter.mp hm
    rw [Bool.and_eq_true] at hwanted
    unfold constructorEdges at he
    cases hrow : program.method? m with
    | none =>
      rw [hrow] at he
      exact absurd he (by simp)
    | some row =>
      rw [hrow] at he
      obtain ⟨k, hk, rfl⟩ := List.mem_map.mp he
      obtain ⟨hk, hnode⟩ := List.mem_filter.mp hk
      exact ⟨m, row, k, hm, hwanted.1, hwanted.2, hrow, hk, List.contains_iff_mem.mp hnode, rfl⟩
  · rintro ⟨m, row, k, hm, hneeds, hfinds, hrow, hk, hnode, rfl⟩
    refine ⟨m, List.mem_filter.mpr ⟨hm, by rw [hneeds, hfinds]; rfl⟩, ?_⟩
    rw [constructorEdges, hrow]
    exact List.mem_map_of_mem (List.mem_filter.mpr ⟨hk, List.contains_iff_mem.mpr hnode⟩)

theorem newConstructorEdges_ok (hfaithful : ask.Faithful c program Good) {g : Graph}
    {targets : List MethodId} {edges : List Edge} (hgood : Good memory)
    (h : newConstructorEdges program g ask targets memory = (.ok edges, memory')) :
    edges = constructionEdges c program g targets ∧ Good memory' := by
  induction targets generalizing memory edges with
  | nil =>
    obtain ⟨hedges, rfl⟩ := Prod.mk.inj h
    exact ⟨(Except.ok.inj hedges).symm, hgood⟩
  | cons m targets ih =>
    rw [newConstructorEdges] at h
    cases hneeds : needsConstruction program g m with
    | false =>
      -- nothing is asked about a method that needs no construction
      rw [hneeds, if_neg Bool.false_ne_true] at h
      obtain ⟨rfl, hgood'⟩ := ih hgood h
      refine ⟨?_, hgood'⟩
      rw [constructionEdges, constructionEdges, List.filter_cons_of_neg (by simp [hneeds])]
    | true =>
      obtain ⟨memory₁, hask, hkeeps⟩ := hfaithful.ask_eq m hgood
      rw [hneeds, if_pos rfl, hask] at h
      match hreason : c.reason? program m with
      | .error e =>
        rw [hreason] at h
        cases h
      | .ok none =>
        rw [hreason] at h
        obtain ⟨rfl, hgood'⟩ := ih hkeeps h
        refine ⟨?_, hgood'⟩
        rw [constructionEdges, constructionEdges, List.filter_cons_of_neg]
        simp [Classifier.verdict, hreason, Except.toOption]
      | .ok (some reason) =>
        rw [hreason] at h
        dsimp only at h
        generalize hrest : newConstructorEdges program g ask targets memory₁ = outcome at h
        obtain ⟨result, memory₂⟩ := outcome
        cases result with
        | error e => cases h
        | ok rest =>
          obtain ⟨hedges, rfl⟩ := Prod.mk.inj h
          obtain ⟨rfl, hgood'⟩ := ih hkeeps hrest
          refine ⟨?_, hgood'⟩
          rw [← Except.ok.inj hedges, constructionEdges, constructionEdges,
            List.filter_cons_of_pos, List.flatMap_cons]
          simp [hneeds, Classifier.verdict, hreason, Except.toOption]

end Graph

end CallAudit

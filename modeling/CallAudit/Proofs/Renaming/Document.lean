import CallAudit.Proofs.Facts.Recording
import CallAudit.Proofs.Renaming.Program
import CallAudit.Proofs.Classifier.Reasons

/-!
# Documents with tuples in another order

Documents that describe the same and have the same tuples and marks, in whatever order and however
often (`FactDocument.Rearranged`), are recorded as the same rows and facts at other places, and a set
of rules says the same about them (`FactDocument.Rearranged.exists_renamed`).
-/

namespace CallAudit

/-- Two documents that differ in nothing but the order of tuples and marks and in how often each is
there. -/
structure FactDocument.Rearranged (d d' : FactDocument) : Prop where
  methods : d'.methods = d.methods
  types : d'.types = d.types
  directCalls : ∀ t, t ∈ d'.directCalls ↔ t ∈ d.directCalls
  virtualCalls : ∀ t, t ∈ d'.virtualCalls ↔ t ∈ d.virtualCalls
  overrides : ∀ t, t ∈ d'.overrides ↔ t ∈ d.overrides
  staticConstructorDependencies : ∀ t,
    t ∈ d'.staticConstructorDependencies ↔ t ∈ d.staticConstructorDependencies
  fieldAccessDependencies : ∀ t, t ∈ d'.fieldAccessDependencies ↔ t ∈ d.fieldAccessDependencies
  typeDependencies : ∀ t, t ∈ d'.typeDependencies ↔ t ∈ d.typeDependencies
  entryMethods : Option.Rel (fun keys keys' => ∀ key, key ∈ keys' ↔ key ∈ keys)
    d.entryMethods d'.entryMethods
  unanalyzedMethods : ∀ key, key ∈ d'.unanalyzedMethods ↔ key ∈ d.unanalyzedMethods
  resolvedReflectionCalls : ∀ t, t ∈ d'.resolvedReflectionCalls ↔ t ∈ d.resolvedReflectionCalls

/-! ## Places of endpoints -/

namespace Program.Renamed

variable {ρ : Renaming} {p p' : Program} {σ τ : Equiv.Perm Nat} {left right : String → Reference}
  {a b : Nat}

theorem endpoint?_method (h : Renamed ρ p p') (key : String) :
    p'.endpoint? .method key = (p.endpoint? .method key).map ρ.method := by
  unfold endpoint? Reference.ofEndpoint?
  split
  · rfl
  · exact h.methodId? key

theorem endpoint?_type (h : Renamed ρ p p') (fullName : String) :
    p'.endpoint? .type fullName = (p.endpoint? .type fullName).map ρ.type := by
  unfold endpoint? Reference.ofEndpoint?
  split
  · rfl
  · exact h.typeId? fullName

theorem pair?_eq_some_iff (hleft : ∀ text, p'.endpoint? left text = (p.endpoint? left text).map σ)
    (hright : ∀ text, p'.endpoint? right text = (p.endpoint? right text).map τ) (t : Tuple) :
    p'.pair? left right t = some (σ a, τ b) ↔ p.pair? left right t = some (a, b) := by
  unfold pair?
  rw [hleft, hright]
  cases p.endpoint? left t.1 <;> cases p.endpoint? right t.2 <;> simp

/-- Tuples that are the same but for their order relate the same, at other places. -/
theorem mem_pairs {ts ts' : List Tuple} (hts : ∀ t, t ∈ ts' ↔ t ∈ ts)
    (hleft : ∀ text, p'.endpoint? left text = (p.endpoint? left text).map σ)
    (hright : ∀ text, p'.endpoint? right text = (p.endpoint? right text).map τ) :
    (σ a, τ b) ∈ Distinct.ofList (ts'.filterMap (p'.pair? left right)) ↔
      (a, b) ∈ Distinct.ofList (ts.filterMap (p.pair? left right)) := by
  rw [Distinct.mem_ofList, Distinct.mem_ofList, List.mem_filterMap, List.mem_filterMap]
  exact exists_congr fun t => and_congr (hts t) (pair?_eq_some_iff hleft hright t)

theorem mem_marks (h : Renamed ρ p p') {keys keys' : List String} (hkeys : ∀ k, k ∈ keys' ↔ k ∈ keys)
    {m : MethodId} : ρ.method m ∈ Distinct.ofList (keys'.filterMap (p'.endpoint? .method)) ↔
      m ∈ Distinct.ofList (keys.filterMap (p.endpoint? .method)) := by
  rw [Distinct.mem_ofList, Distinct.mem_ofList, List.mem_filterMap, List.mem_filterMap]
  refine exists_congr fun key => and_congr (hkeys key) ?_
  rw [h.endpoint?_method]
  simp

end Program.Renamed

/-! ## Rules -/

/-- Rules look at nothing but rows and at what the facts say about entry points and unanalyzed
methods. -/
theorem RuleSet.renamed {ρ : Renaming} {p p' : Program} {f f' : Facts} (hp : p.Renamed ρ p')
    (hentries : Option.Rel (fun ms ms' => ∀ m, ρ.method m ∈ ms' ↔ m ∈ ms) f.entryMethods
      f'.entryMethods)
    (hunanalyzed : ∀ m, ρ.method m ∈ f'.unanalyzedMethods ↔ m ∈ f.unanalyzedMethods)
    (rules : RuleSet) :
    Classifier.Renamed ρ p p' (rules.withFacts f).classifier (rules.withFacts f').classifier where
  isEntry := by
    intro m
    show (rules.withFacts f').isEntry p' (ρ.method m) = (rules.withFacts f).isEntry p m
    unfold isEntry withFacts
    dsimp only
    generalize f.entryMethods = entries, f'.entryMethods = entries' at hentries
    cases hentries with
    | none => simp only [hp.method?, hp.declaringType?]
    | some hsame =>
      rw [Bool.eq_iff_iff, List.contains_iff_mem, List.contains_iff_mem]
      exact hsame m
  reason? := by
    intro m
    have hcontains : f'.unanalyzedMethods.contains (ρ.method m) = f.unanalyzedMethods.contains m := by
      rw [Bool.eq_iff_iff, List.contains_iff_mem, List.contains_iff_mem, hunanalyzed]
    have hreason : ∀ row, (rules.withFacts f').reasonFor (ρ.method m) row =
        (rules.withFacts f).reasonFor m row := by
      intro row
      unfold reasonFor withFacts
      dsimp only
      rw [hcontains]
      rfl
    have hm := hp.method? m
    cases hrow : p.method? m with
    | none =>
      rw [hrow] at hm
      rw [reason?_of_none hrow, reason?_of_none hm]
    | some row =>
      rw [hrow] at hm
      rw [reason?_of_row hrow, reason?_of_row hm, hreason]
  isSafe := by
    intro m
    show (p'.method? (ρ.method m)).any (rules.hasOutcome .safe) =
      (p.method? m).any (rules.hasOutcome .safe)
    rw [hp.method?]
  knownReasons := rfl

/-- Where rules cannot decide they conflict. -/
theorem RuleSet.reason?_error {rules : RuleSet} {p : Program} {m : MethodId} {e : AuditError}
    (h : rules.classifier.reason? p m = .error e) :
    ∃ key first second, e = .conflictingReasons key first second := by
  have hagreed : ∀ {row : Method} {reasons : List Reason}, agreed row reasons = .error e →
      ∃ key first second, e = .conflictingReasons key first second := by
    intro row reasons hagreed
    unfold agreed at hagreed
    split at hagreed
    · cases hagreed
    · split at hagreed
      · cases hagreed
        exact ⟨_, _, _, rfl⟩
      · cases hagreed
  have hrow : ∃ row, rules.reasonFor m row = .error e := by
    cases hm : p.method? m with
    | none => rw [reason?_of_none hm] at h; cases h
    | some row => rw [reason?_of_row hm] at h; exact ⟨row, h⟩
  obtain ⟨row, hrow⟩ := hrow
  unfold reasonFor at hrow
  split at hrow
  · cases hrow
  split at hrow
  · next hagree =>
    cases hrow
    exact hagreed hagree
  · cases hrow
  split at hrow
  · cases hrow
  split at hrow
  · cases hrow
  · exact hagreed hrow

/-! ## Recording -/

namespace FactDocument.Rearranged

variable {d d' : FactDocument}

theorem described_eq (h : d.Rearranged d') : d'.described = d.described := by
  unfold described Recording.describe
  rw [h.methods, h.types]

theorem mem_references (h : d.Rearranged d') (ref : Reference) :
    ref ∈ d'.references ↔ ref ∈ d.references := by
  have hentries : ∀ key, key ∈ d'.entryMethods.getD [] ↔ key ∈ d.entryMethods.getD [] := by
    have hrel := h.entryMethods
    generalize d.entryMethods = entries, d'.entryMethods = entries' at hrel
    cases hrel with
    | none => exact fun key => Iff.rfl
    | some hsame => exact hsame
  simp only [references, List.mem_append, List.mem_flatMap, h.directCalls, h.virtualCalls,
    h.overrides, h.staticConstructorDependencies, h.fieldAccessDependencies, h.typeDependencies,
    h.resolvedReflectionCalls, hentries, h.unanalyzedMethods]

/-- The rows are the same up to order, for they are known from what is described and referred to. -/
theorem exists_renaming (h : d.Rearranged d') :
    ∃ ρ, (Recording.ofDocument d).program.Renamed ρ (Recording.ofDocument d').program := by
  obtain ⟨hmethods, htypes⟩ := (Recording.interned_described d).referAll_perm fun ref =>
    (h.mem_references ref).symm
  refine Program.exists_renaming (Recording.interned_ofDocument d) (Recording.interned_ofDocument d')
    ?_ ?_
  · rwa [Recording.program_ofDocument, Recording.program_ofDocument, h.described_eq]
  · rwa [Recording.program_ofDocument, Recording.program_ofDocument, h.described_eq]

theorem facts_renamed (h : d.Rearranged d') {ρ : Renaming} {p p' : Program} (hp : p.Renamed ρ p') :
    Facts.Renamed ρ (d.factsAt p) (d'.factsAt p') where
  directCalls := fun _ _ => Program.Renamed.mem_pairs h.directCalls hp.endpoint?_method
    hp.endpoint?_method
  virtualCalls := fun _ _ => Program.Renamed.mem_pairs h.virtualCalls hp.endpoint?_method
    hp.endpoint?_method
  overrides := fun _ _ => Program.Renamed.mem_pairs h.overrides hp.endpoint?_method
    hp.endpoint?_method
  staticConstructors := fun _ _ => Program.Renamed.mem_pairs h.staticConstructorDependencies
    hp.endpoint?_type hp.endpoint?_method
  fieldAccesses := fun _ _ => Program.Renamed.mem_pairs h.fieldAccessDependencies
    hp.endpoint?_method hp.endpoint?_method
  typeDependencies := fun _ _ => Program.Renamed.mem_pairs h.typeDependencies hp.endpoint?_method
    hp.endpoint?_type
  resolvedCalls := fun _ _ => Program.Renamed.mem_pairs h.resolvedReflectionCalls
    hp.endpoint?_method hp.endpoint?_method

theorem classifier_renamed (h : d.Rearranged d') {ρ : Renaming} {p p' : Program}
    (hp : p.Renamed ρ p') (rules : RuleSet) : Classifier.Renamed ρ p p'
      (rules.withFacts (d.factsAt p)).classifier (rules.withFacts (d'.factsAt p')).classifier := by
  refine RuleSet.renamed hp ?_ (fun m => hp.mem_marks h.unanalyzedMethods) rules
  have hrel := h.entryMethods
  unfold factsAt
  dsimp only
  generalize d.entryMethods = entries, d'.entryMethods = entries' at hrel
  cases hrel with
  | none => exact .none
  | some hsame => exact .some fun m => hp.mem_marks hsame

/-- Documents that differ in the order of their tuples are recorded alike but for the places. -/
theorem exists_renamed (h : d.Rearranged d') (rules : RuleSet) :
    ∃ ρ, Renamed ρ (Recording.ofDocument d).program (Recording.ofDocument d').program
      (Recording.ofDocument d).facts (Recording.ofDocument d').facts
      (rules.withFacts (Recording.ofDocument d).facts).classifier
      (rules.withFacts (Recording.ofDocument d').facts).classifier := by
  obtain ⟨ρ, hp⟩ := h.exists_renaming
  rw [Recording.facts_ofDocument d, Recording.facts_ofDocument d']
  exact ⟨ρ, hp, h.facts_renamed hp, h.classifier_renamed hp rules⟩

end FactDocument.Rearranged

end CallAudit

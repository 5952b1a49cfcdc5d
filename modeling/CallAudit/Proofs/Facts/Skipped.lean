import CallAudit.Proofs.Facts.Meaning

/-!
# Tuples that are skipped

A tuple with an empty endpoint states no fact.  Its other endpoint is referred to all the same, and gets
a row if it has none, so that a document without such tuples comes to the same facts, but not always to
the same program (`skipped_tuples_leave_placeholders`).
-/

namespace CallAudit

open Program

variable {p : Program} {d : FactDocument}

namespace FactDocument

/-- The document with some of its tuples. -/
def keepTuples (d : FactDocument) (keep : Tuple → Bool) : FactDocument :=
  { d with
    directCalls := d.directCalls.filter keep
    virtualCalls := d.virtualCalls.filter keep
    overrides := d.overrides.filter keep
    staticConstructorDependencies := d.staticConstructorDependencies.filter keep
    fieldAccessDependencies := d.fieldAccessDependencies.filter keep
    typeDependencies := d.typeDependencies.filter keep
    resolvedReflectionCalls := d.resolvedReflectionCalls.filter keep }

/-- The document without the tuples that have an empty endpoint. -/
def whole (d : FactDocument) : FactDocument :=
  d.keepTuples Tuple.isWhole

/-- The document of the tuples that have an empty endpoint. -/
def skipped (d : FactDocument) : FactDocument :=
  { d.keepTuples (fun t => !t.isWhole) with
    methods := [], types := [], entryMethods := none, unanalyzedMethods := [] }

/-- Tuples with an empty endpoint state no fact. -/
theorem factsAt_whole (p : Program) (d : FactDocument) : d.whole.factsAt p = d.factsAt p := by
  have hskip : ∀ (left right : String → Reference) (ts : List Tuple),
      (ts.filter Tuple.isWhole).filterMap (p.pair? left right) =
        ts.filterMap (p.pair? left right) := by
    intro left right ts
    rw [List.filterMap_filter]
    refine List.filterMap_congr fun t _ => ?_
    cases hwhole : t.isWhole with
    | true => rfl
    | false => rw [pair?_of_not_isWhole hwhole]; rfl
  unfold factsAt whole keepTuples
  simp only [hskip]

/-- What a document refers to is what its whole tuples refer to and what the others do. -/
theorem mem_references_whole_or (d : FactDocument) (ref : Reference) :
    ref ∈ d.references ↔ ref ∈ d.whole.references ∨ ref ∈ d.skipped.references := by
  have hsplit : ∀ (refs : Tuple → List Reference) (ts : List Tuple), (∃ t ∈ ts, ref ∈ refs t) ↔
      (∃ t ∈ ts.filter Tuple.isWhole, ref ∈ refs t) ∨
        ∃ t ∈ ts.filter (fun t => !t.isWhole), ref ∈ refs t := by
    intro refs ts
    simp only [List.mem_filter, ← exists_or, ← or_and_right, ← and_or_left, Bool.not_eq_true']
    refine exists_congr fun t => and_congr_left fun _ => ?_
    cases t.isWhole <;> simp
  unfold references whole skipped keepTuples
  -- every list of tuples falls into two parts, and the marks go with the whole ones
  simp only [List.mem_append, List.mem_flatMap, hsplit _ d.directCalls, hsplit _ d.virtualCalls,
    hsplit _ d.overrides, hsplit _ d.staticConstructorDependencies,
    hsplit _ d.fieldAccessDependencies, hsplit _ d.typeDependencies,
    hsplit _ d.resolvedReflectionCalls, Option.getD_none, List.not_mem_nil, false_and, exists_false,
    or_false]
  exact iff_of_eq (by ac_rfl)

end FactDocument

namespace Recording

theorem facts_ofDocument_whole (d : FactDocument) :
    (ofDocument d).facts = d.whole.factsAt (ofDocument d).program := by
  rw [d.factsAt_whole, facts_ofDocument]

/-- The rows are, up to their order, those of the whole tuples and what the others refer to besides. -/
theorem rows_ofDocument_whole (d : FactDocument) :
    let whole := (ofDocument d.whole).program
    (ofDocument d).program.methods.Perm
        (whole.methods ++ (whole.newKeys d.skipped.references).map Method.placeholder) ∧
      (ofDocument d).program.types.Perm
        (whole.types ++ (whole.newNames d.skipped.references).map TypeRow.placeholder) := by
  intro whole
  have hrefs : ∀ ref, ref ∈ d.references ↔ ref ∈ d.whole.references ++ d.skipped.references :=
    fun ref => (d.mem_references_whole_or ref).trans List.mem_append.symm
  have hwhole : whole = d.described.referAll d.whole.references := program_ofDocument d.whole
  -- the order in which the references come does not matter for which rows there are
  have hperm := (interned_described d).referAll_perm hrefs
  rwa [referAll_append, ← hwhole, ← program_ofDocument, referAll_eq whole] at hperm

/-- The facts are known from the program, so that it is enough to compare the programs. -/
theorem ofDocument_eq_whole_iff (d : FactDocument) : ofDocument d = ofDocument d.whole ↔
    d.described.newKeys d.references = d.described.newKeys d.whole.references ∧
      d.described.newNames d.references = d.described.newNames d.whole.references := by
  have hprogram : (ofDocument d).program = d.described.referAll d.references := program_ofDocument d
  have hwhole : (ofDocument d.whole).program = d.described.referAll d.whole.references :=
    program_ofDocument d.whole
  rw [← referAll_eq_iff, ← hprogram, ← hwhole]
  constructor
  · exact congrArg Recording.program
  · intro hsame
    have hfacts : (ofDocument d).facts = (ofDocument d.whole).facts := by
      rw [facts_ofDocument_whole, hsame, facts_ofDocument]
    exact (Recording.mk.injEq ..).mpr ⟨hsame, hfacts⟩

end Recording

/-- Whatever a document holds: without the tuples that have an empty endpoint it states the same facts.
What these tuples refer to is entered, though, as placeholders for the rows that there would not be
otherwise.  It all stays the same exactly if the keys and the names that get a placeholder are the same
ones and first come up in the same order. -/
theorem skipped_tuples_leave_placeholders (d : FactDocument) :
    let all := Recording.ofDocument d
    let whole := Recording.ofDocument d.whole
    (all.facts = d.whole.factsAt all.program ∧ whole.facts = d.whole.factsAt whole.program) ∧
      all.program.methods.Perm (whole.program.methods ++
        (whole.program.newKeys d.skipped.references).map Method.placeholder) ∧
      all.program.types.Perm (whole.program.types ++
        (whole.program.newNames d.skipped.references).map TypeRow.placeholder) ∧
      (all = whole ↔
        d.described.newKeys d.references = d.described.newKeys d.whole.references ∧
          d.described.newNames d.references = d.described.newNames d.whole.references) := by
  intro all whole
  obtain ⟨hmethods, htypes⟩ := Recording.rows_ofDocument_whole d
  exact ⟨⟨Recording.facts_ofDocument_whole d, Recording.facts_ofDocument d.whole⟩, hmethods, htypes,
    Recording.ofDocument_eq_whole_iff d⟩

/-- A call from nowhere calls a method that is mentioned nowhere else. -/
def FactDocument.calledFromNowhere : FactDocument where
  directCalls := [("", "App.Util::Log()")]

/-- The call is skipped, but what it calls is there, together with its type. -/
theorem skipped_tuple_enters_method :
    let all := Recording.ofDocument .calledFromNowhere
    let whole := Recording.ofDocument (FactDocument.whole .calledFromNowhere)
    all ≠ whole ∧ all.facts = {} ∧ whole = {} ∧ all.program =
      { methods := [.placeholder "App.Util::Log()"], types := [.placeholder "App.Util"] } := by
  decide

end CallAudit

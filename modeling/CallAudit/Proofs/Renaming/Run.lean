import CallAudit.Proofs.Analysis.Justification
import CallAudit.Proofs.Renaming.Document
import CallAudit.Proofs.Renaming.Search
import CallAudit.Proofs.Report.Ends

/-!
# Runs on documents with tuples in another order

A run on a document whose tuples are in another order, or are repeated, comes to the same: the places
of rows, the edges, the numbers and the ties between shortest routes may all differ, but none of this
shows in the statistics, in where chains lead from and to and in how many hops, or in the numbers of the
summary (`rearranged_runs_agree`).
-/

namespace CallAudit

/-! ## What is said of an entry by its span -/

/-- The key of the method that a node is. -/
def Program.keyOf? (program : Program) (n : Option Node) : Option String :=
  ((n.bind Node.method?).bind program.method?).map (·.key)

/-- The keys of the methods that a chain leads from and to, and how many hops it has. -/
def Entry.keys (program : Program) (e : Entry) : Option String × Option String × Nat :=
  (program.keyOf? e.chain.source?, program.keyOf? e.chain.destination?, e.chain.nodes.length - 1)

/-- What is noted of a chain with a given span. -/
def Note.ofSpan (program : Program) (s : Snapshot) (span : Nat × Nat × Nat) : Note where
  category := Category.ofDestination program (s.node? span.2.1)
  reason := (s.verdict span.1).reason
  hit := hitOf program (s.node? span.2.1)

/-- The keys of the ends of a span. -/
def Program.keysOfSpan (program : Program) (s : Snapshot) (span : Nat × Nat × Nat) :
    Option String × Option String × Nat :=
  (program.keyOf? (s.node? span.1), program.keyOf? (s.node? span.2.1), span.2.2)

namespace Analysis.Routed

variable {options : AnalysisOptions} {program : Program} {facts : Facts} {p : Prepared} {e : Entry}
  {path : List Nat}

theorem note_eq (h : Routed options program facts p e path) :
    Note.ofEntry program [] e = Note.ofSpan program p.snapshot e.span := by
  have hcategory : Category.ofChain program [] e.chain =
      Category.ofDestination program e.chain.destination? := rfl
  rw [Note.ofEntry, Note.ofSpan, hcategory, h.destination?, h.reason]
  rfl

theorem keys_eq (h : Routed options program facts p e path) :
    e.keys program = program.keysOfSpan p.snapshot e.span := by
  rw [Entry.keys, h.source?, h.destination?]
  rfl

end Analysis.Routed

namespace Program.Renamed

variable {ρ : Renaming} {program program' : Program}

theorem keyOf? (h : Renamed ρ program program') (n : Option Node) :
    program'.keyOf? (n.map ρ.node) = program.keyOf? n := by
  cases n with
  | none => rfl
  | some n =>
    cases n with
    | type t => rfl
    | method m =>
      show (program'.method? (ρ.method m)).map (·.key) = (program.method? m).map (·.key)
      rw [h.method?]

end Program.Renamed

/-! ## Numbers that are counted -/

namespace Numbered

variable {ρ : Renaming} {σ : Equiv.Perm Nat} {program program' : Program} {facts facts' : Facts}
  {c c' : Classifier} {options : AnalysisOptions} {p p' : Prepared} {es es' : List Entry}
  (h : Numbered ρ σ program program' facts facts' c c' p p')

include h

theorem note_moveSpan (span : Nat × Nat × Nat) :
    Note.ofSpan program' p'.snapshot (Entry.moveSpan σ span) =
      Note.ofSpan program p.snapshot span := by
  rw [Note.ofSpan, Note.ofSpan, Entry.moveSpan, h.node?, h.verdict, h.renamed.program.category,
    h.renamed.program.hitOf]

theorem keys_moveSpan (span : Nat × Nat × Nat) :
    program'.keysOfSpan p'.snapshot (Entry.moveSpan σ span) =
      program.keysOfSpan p.snapshot span := by
  rw [Program.keysOfSpan, Program.keysOfSpan, Entry.moveSpan, h.node?, h.node?,
    h.renamed.program.keyOf?, h.renamed.program.keyOf?]

theorem interesting_perm : (p.snapshot.interesting.map σ).Perm p'.snapshot.interesting := by
  refine h.indices_perm fun i => ?_
  rw [Snapshot.isInteresting, Snapshot.isInteresting, h.verdict]

theorem methodsOf_perm :
    (Ledger.methodsOf program p.snapshot).Perm (Ledger.methodsOf program' p'.snapshot) := by
  have hnodes : ∀ {c : Classifier} {program : Program} {p : Prepared}, p.Judged c program →
      Ledger.methodsOf program p.snapshot =
        p.graph.nodes.filterMap fun n => n.method?.bind program.method? := by
    intro c program p hp
    rw [hp.snapshot_eq]
    exact List.filterMap_filterMap
  rw [hnodes h.prepared.judged, hnodes h.prepared.judged']
  refine perm_filterMap_of_map h.prepared.graph.nodes_perm fun n => ?_
  cases n with
  | type t => rfl
  | method m => exact h.renamed.program.method? m

/-- The numbers of a summary see no difference. -/
theorem alike : Snapshot.Alike program program' p.snapshot p'.snapshot where
  types := h.methodsOf_perm.map _
  entries := by
    have hentry : ∀ i, p'.snapshot.isEntry (σ i) = p.snapshot.isEntry i := fun i =>
      congrArg Verdict.entry (h.verdict i)
    have hlength := (h.indices_perm hentry).length_eq
    rwa [List.length_map] at hlength
  interesting := by
    have hlength := h.interesting_perm.length_eq
    rwa [List.length_map] at hlength
  reasons := perm_filterMap_of_map h.interesting_perm fun i => congrArg Verdict.reason (h.verdict i)
  namespaces := fun type => (h.renamed.program.outermostNamespace? type).symm

end Numbered

/-! ## Runs that come to the same -/

/-- Analyses that come to the same: the chains lead from and to methods of the same keys in as many
hops, and the summaries differ at most in the order of lines with equal counts and of the methods that
were not reported. -/
structure Analysis.ComesToTheSame (program program' : Program) (a a' : Analysis)
    (es es' : List Entry) : Prop where
  stats : a.stats = a'.stats
  keys : (es.map (Entry.keys program)).Perm (es'.map (Entry.keys program'))
  summary : a.summary.SameNumbers a'.summary
  unreported : a.summary.unreported.Perm a'.summary.unreported

/-- What the span of an entry says is said as often, if spans that are moved say the same. -/
theorem Entry.map_perm_of_spans {α : Type} {σ : Equiv.Perm Nat} {es es' : List Entry}
    {f f' : Entry → α} {said said' : Nat × Nat × Nat → α}
    (hspans : ((es.map span).map (moveSpan σ)).Perm (es'.map span))
    (hf : ∀ e ∈ es, f e = said e.span) (hf' : ∀ e ∈ es', f' e = said' e.span)
    (hsaid : ∀ s, said' (moveSpan σ s) = said s) : (es.map f).Perm (es'.map f') := by
  have hmoved : said' ∘ moveSpan σ = said := funext hsaid
  have hperm := hspans.map said'
  rw [List.map_map, hmoved, List.map_map, List.map_map] at hperm
  rwa [List.map_congr_left hf, List.map_congr_left hf']

namespace Numbered

variable {ρ : Renaming} {σ : Equiv.Perm Nat} {program program' : Program} {facts facts' : Facts}
  {c c' : Classifier} {options : AnalysisOptions} {p p' : Prepared} {es es' : List Entry}
  {sink sink' : Sink} {a a' : Analysis}
  (h : Numbered ρ σ program program' facts facts' c c' p p')

include h

theorem isUnreported
    (hspans : ((es.map Entry.span).map (Entry.moveSpan σ)).Perm (es'.map Entry.span)) (i : Nat) :
    Analysis.isUnreported options program' p' es' (σ i) =
      Analysis.isUnreported options program p es i := by
  have hspan : ∀ (es : List Entry) (i : Nat), (∃ e ∈ es, i = e.source ∨ i = e.destination) ↔
      ∃ span ∈ es.map Entry.span, i = span.1 ∨ i = span.2.1 := by
    intro es i
    simp [Entry.span]
  have hreported : (Analysis.ledgerOf options program' p' es').isReported (σ i) =
      (Analysis.ledgerOf options program p es).isReported i := by
    rw [Bool.eq_iff_iff, Analysis.isReported_ledgerOf, Analysis.isReported_ledgerOf, h.lt_size,
      hspan, hspan]
    refine and_congr_right fun _ => ?_
    simp [← hspans.mem_iff, Entry.moveSpan]
  rw [Analysis.isUnreported, Analysis.isUnreported, hreported, Snapshot.isInteresting,
    Snapshot.isInteresting, h.verdict]

theorem unreported_perm
    (hspans : ((es.map Entry.span).map (Entry.moveSpan σ)).Perm (es'.map Entry.span))
    {known known' : List Reason} :
    ((Analysis.ledgerOf options program p es).summarize program p.snapshot known).unreported.Perm
      ((Analysis.ledgerOf options program' p' es').summarize program' p'.snapshot
        known').unreported := by
  rw [Analysis.unreported_eq, Analysis.unreported_eq]
  refine perm_filterMap_of_map (h.indices_perm (h.isUnreported hspans)) fun i => ?_
  rw [h.node?, Option.map_map]
  congr 1
  exact funext h.renamed.program.display

/-- However their results are delivered, two runs come to the same. -/
theorem comesToTheSame (hof : Prepared.of c program facts = .ok p)
    (hof' : Prepared.of c' program' facts' = .ok p') (hcategories : options.categoryRules = [])
    (hsink : sink.capacity = none) (hsink' : sink'.capacity = none)
    (hends : Analysis.Ends options program facts c sink a es)
    (hends' : Analysis.Ends options program' facts' c' sink' a' es') :
    Analysis.ComesToTheSame program program' a a' es es' := by
  obtain ⟨hstats, hsummary, es₀, hes₀, hperm⟩ := hends.summary_eq hof h.prepared.judged hsink
  obtain ⟨hstats', hsummary', es₀', hes₀', hperm'⟩ :=
    hends'.summary_eq hof' h.prepared.judged' hsink'
  have hspans : ((es.map Entry.span).map (Entry.moveSpan σ)).Perm (es'.map Entry.span) :=
    ((hperm.symm.map _).map _).trans ((h.spans_perm hes₀ hes₀').trans (hperm'.map _))
  have hrouted : ∀ e ∈ es, ∃ path, Analysis.Routed options program facts p e path := fun e he =>
    Analysis.reported_route h.prepared.judged hes₀ (hperm.mem_iff.mpr he)
  have hrouted' : ∀ e ∈ es', ∃ path, Analysis.Routed options program' facts' p' e path :=
    fun e he => Analysis.reported_route h.prepared.judged' hes₀' (hperm'.mem_iff.mpr he)
  refine ⟨?_, ?_, ?_, ?_⟩
  · rw [hstats, hstats', h.prepared.stats]
  · exact Entry.map_perm_of_spans hspans (fun e he => (hrouted e he).choose_spec.keys_eq)
      (fun e he => (hrouted' e he).choose_spec.keys_eq) h.keys_moveSpan
  · have hnotes : (es.map (Note.ofEntry program options.categoryRules)).Perm
        (es'.map (Note.ofEntry program' options.categoryRules)) := by
      rw [hcategories]
      exact Entry.map_perm_of_spans hspans (fun e he => (hrouted e he).choose_spec.note_eq)
        (fun e he => (hrouted' e he).choose_spec.note_eq) h.note_moveSpan
    rw [hsummary, hsummary', h.renamed.classifier.knownReasons]
    exact Ledger.summarize_sameNumbers _ h.alike hnotes
  · rw [hsummary, hsummary']
    exact h.unreported_perm hspans

end Numbered

/-! ## Runs on documents -/

namespace FactDocument

/-- A run of an analysis on a document, under rules. -/
def run (d : FactDocument) (rules : RuleSet) (options : AnalysisOptions) (sink : Sink) :
    Except AuditError Analysis :=
  let r := Recording.ofDocument d
  (Analysis.run options r.program r.facts (rules.withFacts r.facts).classifier sink).1

/-- An analysis of a document that ended well, in whatever order its results were delivered, and the
chains that it reported. -/
def Ends (d : FactDocument) (rules : RuleSet) (options : AnalysisOptions) (sink : Sink)
    (a : Analysis) (es : List Entry) : Prop :=
  let r := Recording.ofDocument d
  Analysis.Ends options r.program r.facts (rules.withFacts r.facts).classifier sink a es

theorem run_error {d : FactDocument} {rules : RuleSet} {options : AnalysisOptions} {sink : Sink}
    {e : AuditError} (h : Prepared.of (rules.withFacts (Recording.ofDocument d).facts).classifier
      (Recording.ofDocument d).program (Recording.ofDocument d).facts = .error e) :
    d.run rules options sink = .error e := by
  unfold run Analysis.run
  dsimp only
  rw [h]

end FactDocument

/-! ### Ends of chains -/

section

variable {program : Program} {facts : Facts} {rules : RuleSet} {options : AnalysisOptions}
  {c : Classifier} {p : Prepared} {m : MethodId} {d : FactDocument} {sink : Sink} {a : Analysis}
  {es : List Entry} {e : Entry}

theorem RuleSet.exists_row_of_reason {reason : Reason}
    (h : rules.classifier.reason? program m = .ok (some reason)) :
    ∃ row, program.method? m = some row := by
  cases hm : program.method? m with
  | some row => exact ⟨row, rfl⟩
  | none =>
    rw [reason?_of_none hm] at h
    exact absurd (Except.ok.inj h) (by simp)

/-- What a document marks as an entry point is a method that the document refers to. -/
theorem Recording.exists_row_of_entry
    (h : (rules.withFacts (ofDocument d).facts).isEntry (ofDocument d).program m = true) :
    ∃ row, (ofDocument d).program.method? m = some row := by
  rw [facts_ofDocument] at h
  unfold RuleSet.isEntry RuleSet.withFacts FactDocument.factsAt at h
  cases hentries : d.entryMethods with
  | none =>
    simp only [hentries, Option.map_none] at h
    obtain ⟨row, hrow, -⟩ := (Option.any_eq_true _ _).mp (Bool.and_eq_true_iff.mp h).1
    exact ⟨row, hrow⟩
  | some keys =>
    simp only [hentries, Option.map_some] at h
    rw [List.contains_iff_mem, Distinct.mem_ofList, List.mem_filterMap] at h
    obtain ⟨key, -, hkey⟩ := h
    unfold Program.endpoint? Reference.ofEndpoint? at hkey
    split at hkey
    · cases hkey
    · obtain ⟨row, hrow, -⟩ := (interned_ofDocument d).methodId?_eq_some_iff.mp hkey
      exact ⟨row, hrow⟩

theorem Analysis.Routed.ends {path : List Nat} (h : Routed options program facts p e path)
    (hp : p.Judged c program) :
    ∃ n, e.chain.destination? = some n ∧ MayEnd options program facts c n := by
  obtain ⟨m, -, hstart, -⟩ := h.starts hp
  have hlt := (List.getElem?_eq_some_iff.mp hstart).1
  have hlast : e.chain.nodes.length - 1 < e.chain.nodes.length := by omega
  have hget := List.getElem?_eq_getElem hlast
  refine ⟨_, ?_, (h.mayEnd_iff hp hget).mpr (by omega)⟩
  rw [Chain.destination?, List.getLast?_eq_getElem?, hget]

/-- Every chain leads from a method with a key to one with a key. -/
theorem FactDocument.Ends.exists_keys (h : d.Ends rules options sink a es)
    (hsink : sink.capacity = none) (he : e ∈ es) : ∃ source destination hops,
      e.keys (Recording.ofDocument d).program = (some source, some destination, hops) := by
  obtain ⟨p, hp⟩ : ∃ p, Prepared.of (rules.withFacts (Recording.ofDocument d).facts).classifier
      (Recording.ofDocument d).program (Recording.ofDocument d).facts = .ok p := by
    obtain ⟨p, -, -, -, -, hp, -⟩ := h
    exact ⟨p, hp⟩
  obtain ⟨u, -, hu, rfl⟩ := Prepared.of_ok hp
  obtain ⟨-, -, es₀, hes₀, hperm⟩ := Analysis.Ends.summary_eq h hp hu.prune hsink
  obtain ⟨path, hpath⟩ := Analysis.reported_route hu.prune hes₀ (hperm.mem_iff.mpr he)
  -- a chain starts where the rules give a reason, and they give none without a row
  obtain ⟨m, reason, hsource, hreason, -⟩ := hpath.starts hu.prune
  obtain ⟨row, hrow⟩ := RuleSet.exists_row_of_reason hreason
  -- it ends at an entry point or at a static constructor
  obtain ⟨-, hdestination, k, rfl, hends⟩ := hpath.ends hu.prune
  have hend : ∃ row, (Recording.ofDocument d).program.method? k = some row := by
    rcases hends with hentry | ⟨-, hstatic, -⟩
    · exact Recording.exists_row_of_entry hentry
    · obtain ⟨row, hrow, -⟩ := (Option.any_eq_true _ _).mp hstatic
      exact ⟨row, hrow⟩
  obtain ⟨row', hrow'⟩ := hend
  refine ⟨row.key, row'.key, e.chain.nodes.length - 1, ?_⟩
  rw [Entry.keys, Chain.source?, List.head?_eq_getElem?, hsource, hdestination]
  simp [Program.keyOf?, Node.method?, hrow, hrow']

end

/-- Documents that differ in nothing but the order of their tuples and marks, and in how often each is
there, come to the same under any rules: either conflicting reasons are what both runs fail with, or
both succeed, and however their results are delivered, the analyses come to the same. -/
theorem rearranged_runs_agree {d d' : FactDocument} (h : d.Rearranged d') (rules : RuleSet)
    {options : AnalysisOptions} (hcategories : options.categoryRules = []) {sink sink' : Sink}
    (hsink : sink.capacity = none) (hsink' : sink'.capacity = none) :
    (∃ key first second key' first' second',
      d.run rules options sink = .error (.conflictingReasons key first second) ∧
      d'.run rules options sink' = .error (.conflictingReasons key' first' second')) ∨
    (∃ a es, d.run rules options sink = .ok a ∧ d.Ends rules options sink a es) ∧
    (∃ a' es', d'.run rules options sink' = .ok a' ∧ d'.Ends rules options sink' a' es') ∧
    ∀ a es a' es', d.Ends rules options sink a es → d'.Ends rules options sink' a' es' →
      Analysis.ComesToTheSame (Recording.ofDocument d).program (Recording.ofDocument d').program
        a a' es es' ∧
      ∀ e ∈ es, ∃ source destination hops,
        e.keys (Recording.ofDocument d).program = (some source, some destination, hops) := by
  obtain ⟨ρ, hs⟩ := h.exists_renamed rules
  rcases hs.prepared with ⟨e, e', hof, hof', ⟨m, hm⟩, m', hm'⟩ | ⟨p, p', hof, hof', hp⟩
  · obtain ⟨key, first, second, rfl⟩ := RuleSet.reason?_error hm
    obtain ⟨key', first', second', rfl⟩ := RuleSet.reason?_error hm'
    exact Or.inl ⟨key, first, second, key', first', second', FactDocument.run_error hof,
      FactDocument.run_error hof'⟩
  · obtain ⟨σ, hnumbered⟩ := hs.exists_numbers hp
    refine Or.inr ⟨Analysis.exists_run options hof hp.judged hsink,
      Analysis.exists_run options hof' hp.judged' hsink', ?_⟩
    intro a es a' es' hends hends'
    exact ⟨hnumbered.comesToTheSame hof hof' hcategories hsink hsink' hends hends',
      fun e he => FactDocument.Ends.exists_keys hends hsink he⟩

/-- A method that cannot be analyzed, and two ways to it from the entry point. -/
def FactDocument.diamond : FactDocument where
  directCalls := [("Main", "Left"), ("Left", "Load"), ("Main", "Right"), ("Right", "Load")]
  entryMethods := some ["Main"]
  unanalyzedMethods := ["Load"]

/-- The same calls, recorded from the last to the first and then once more. -/
def FactDocument.rediamond : FactDocument :=
  { diamond with directCalls := diamond.directCalls.reverse ++ diamond.directCalls }

/-- The methods are at other places, and there is one chain in both. -/
theorem rearranged_runs_agree_diamond : FactDocument.diamond.Rearranged .rediamond ∧
    (Recording.ofDocument .diamond).program.methodId? "Load" = some 2 ∧
    (Recording.ofDocument .rediamond).program.methodId? "Load" = some 1 ∧
    ∃ a es a' es', FactDocument.diamond.run {} {} {} = .ok a ∧
      FactDocument.rediamond.run {} {} {} = .ok a' ∧ a.summary.chains = 1 ∧
      Analysis.ComesToTheSame (Recording.ofDocument .diamond).program
        (Recording.ofDocument .rediamond).program a a' es es' := by
  have hrearranged : FactDocument.diamond.Rearranged .rediamond := by
    constructor
    case entryMethods => exact .some fun _ => Iff.rfl
    all_goals simp [FactDocument.rediamond]
  have hchains : (FactDocument.diamond.run {} {} {}).toOption.map (·.summary.chains) = some 1 := by
    cbv
  refine ⟨hrearranged, by cbv, by cbv, ?_⟩
  rcases @rearranged_runs_agree _ _ hrearranged {} {} rfl {} {} rfl rfl with
    ⟨key, first, second, -, -, -, hrun, -⟩ |
      ⟨⟨a, es, hrun, hends⟩, ⟨a', es', hrun', hends'⟩, hsame⟩
  · rw [hrun] at hchains
    exact absurd hchains (by simp [Except.toOption])
  · rw [hrun] at hchains
    exact ⟨a, es, a', es', hrun, hrun', Option.some.inj hchains,
      (hsame a es a' es' hends hends').1⟩

end CallAudit

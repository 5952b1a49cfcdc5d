import CallAudit.Proofs.Classifier.Reasons
import CallAudit.Proofs.Report.Ends
import CallAudit.Proofs.Report.Tallies

/-!
# Summaries that add up

The counts of a summary come from the chains that were reported, from the snapshot and from the reasons
that the classifier knows.  They agree (`Analysis.addsUp_ledgerOf`), since every chain starts at an
interesting node and meets no other, so that a node is at the end of a chain only if a chain starts
there (`Analysis.exists_reported_iff`).
-/

namespace CallAudit

namespace Analysis

variable {options : AnalysisOptions} {program : Program} {facts : Facts} {c : Classifier}
  {p : Prepared} {es es' : List Entry} {i : Nat}

/-- The destinations that the search from a number finds. -/
def found (options : AnalysisOptions) (program : Program) (facts : Facts) (s : Snapshot) (i : Nat) :
    List Nat :=
  (search s.callers (constraints options program facts s) i).destinations

/-- A summary whose numbers agree with one another, with the reasons that are known and with what the
searches found. -/
structure AddsUp (options : AnalysisOptions) (program : Program) (facts : Facts) (c : Classifier)
    (s : Snapshot) (t : Summary) : Prop where
  categories : Orderly t.chainsPerCategory
  sum_categories : (t.chainsPerCategory.map Count.count).sum = t.chains
  reasons : Orderly t.chainsPerReason
  sum_reasons : (t.chainsPerReason.map Count.count).sum = t.chains
  known_reasons : (t.chainsPerReason.map Count.name).Perm c.knownReasons
  methods : Orderly t.methodsPerReason
  sum_methods : (t.methodsPerReason.map Count.count).sum = t.interestingMethods
  known_methods : (t.methodsPerReason.map Count.name).Perm c.knownReasons
  chains : t.chains = (s.interesting.map fun i => (found options program facts s i).length).sum
  unreported : t.unreported =
    (s.interesting.filter fun i => (found options program facts s i).isEmpty).filterMap fun i =>
      (s.node? i).map program.display
  interesting : t.unreported.length +
    (s.interesting.filter fun i => !(found options program facts s i).isEmpty).length =
      t.interestingMethods

/-! ## Where chains start and end -/

theorem results_eq (hp : p.Judged c program) : results options program facts p.snapshot =
    p.snapshot.interesting.map
      (search p.snapshot.callers (constraints options program facts p.snapshot)) := by
  have hsize : p.snapshot.callers.size = p.snapshot.size :=
    hp.size_callers.trans hp.size_eq.symm
  unfold results searchAll
  rw [hsize]
  rfl

theorem length_reported (hp : p.Judged c program)
    (hes : reported options program facts p = .ok es) : es.length =
      (p.snapshot.interesting.map fun i =>
        (found options program facts p.snapshot i).length).sum := by
  have hlength := congrArg List.length
    (map_of_mapM_ok (g := fun _ => ()) (k := fun _ => ()) (fun _ _ _ => rfl) hes)
  rw [List.length_map, List.length_map, Report.findings, List.length_flatMap, results_eq hp,
    List.map_map] at hlength
  rw [hlength]
  congr 1
  apply List.map_congr_left
  intro i _
  exact List.length_map _

/-- An interesting node at which a chain ends is the one that the chain starts from. -/
theorem Routed.source_of_end {e : Entry} {path : List Nat}
    (h : Routed options program facts p e path) (hi : p.snapshot.isInteresting i = true)
    (hend : i = e.source ∨ i = e.destination) : i = e.source := by
  rcases hend with hsource | rfl
  · exact hsource
  rcases h.unblocked with hself | ⟨-, hblocks⟩
  · exact hself
  · -- the search does not enter other interesting nodes
    have hsource : (constraints options program facts p.snapshot).isSource e.destination = true := hi
    rw [Constraints.blocks_eq_false_iff] at hblocks
    exact absurd hsource (by simp [hblocks.2 rfl])

/-- An interesting node is an end of some chain exactly if the search from it found something. -/
theorem exists_reported_iff (hp : p.Judged c program)
    (hes : reported options program facts p = .ok es) (hi : i ∈ p.snapshot.interesting) :
    (∃ e ∈ es, i = e.source ∨ i = e.destination) ↔
      found options program facts p.snapshot i ≠ [] := by
  obtain ⟨hlt, hinteresting⟩ := Snapshot.mem_indices.mp hi
  constructor
  · rintro ⟨e, he, hend⟩
    obtain ⟨path, hpath⟩ := reported_route hp hes he
    obtain ⟨r, hr, hsource, hd, -⟩ := mem_reported hes he
    obtain ⟨j, -, -, rfl⟩ := mem_results.mp hr
    obtain rfl : i = j := (hpath.source_of_end hinteresting hend).trans (hsource.trans source_search)
    exact List.ne_nil_of_mem hd
  · intro hfound
    obtain ⟨d, hd⟩ := List.exists_mem_of_ne_nil _ hfound
    -- what was found is entered, under the number the search started from
    have hsources : es.map Entry.source =
        (Report.findings (results options program facts p.snapshot)).map (·.1.source) :=
      map_of_mapM_ok (fun _ _ h => (Report.entry_ok h).2.1) hes
    have hmem : i ∈ es.map Entry.source := by
      rw [hsources, List.mem_map]
      refine ⟨(search p.snapshot.callers (constraints options program facts p.snapshot) i, d),
        Report.mem_findings.mpr ⟨?_, hd⟩, source_search⟩
      rw [results_eq hp]
      exact List.mem_map_of_mem hi
    obtain ⟨e, he, hsource⟩ := List.mem_map.mp hmem
    exact ⟨e, he, Or.inl hsource.symm⟩

/-! ## Reasons -/

theorem length_filterMap_of_known {α : Type} {f : α → Option Reason} {xs : List α}
    {known : List Reason} (h : ∀ x ∈ xs, ∃ reason ∈ known, f x = some reason) :
    (xs.filterMap f).length = xs.length ∧ ∀ reason ∈ xs.filterMap f, reason ∈ known := by
  constructor
  · rw [List.filterMap_length_eq_length]
    intro x hx
    obtain ⟨reason, -, hreason⟩ := h x hx
    rw [hreason]
    rfl
  · intro reason hmem
    obtain ⟨x, hx, hreason⟩ := List.mem_filterMap.mp hmem
    obtain ⟨reason', hknown, hreason'⟩ := h x hx
    rwa [Option.some.inj (hreason.symm.trans hreason')]

/-- The reasons of the chains, each of which is known. -/
theorem reasons_reported (hp : p.Judged c program) (hc : c.Complete)
    (hes : reported options program facts p = .ok es) (hperm : es.Perm es')
    (rules : List CategoryRule) :
    ((es'.map (Note.ofEntry program rules)).filterMap Note.reason).length = es'.length ∧
      ∀ reason ∈ (es'.map (Note.ofEntry program rules)).filterMap Note.reason,
        reason ∈ c.knownReasons := by
  rw [List.filterMap_map]
  refine length_filterMap_of_known fun e he => ?_
  obtain ⟨path, hpath⟩ := reported_route hp hes (hperm.mem_iff.mpr he)
  obtain ⟨m, reason, -, hreason, hverdict⟩ := hp.exists_reason hpath.interesting
  exact ⟨reason, hc.known program m reason hreason, hpath.reason.trans hverdict⟩

/-- The reasons of the interesting nodes, each of which is known. -/
theorem reasons_interesting (hp : p.Judged c program) (hc : c.Complete) :
    (p.snapshot.interesting.filterMap fun i => (p.snapshot.verdict i).reason).length =
        p.snapshot.interesting.length ∧
      ∀ reason ∈ p.snapshot.interesting.filterMap fun i => (p.snapshot.verdict i).reason,
        reason ∈ c.knownReasons := by
  refine length_filterMap_of_known fun i hi => ?_
  obtain ⟨m, reason, -, hreason, hverdict⟩ := hp.exists_reason (Snapshot.mem_indices.mp hi).2
  exact ⟨reason, hc.known program m reason hreason, hverdict⟩

/-! ## The sums -/

/-- The nodes that are left unreported are those from which the search found nothing. -/
theorem unreported_filter (hp : p.Judged c program)
    (hes : reported options program facts p = .ok es) (hperm : es.Perm es') :
    (p.snapshot.interesting.filter fun i => !(ledgerOf options program p es').isReported i) =
      p.snapshot.interesting.filter fun i =>
        (found options program facts p.snapshot i).isEmpty := by
  apply List.filter_congr
  intro i hi
  have hends := exists_reported_iff hp hes hi
  have hreported : (ledgerOf options program p es').isReported i = true ↔
      found options program facts p.snapshot i ≠ [] := by
    rw [isReported_ledgerOf, and_iff_right (Snapshot.mem_indices.mp hi).1, ← hends]
    simp only [hperm.mem_iff]
  rw [Bool.eq_iff_iff, Bool.not_eq_true', ← Bool.not_eq_true, hreported, not_not,
    List.isEmpty_iff]

theorem length_filterMap_display (hp : p.Judged c program) {is : List Nat}
    (his : ∀ i ∈ is, i ∈ p.snapshot.interesting) :
    (is.filterMap fun i => (p.snapshot.node? i).map program.display).length = is.length := by
  rw [List.filterMap_length_eq_length]
  intro i hi
  have hlt := (Snapshot.mem_indices.mp (his i hi)).1
  rw [hp.size_eq] at hlt
  rw [hp.node?_eq, List.getElem?_eq_getElem hlt]
  rfl

/-- A summary of the chains that were reported adds up, in whatever order they were entered. -/
theorem addsUp_ledgerOf (hp : p.Judged c program) (hc : c.Complete)
    (hes : reported options program facts p = .ok es) (hperm : es.Perm es') :
    AddsUp options program facts c p.snapshot
      ((ledgerOf options program p es').summarize program p.snapshot c.knownReasons) := by
  have hchains := @chainCount_ledgerOf options program p es'
  obtain ⟨hlength, hknown⟩ := reasons_reported hp hc hes hperm options.categoryRules
  obtain ⟨hlength', hknown'⟩ := reasons_interesting hp hc
  have hunreported := unreported_filter hp hes hperm
  -- each table tallies a list of names, and what it adds up to is the length of the list
  constructor
  case categories => exact Ledger.tallies_perCategory.toOrderly
  case sum_categories =>
    show _ = (ledgerOf options program p es').chainCount
    refine Ledger.tallies_perCategory.sum_eq.trans ?_
    rw [hchains, List.length_map, List.length_map]
  case reasons => exact (Ledger.tallies_perReason hc.nodup).toOrderly
  case sum_reasons =>
    show _ = (ledgerOf options program p es').chainCount
    rw [hchains, ← hlength]
    exact (Ledger.tallies_perReason hc.nodup).sum_eq
  case known_reasons => exact (Ledger.tallies_perReason hc.nodup).perm_known hc.nodup hknown
  case methods => exact (Ledger.tallies_methodsPerReason hc.nodup).toOrderly
  case sum_methods => exact (Ledger.tallies_methodsPerReason hc.nodup).sum_eq.trans hlength'
  case known_methods =>
    exact (Ledger.tallies_methodsPerReason hc.nodup).perm_known hc.nodup hknown'
  case chains =>
    show (ledgerOf options program p es').chainCount = _
    rw [hchains, ← hperm.length_eq]
    exact length_reported hp hes
  case unreported =>
    show (p.snapshot.interesting.filter _).filterMap _ = _
    rw [hunreported]
  case interesting =>
    show ((p.snapshot.interesting.filter _).filterMap _).length + _ = _
    rw [hunreported, length_filterMap_display hp fun i hi => (List.mem_filter.mp hi).1]
    exact (List.length_eq_length_filter_add _).symm

end Analysis

/-- With a classifier by rules or by lists the summary of a run that succeeds adds up, and so does that
of a report to which the results came in any other order. -/
theorem summary_adds_up {options : AnalysisOptions} {program : Program} {facts : Facts}
    {c : Classifier} (hc : (∃ rules : RuleSet, c = rules.classifier) ∨
      ∃ listing : Listing, c = listing.classifier) :
    (∀ sink a sink', Analysis.run options program facts c sink = (.ok a, sink') →
      ∃ p, Prepared.of c program facts = .ok p ∧
        Analysis.AddsUp options program facts c p.snapshot a.summary) ∧
    ∀ p (rs : List SearchResult) ledger w w', Prepared.of c program facts = .ok p →
      rs.Perm (Analysis.results options program facts p.snapshot) →
      Report.run (Analysis.basis program p) options.categoryRules (rs.map .result ++ [.done]) none
        (Ledger.empty p.snapshot.size options.grouping) w = (.ok ledger, w') →
      Analysis.AddsUp options program facts c p.snapshot
        (ledger.summarize program p.snapshot c.knownReasons) := by
  have hcomplete : c.Complete := by
    rcases hc with ⟨rules, rfl⟩ | ⟨listing, rfl⟩
    · exact rules.complete
    · exact listing.complete
  constructor
  · intro sink a sink' hrun
    obtain ⟨p, es, hp, hes, -, hsummary, -⟩ := Analysis.run_ok hrun
    obtain ⟨u, -, hu, rfl⟩ := Prepared.of_ok hp
    refine ⟨u.prune, hp, ?_⟩
    rw [hsummary]
    exact Analysis.addsUp_ledgerOf hu.prune hcomplete hes (.refl es)
  · intro p rs ledger w w' hp hrs hrun
    obtain ⟨u, -, hu, rfl⟩ := Prepared.of_ok hp
    obtain ⟨es, ledger₁, w₁, henters, hgroups, -⟩ := Report.run_ok hrun
    have hworded := henters.worded
    rw [Analysis.results_messages] at hworded
    -- the results came in another order, and so did the chains
    obtain ⟨es₀, hes₀, hperm⟩ := Report.entries_perm hrs hworded
    have hledger : ledger₁ = Analysis.ledgerOf options program u.prune es := henters.entered
    rw [Analysis.summarize_congr hgroups, hledger]
    exact Analysis.addsUp_ledgerOf hu.prune hcomplete hes₀ hperm.symm

/-! ## A chain that one method keeps from another -/

/-- Calls from each of four methods to the next. -/
def Facts.fourInLine : Facts := { directCalls := [(0, 1), (1, 2), (2, 3)] }

/-- The first of four methods is an entry point, the second and the last are interesting. -/
def Listing.fourInLine : Listing where
  entries := [0]
  interesting := [(1, "AssemblyLoad"), (3, "Invoke")]

/-- The one chain starts from the second method, and none can pass it: the last method is left
unreported, and the reason that it has is listed with a zero. -/
theorem summary_adds_up_four_in_line :
    ∃ a sink' p, Analysis.run {} {} .fourInLine Listing.fourInLine.classifier {} = (.ok a, sink') ∧
      a.summary.chainsPerReason = [⟨"AssemblyLoad", 1⟩, ⟨"Invoke", 0⟩] ∧
      a.summary.unreported.length = 1 ∧ a.summary.interestingMethods = 2 ∧
      Prepared.of Listing.fourInLine.classifier {} .fourInLine = .ok p ∧
      Analysis.AddsUp {} {} .fourInLine Listing.fourInLine.classifier p.snapshot a.summary := by
  have hsummary : (Analysis.run {} {} .fourInLine Listing.fourInLine.classifier {}).1.toOption.map
      (fun a => (a.summary.chainsPerReason, a.summary.unreported.length,
        a.summary.interestingMethods)) =
      some ([⟨"AssemblyLoad", 1⟩, ⟨"Invoke", 0⟩], 1, 2) := by cbv
  generalize hrun : Analysis.run {} {} .fourInLine Listing.fourInLine.classifier {} = outcome
    at hsummary
  obtain ⟨result, sink'⟩ := outcome
  cases result with
  | error e => exact absurd hsummary (by simp [Except.toOption])
  | ok a =>
    obtain ⟨hreasons, hrest⟩ := Prod.mk.inj (Option.some.inj hsummary)
    obtain ⟨hunreported, hinteresting⟩ := Prod.mk.inj hrest
    obtain ⟨p, hp, hadds⟩ := (summary_adds_up (Or.inr ⟨.fourInLine, rfl⟩)).1 {} a sink' hrun
    exact ⟨a, sink', p, rfl, hreasons, hunreported, hinteresting, hp, hadds⟩

end CallAudit

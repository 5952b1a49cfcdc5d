import CallAudit.Proofs.Report.Delivery

/-!
# Runs that end well

Once its graph is prepared a run ends well, unless its sink fails (`Analysis.exists_run`).  In whatever
order results are delivered, what the analysis says is a matter of the chains that are reported
(`Analysis.Ends.summary_eq`), and a method is left unreported if it is at neither end of any of them
(`Analysis.isReported_ledgerOf`).
-/

namespace CallAudit

/-- An analysis that ended well, in whatever order its results were delivered, and the chains that it
reported. -/
def Analysis.Ends (options : AnalysisOptions) (program : Program) (facts : Facts) (c : Classifier)
    (sink : Sink) (a : Analysis) (es : List Entry) : Prop :=
  ∃ p s recorded ledger w, Prepared.of c program facts = .ok p ∧
    Delivers options program facts p sink s ∧ s.reporter = .ended recorded (.ok ledger, w) ∧
    Report.entries (basis program p) s.handled = .ok es ∧
    a = { summary := ledger.summarize program p.snapshot c.knownReasons, stats := p.stats }

namespace Analysis

variable {options : AnalysisOptions} {program : Program} {facts : Facts} {c : Classifier}
  {p : Prepared} {sink : Sink} {a : Analysis} {es : List Entry}

theorem isReported_ledgerOf {i : Nat} : (ledgerOf options program p es).isReported i = true ↔
    i < p.snapshot.size ∧ ∃ e ∈ es, i = e.source ∨ i = e.destination := by
  have hsize : (Ledger.empty p.snapshot.size options.grouping).reported.size = p.snapshot.size :=
    Array.size_replicate
  rw [ledgerOf, Ledger.isReported_enterAll, Ledger.isReported_empty, hsize,
    or_iff_right Bool.false_ne_true]

/-- Delivery settles the order of the chains that are reported, and nothing else. -/
theorem Ends.summary_eq (h : Ends options program facts c sink a es)
    (hp : Prepared.of c program facts = .ok p) (hjudged : p.Judged c program)
    (hsink : sink.capacity = none) :
    a.stats = p.stats ∧
      a.summary = (ledgerOf options program p es).summarize program p.snapshot c.knownReasons ∧
      ∃ es₀, reported options program facts p = .ok es₀ ∧ es₀.Perm es := by
  obtain ⟨p, s, recorded, ledger, w, hp', hs, hended, hes, rfl⟩ := h
  obtain rfl := Except.ok.inj (hp.symm.trans hp')
  obtain ⟨hall, -, ⟨ledger', hledger', hgroups⟩, es', hes', rfl⟩ := hs.ended hjudged hsink hended
  obtain rfl := Except.ok.inj hledger'
  obtain rfl := Except.ok.inj (hes.symm.trans hes')
  obtain ⟨es₀, hes₀, hperm⟩ := Report.entries_perm hall hes
  exact ⟨rfl, summarize_congr hgroups, es₀, hes₀, hperm.symm⟩

/-- Once the graph is prepared nothing but the sink can fail. -/
theorem exists_run (options : AnalysisOptions) (hp : Prepared.of c program facts = .ok p)
    (hjudged : p.Judged c program) (hsink : sink.capacity = none) :
    ∃ a es, (run options program facts c sink).1 = .ok a ∧
      Ends options program facts c sink a es := by
  obtain ⟨s, recorded, outcome, hs, hhandled, hended⟩ :=
    @exists_delivers options program facts c p sink _ hjudged hsink (.refl _)
  obtain ⟨-, hrun, ⟨ledger, hledger, -⟩, es, hes, -⟩ := hs.ended hjudged hsink hended
  obtain ⟨result, w⟩ := outcome
  obtain rfl : result = .ok ledger := hledger
  refine ⟨_, es, ?_, p, s, recorded, ledger, w, hp, hs, hended, hes, rfl⟩
  rw [hhandled] at hrun
  unfold basis at hrun
  unfold run
  rw [hp]
  dsimp only
  unfold runPrepared
  dsimp only
  rw [hrun]

/-- A report to which the results came in some order has entered the chains that the search found, and
its summary is drawn up from them. -/
theorem exists_reported_of_run {rs : List SearchResult} {ledger : Ledger} {w w' : Writer}
    (hrs : rs.Perm (results options program facts p.snapshot))
    (hrun : Report.run (basis program p) options.categoryRules (rs.map .result ++ [.done]) none
      (Ledger.empty p.snapshot.size options.grouping) w = (.ok ledger, w')) :
    ∃ es₀ es, reported options program facts p = .ok es₀ ∧
      Report.entries (basis program p) rs = .ok es ∧ es₀.Perm es ∧
      ∀ known, ledger.summarize program p.snapshot known =
        (ledgerOf options program p es).summarize program p.snapshot known := by
  obtain ⟨es, ledger₁, w₁, henters, hgroups, -⟩ := Report.run_ok hrun
  have hworded := henters.worded
  rw [results_messages] at hworded
  obtain ⟨es₀, hes₀, hperm⟩ := Report.entries_perm hrs hworded
  have hledger : ledger₁ = ledgerOf options program p es := henters.entered
  refine ⟨es₀, es, hes₀, hworded, hperm.symm, fun known => ?_⟩
  rw [summarize_congr hgroups, hledger]

/-- Whether a number is interesting and no chain starts from or ends at it. -/
def isUnreported (options : AnalysisOptions) (program : Program) (p : Prepared) (es : List Entry)
    (i : Nat) : Bool :=
  !(ledgerOf options program p es).isReported i && p.snapshot.isInteresting i

theorem unreported_eq {known : List Reason} :
    ((ledgerOf options program p es).summarize program p.snapshot known).unreported =
      (p.snapshot.indices (isUnreported options program p es)).filterMap fun i =>
        (p.snapshot.node? i).map program.display := by
  show (p.snapshot.interesting.filter _).filterMap _ = _
  rw [Snapshot.interesting, Snapshot.indices, List.filter_filter]
  rfl

end Analysis

end CallAudit

import CallAudit.Analysis.Run
import CallAudit.Proofs.Report.Entries

/-!
# The outcome of an analysis

An analysis that succeeds has reported the chains of `Analysis.reported`, each of them once and in this
order: they are what its summary counts and, where chains are neither grouped nor in JSON, what its
output says (`Analysis.run_ok`).
-/

namespace CallAudit

/-! ## Writing plain text -/

theorem Sink.write_ok {s s' : Sink} {piece : String} (h : s.write piece = some s') :
    s'.written = s.written ++ piece := by
  unfold Sink.write at h
  split at h
  · rw [← Option.some.inj h]
  · exact absurd h (by simp)

/-- A chain as it stands in a plain text: its lines and an empty one. -/
def Chain.paragraph (c : Chain) : String := c.text ++ "\n"

theorem Writer.perform_piece_ok {w w' : Writer} {text : String} {strokes : List Stroke}
    (h : w.perform (.piece text :: strokes) = (.ok (), w')) :
    ∃ w₁ : Writer, w₁.sink.written = w.sink.written ++ text ∧ w₁.json = w.json ∧
      w₁.grouping = w.grouping ∧ w₁.perform strokes = (.ok (), w') := by
  rw [perform] at h
  split at h
  · next sink hwrite => exact ⟨{ w with sink }, Sink.write_ok hwrite, rfl, rfl, h⟩
  · cases h

theorem Writer.writeChain_plain {w w' : Writer} {c : Chain} (hjson : w.json = false)
    (h : w.writeChain c = (.ok (), w')) :
    w'.sink.written = w.sink.written ++ c.paragraph ∧ w'.json = w.json ∧
      w'.grouping = w.grouping := by
  -- a plain text has no opening, so that its first chain is written like the others
  have hbegun : ∃ w₁ : Writer, w₁.sink = w.sink ∧ w₁.json = w.json ∧ w₁.grouping = w.grouping ∧
      w₁.perform [.piece c.text, .piece "\n"] = (.ok (), w') := by
    rw [writeChain, opening, item, hjson] at h
    cases hb : w.hasBegun with
    | true =>
      rw [hb] at h
      exact ⟨w, rfl, rfl, rfl, h⟩
    | false =>
      rw [hb, isStream, hjson] at h
      exact ⟨{ w with hasBegun := true }, rfl, rfl, rfl, h⟩
  obtain ⟨w₁, hsink, hjson₁, hgrouping₁, h⟩ := hbegun
  obtain ⟨w₂, hw₂, hjson₂, hgrouping₂, h⟩ := perform_piece_ok h
  obtain ⟨w₃, hw₃, hjson₃, hgrouping₃, h⟩ := perform_piece_ok h
  obtain ⟨-, rfl⟩ := Prod.mk.inj h
  refine ⟨?_, by rw [hjson₃, hjson₂, hjson₁], by rw [hgrouping₃, hgrouping₂, hgrouping₁]⟩
  rw [hw₃, hw₂, hsink, Chain.paragraph, String.append_assoc]

/-- Plain chains that are not grouped are written as they come, paragraph by paragraph. -/
theorem Report.writeAll_plain {cs : List Chain} {w w' : Writer} (hjson : w.json = false)
    (hgrouping : w.grouping = .none) (h : writeAll cs w = (.ok (), w')) :
    w'.sink.written = cs.foldl (fun text c => text ++ c.paragraph) w.sink.written ∧
      w'.json = false ∧ w'.grouping = .none := by
  induction cs generalizing w with
  | nil =>
    obtain ⟨-, rfl⟩ := Prod.mk.inj h
    exact ⟨rfl, hjson, hgrouping⟩
  | cons c cs ih =>
    rw [writeAll, writeNow, hgrouping] at h
    split at h
    · cases h
    next w₁ hwrite =>
      obtain ⟨hwritten, hjson₁, hgrouping₁⟩ := Writer.writeChain_plain hjson hwrite
      have hrest := ih (hjson₁.trans hjson) (hgrouping₁.trans hgrouping) h
      rw [hwritten] at hrest
      exact hrest

namespace Analysis

variable {options : AnalysisOptions} {program : Program} {facts : Facts} {c : Classifier}
  {sink : Sink} {p : Prepared} {a : Analysis}

/-- What the chains of a prepared graph are put into words by. -/
def basis (program : Program) (p : Prepared) : Basis :=
  { program, graph := p.graph, snapshot := p.snapshot }

/-- The chains of a prepared graph, in the order in which they are reported. -/
def reported (options : AnalysisOptions) (program : Program) (facts : Facts) (p : Prepared) :
    Except AuditError (List Entry) :=
  Report.entries (basis program p) (results options program facts p.snapshot)

/-- The ledger of a report with the given entries. -/
def ledgerOf (options : AnalysisOptions) (program : Program) (p : Prepared) (es : List Entry) :
    Ledger :=
  es.foldl (Ledger.enter program options.categoryRules)
    (Ledger.empty p.snapshot.size options.grouping)

theorem chainCount_ledgerOf (es : List Entry) :
    (ledgerOf options program p es).chainCount = es.length := by
  rw [ledgerOf, Ledger.chainCount_enterAll]
  exact Nat.zero_add _

theorem results_messages (rs : List SearchResult) :
    Message.results (rs.map Message.result ++ [.done]) = rs := by
  induction rs with
  | nil => rfl
  | cons r rs ih => rw [List.map_cons, List.cons_append, Message.results, ih]

/-- The summary says nothing about the groups, so that it matters not whether they were taken out. -/
theorem summarize_congr {l l' : Ledger} {s : Snapshot} {known : List Reason}
    (h : { l' with groups := [] } = { l with groups := [] }) :
    l'.summarize program s known = l.summarize program s known := by
  have hl' : l'.summarize program s known =
      { l' with groups := [] }.summarize program s known := rfl
  rw [hl', h]
  rfl

theorem runPrepared_ok {sink' : Sink}
    (h : runPrepared options program facts c p sink = (.ok a, sink')) :
    ∃ es, reported options program facts p = .ok es ∧ a.stats = p.stats ∧
      a.summary = (ledgerOf options program p es).summarize program p.snapshot c.knownReasons ∧
      (options.json = false → options.grouping = .none → sink'.written =
        (es.map Entry.chain).foldl (fun text ch => text ++ ch.paragraph) sink.written) := by
  unfold runPrepared at h
  dsimp only at h
  split at h
  · cases h
  next ledger w hrun =>
    obtain ⟨ha, rfl⟩ := Prod.mk.inj h
    obtain ⟨es, ledger₁, w₁, henters, hgroups, hfinish⟩ := Report.run_ok hrun
    rw [results_messages] at henters
    have hledger : ledger₁ = ledgerOf options program p es := henters.entered
    rw [← Except.ok.inj ha]
    refine ⟨es, henters.worded, rfl, ?_, ?_⟩
    · rw [summarize_congr hgroups, hledger]
    · intro hjson hgrouping
      obtain ⟨hwritten, hjson₁, hgrouping₁⟩ :=
        Report.writeAll_plain hjson hgrouping henters.written
      -- nothing is left to write at the end
      rw [Report.finish, Report.writeGathered_ungrouped hgrouping₁] at hfinish
      have hnothing : w₁.finish = (.ok (), w₁) := by
        rw [Writer.finish, Writer.closing, Writer.isStream, hjson₁]
        rfl
      dsimp only at hfinish
      rw [hnothing] at hfinish
      obtain ⟨-, rfl⟩ := Prod.mk.inj hfinish
      exact hwritten

/-- An analysis that succeeds has prepared its graph and reported its chains. -/
theorem run_ok {sink' : Sink} (h : run options program facts c sink = (.ok a, sink')) :
    ∃ p es, Prepared.of c program facts = .ok p ∧ reported options program facts p = .ok es ∧
      a.stats = p.stats ∧
      a.summary = (ledgerOf options program p es).summarize program p.snapshot c.knownReasons ∧
      (options.json = false → options.grouping = .none → sink'.written =
        (es.map Entry.chain).foldl (fun text ch => text ++ ch.paragraph) sink.written) := by
  unfold run at h
  split at h
  · cases h
  next p hp =>
    obtain ⟨es, hes⟩ := runPrepared_ok h
    exact ⟨p, es, hp, hes⟩

/-- Every chain that is reported is the chain of some result to one of its destinations. -/
theorem mem_reported {es : List Entry} {e : Entry}
    (hes : reported options program facts p = .ok es) (he : e ∈ es) :
    ∃ r ∈ results options program facts p.snapshot, e.source = r.source ∧
      e.destination ∈ r.destinations ∧ (basis program p).chain r e.destination = .ok e.chain := by
  obtain ⟨finding, hfinding, hentry⟩ := (mem_mapM_ok_iff hes).mp he
  obtain ⟨hr, hd⟩ := Report.mem_findings.mp hfinding
  obtain ⟨hchain, hsource, hdestination⟩ := Report.entry_ok hentry
  rw [← hdestination] at hd hchain
  exact ⟨finding.1, hr, hsource, hd, hchain⟩

end Analysis

end CallAudit

import CallAudit.Proofs.MapM
import CallAudit.Report.Run

/-!
# What a report reports

A report that succeeds has put every destination of every result into words, entered every chain in
the ledger, in order, and written it (`run_ok`).  So what the ledger says at the end is a matter of the
entries alone.
-/

namespace CallAudit

/-- A chain with the numbers that it leads from and to. -/
structure Entry where
  chain : Chain
  source : Nat
  destination : Nat

/-- Enters a chain under its category. -/
def Ledger.enter (program : Program) (rules : List CategoryRule) (l : Ledger) (e : Entry) : Ledger :=
  l.record program e.chain (Category.ofChain program rules e.chain) e.source e.destination

namespace Report

variable {b : Basis} {rules : List CategoryRule} {result : SearchResult} {ledger ledger' : Ledger}
  {w w' : Writer}

/-- The destinations that results name, each with the result that names it. -/
def findings (results : List SearchResult) : List (SearchResult × Nat) :=
  results.flatMap fun r => r.destinations.map fun destination => (r, destination)

/-- Puts a finding into words. -/
def entry (b : Basis) (finding : SearchResult × Nat) : Except AuditError Entry :=
  (b.chain finding.1 finding.2).map fun chain => ⟨chain, finding.1.source, finding.2⟩

/-- What is to be entered for a list of results. -/
def entries (b : Basis) (results : List SearchResult) : Except AuditError (List Entry) :=
  (findings results).mapM (entry b)

/-- Writes chains one after the other, unless they wait for their groups to be complete. -/
def writeAll : List Chain → Writer → Except AuditError Unit × Writer
  | [], w => (.ok (), w)
  | c :: cs, w =>
      match writeNow w c with
      | (.error e, w) => (.error e, w)
      | (.ok (), w) => writeAll cs w

theorem writeAll_append {cs cs' : List Chain} {w₁ w₂ : Writer} (h : writeAll cs w = (.ok (), w₁))
    (h' : writeAll cs' w₁ = (.ok (), w₂)) : writeAll (cs ++ cs') w = (.ok (), w₂) := by
  induction cs generalizing w with
  | nil =>
    obtain ⟨-, rfl⟩ := Prod.mk.inj h
    exact h'
  | cons c cs ih =>
    rw [writeAll] at h
    rw [List.cons_append, writeAll]
    split at h
    · cases h
    · exact ih h

/-- What a step of the report comes to, for some of what is to be entered. -/
structure Enters (b : Basis) (rules : List CategoryRule) (found : List (SearchResult × Nat))
    (es : List Entry) (ledger : Ledger) (w : Writer) (ledger' : Ledger) (w' : Writer) : Prop where
  worded : found.mapM (entry b) = .ok es
  entered : ledger' = es.foldl (Ledger.enter b.program rules) ledger
  written : writeAll (es.map Entry.chain) w = (.ok (), w')

theorem Enters.append {found found' : List (SearchResult × Nat)} {es es' : List Entry}
    {ledger₁ : Ledger} {w₁ : Writer} (h : Enters b rules found es ledger w ledger₁ w₁)
    (h' : Enters b rules found' es' ledger₁ w₁ ledger' w') :
    Enters b rules (found ++ found') (es ++ es') ledger w ledger' w' where
  worded := by
    rw [List.mapM_append, h.worded, h'.worded]
    rfl
  entered := by rw [List.foldl_append, ← h.entered, h'.entered]
  written := by
    rw [List.map_append]
    exact writeAll_append h.written h'.written

theorem chains_ok {destinations : List Nat}
    (h : chains b rules result destinations ledger w = (.ok ledger', w')) :
    ∃ es, Enters b rules (destinations.map fun d => (result, d)) es ledger w ledger' w' := by
  induction destinations generalizing ledger w with
  | nil =>
    obtain ⟨hledger, rfl⟩ := Prod.mk.inj h
    exact ⟨[], rfl, (Except.ok.inj hledger).symm, rfl⟩
  | cons d destinations ih =>
    rw [chains] at h
    split at h
    · cases h
    next chain hchain =>
      dsimp only at h
      split at h
      · cases h
      next w₁ hwrite =>
        obtain ⟨es, hes⟩ := ih h
        -- the first chain by itself is entered as well, and the others are appended to it
        have hentry : entry b (result, d) = .ok ⟨chain, result.source, d⟩ := by
          rw [entry, hchain]
          rfl
        have hfirst : Enters b rules [(result, d)] [⟨chain, result.source, d⟩] ledger w
            (ledger.enter b.program rules ⟨chain, result.source, d⟩) w₁ := by
          refine ⟨?_, rfl, ?_⟩
          · rw [List.mapM_cons, hentry]
            rfl
          · rw [List.map_singleton, writeAll, hwrite]
            rfl
        exact ⟨_, hfirst.append hes⟩

theorem results_ok {rs : List SearchResult}
    (h : results b rules rs ledger w = (.ok ledger', w')) :
    ∃ es, Enters b rules (findings rs) es ledger w ledger' w' := by
  induction rs generalizing ledger w with
  | nil =>
    obtain ⟨hledger, rfl⟩ := Prod.mk.inj h
    exact ⟨[], rfl, (Except.ok.inj hledger).symm, rfl⟩
  | cons r rs ih =>
    rw [results] at h
    split at h
    · cases h
    next ledger₁ w₁ hchains =>
      obtain ⟨es, hes⟩ := chains_ok hchains
      obtain ⟨es', hes'⟩ := ih h
      exact ⟨es ++ es', hes.append hes'⟩

/-! ## The end of a report -/

theorem writeGathered_ok (h : writeGathered b ledger w = (.ok ledger', w')) :
    { ledger' with groups := [] } = { ledger with groups := [] } := by
  unfold writeGathered at h
  split at h
  · obtain ⟨hledger, -⟩ := Prod.mk.inj h
    rw [Except.ok.inj hledger]
  · dsimp only at h
    split at h
    · cases h
    · obtain ⟨hledger, -⟩ := Prod.mk.inj h
      rw [← Except.ok.inj hledger]
      rfl

theorem writeGathered_ungrouped (hungrouped : w.grouping = .none) :
    writeGathered b ledger w = (.ok ledger, w) := by
  rw [writeGathered, hungrouped]
  rfl

/-- If the search did not fail, nothing but the messages makes the report what it is. -/
theorem run_none {messages : List Message} :
    run b rules messages none ledger w = consume b rules messages ledger w := by
  unfold run
  generalize consume b rules messages ledger w = outcome
  obtain ⟨result, w₁⟩ := outcome
  cases result with
  | ok l => rfl
  | error err => cases err <;> rfl

/-- A report that succeeds enters every chain; up to the groups, which are taken out to be written, its
ledger is what the entries make of the one it started from. -/
theorem run_ok {messages : List Message}
    (h : run b rules messages none ledger w = (.ok ledger', w')) :
    ∃ es ledger₁ w₁, Enters b rules (findings (Message.results messages)) es ledger w ledger₁ w₁ ∧
      { ledger' with groups := [] } = { ledger₁ with groups := [] } ∧
      finish b ledger₁ w₁ = (.ok ledger', w') := by
  have hconsume : consume b rules messages ledger w = (.ok ledger', w') := run_none.symm.trans h
  unfold consume at hconsume
  split at hconsume
  · cases hconsume
  next ledger₁ w₁ hresults =>
    obtain ⟨es, hes⟩ := results_ok hresults
    refine ⟨es, ledger₁, w₁, hes, ?_, hconsume⟩
    unfold finish at hconsume
    split at hconsume
    · cases hconsume
    next ledger₂ w₂ hgathered =>
      split at hconsume
      · cases hconsume
      · obtain ⟨hledger, -⟩ := Prod.mk.inj hconsume
        rw [← Except.ok.inj hledger, writeGathered_ok hgathered]

theorem mem_findings {rs : List SearchResult} {finding : SearchResult × Nat} :
    finding ∈ findings rs ↔ finding.1 ∈ rs ∧ finding.2 ∈ finding.1.destinations := by
  obtain ⟨r, d⟩ := finding
  rw [findings, List.mem_flatMap]
  constructor
  · rintro ⟨r', hr', hd⟩
    obtain ⟨d', hd', heq⟩ := List.mem_map.mp hd
    obtain ⟨rfl, rfl⟩ := Prod.mk.inj heq
    exact ⟨hr', hd'⟩
  · rintro ⟨hr, hd⟩
    exact ⟨r, hr, List.mem_map.mpr ⟨d, hd, rfl⟩⟩

theorem entry_ok {finding : SearchResult × Nat} {e : Entry} (h : entry b finding = .ok e) :
    b.chain finding.1 finding.2 = .ok e.chain ∧ e.source = finding.1.source ∧
      e.destination = finding.2 := by
  unfold entry at h
  cases hchain : b.chain finding.1 finding.2 with
  | error err =>
    rw [hchain] at h
    exact absurd h (by simp [Except.map])
  | ok chain =>
    rw [hchain] at h
    obtain rfl := Except.ok.inj h
    exact ⟨rfl, rfl, rfl⟩

end Report

/-! ## What the entries make of a ledger -/

namespace Ledger

variable {program : Program} {rules : List CategoryRule} {l : Ledger} {es : List Entry} {i : Nat}

theorem chainCount_enterAll :
    (es.foldl (enter program rules) l).chainCount = l.chainCount + es.length := by
  induction es generalizing l with
  | nil => rfl
  | cons e es ih =>
    rw [List.foldl_cons, ih, List.length_cons]
    show l.chainCount + 1 + es.length = _
    omega

theorem size_reported_enter {e : Entry} :
    (l.enter program rules e).reported.size = l.reported.size := by
  show ((l.reported.setIfInBounds e.source true).setIfInBounds e.destination true).size = _
  rw [Array.size_setIfInBounds, Array.size_setIfInBounds]

theorem isReported_enter {e : Entry} : (l.enter program rules e).isReported i = true ↔
    l.isReported i = true ∨ i < l.reported.size ∧ (i = e.source ∨ i = e.destination) := by
  show ((l.reported.setIfInBounds e.source true).setIfInBounds e.destination true)[i]?.getD false =
    true ↔ l.reported[i]?.getD false = true ∨ _
  rw [Array.getElem?_setIfInBounds, Array.getElem?_setIfInBounds, Array.size_setIfInBounds]
  by_cases hlt : i < l.reported.size
  · by_cases hdestination : e.destination = i
    · simp [hdestination, hlt]
    · by_cases hsource : e.source = i
      · simp [hdestination, hsource, hlt]
      · simp [hdestination, hsource, Ne.symm hdestination, Ne.symm hsource]
  · have hnone : l.reported[i]? = none := Array.getElem?_eq_none (Nat.le_of_not_lt hlt)
    by_cases hdestination : e.destination = i
    · simp [hdestination, hlt]
    · by_cases hsource : e.source = i
      · simp [hdestination, hsource, hlt]
      · simp [hdestination, hsource, hlt]

theorem isReported_enterAll : (es.foldl (enter program rules) l).isReported i = true ↔
    l.isReported i = true ∨
      i < l.reported.size ∧ ∃ e ∈ es, i = e.source ∨ i = e.destination := by
  induction es generalizing l with
  | nil => simp
  | cons e es ih =>
    rw [List.foldl_cons, ih, isReported_enter, size_reported_enter, or_assoc, ← and_or_left,
      List.exists_mem_cons_iff]

theorem isReported_empty {size : Nat} {grouping : Grouping} :
    (empty size grouping).isReported i = false := by
  unfold isReported empty
  rw [Array.getElem?_replicate]
  split <;> rfl

end Ledger

end CallAudit

import CallAudit.Proofs.Analysis.Chains
import CallAudit.Proofs.Report.Writing

/-!
# Reports that succeed

What a search found can always be put into words (`Basis.exists_chain`), so a report can only fail
where its sink does.  If the sink has no limit the report succeeds, whatever order the results
come in (`Report.exists_chains`, `Report.exists_finish`).
-/

namespace CallAudit

/-! ## Chains -/

theorem Basis.chain_of_route (b : Basis) {r : SearchResult} {d : Nat} {path : List Nat}
    {nodes : List Node} (hroute : r.route d = .ok path)
    (hnodes : path.mapM b.snapshot.node? = some nodes) :
    b.chain r d = .ok {
      nodes
      reason := (b.snapshot.verdict r.source).reason
      lines := header (b.snapshot.verdict r.source).reason :: b.frames nodes } := by
  unfold chain
  rw [hroute]
  dsimp only [bind, Except.bind]
  rw [hnodes]
  rfl

/-- Whatever a search found can be put into words, if the nodes searched are those of the snapshot. -/
theorem Basis.exists_chain (b : Basis) {c : Constraints} {neighbours : Array (List Nat)}
    {source v d : Nat} (hsize : b.snapshot.size = neighbours.size) (hs : source < neighbours.size)
    (hfound : (search neighbours c source).distance? v = some d) :
    ∃ ch, b.chain (search neighbours c source) v = .ok ch := by
  rw [Search.search_eq_result] at hfound ⊢
  have ht := Search.traced_ending (c := c) hs
  obtain ⟨path, hroute, hpath⟩ := ht.exists_route hfound
  have hnode : ∀ x ∈ path, ∃ n, b.snapshot.node? x = some n := by
    intro x hx
    obtain ⟨e, -, he⟩ := hpath.near x hx
    have hlt : x < b.snapshot.nodes.size := by
      rw [← Snapshot.size, hsize, ← ht.dist_size]
      exact Search.lt_size_of_distance? he
    exact ⟨b.snapshot.nodes[x], Array.getElem?_eq_getElem hlt⟩
  obtain ⟨nodes, hnodes⟩ := exists_mapM_some hnode
  exact ⟨_, b.chain_of_route hroute hnodes⟩

/-- Every destination of a search can be put into words. -/
theorem Analysis.exists_chain {options : AnalysisOptions} {program : Program} {facts : Facts}
    {c : Classifier} {p : Prepared} {r : SearchResult} {destination : Nat}
    (hp : p.Judged c program) (hr : r ∈ results options program facts p.snapshot)
    (hd : destination ∈ r.destinations) : ∃ ch, (basis program p).chain r destination = .ok ch := by
  obtain ⟨i, hlt, -, rfl⟩ := mem_results.mp hr
  obtain ⟨⟨d, hfound⟩, -⟩ := destination_of_search hp.inRange hlt rfl hd
  exact (basis program p).exists_chain (hp.size_eq.trans hp.size_callers.symm) hlt hfound

/-! ## Writing without a limit -/

namespace Report

variable {b : Basis} {rules : List CategoryRule} {ledger : Ledger} {w : Writer}

theorem exists_writeNow (hw : w.sink.capacity = none) (c : Chain) :
    ∃ w', writeNow w c = (.ok (), w') ∧ w'.sink.capacity = none := by
  unfold writeNow
  split
  · exact ⟨_, Writer.perform_unlimited hw, Writer.capacity_afterAll.trans hw⟩
  · exact ⟨w, rfl, hw⟩

theorem exists_chains (rules : List CategoryRule) {r : SearchResult} {destinations : List Nat}
    (hall : ∀ d ∈ destinations, ∃ ch, b.chain r d = .ok ch) (hw : w.sink.capacity = none) :
    ∃ ledger' w', chains b rules r destinations ledger w = (.ok ledger', w') ∧
      w'.sink.capacity = none := by
  induction destinations generalizing ledger w with
  | nil => exact ⟨ledger, w, rfl, hw⟩
  | cons d destinations ih =>
    obtain ⟨ch, hch⟩ := hall d List.mem_cons_self
    obtain ⟨w₁, hwrite, hw₁⟩ := exists_writeNow hw ch
    rw [chains, hch]
    dsimp only
    rw [hwrite]
    exact ih (fun d' hd' => hall d' (List.mem_cons_of_mem d hd')) hw₁

theorem exists_finish (b : Basis) (ledger : Ledger) (hw : w.sink.capacity = none) :
    ∃ ledger' w', finish b ledger w = (.ok ledger', w') ∧
      { ledger' with groups := [] } = { ledger with groups := [] } := by
  have hgathered : ∃ ledger' w', writeGathered b ledger w = (.ok ledger', w') ∧
      w'.sink.capacity = none := by
    unfold writeGathered
    split
    · exact ⟨ledger, w, rfl, hw⟩
    · dsimp only
      rw [Writer.writeGroups, Writer.perform_unlimited hw]
      exact ⟨_, _, rfl, Writer.capacity_afterAll.trans hw⟩
  obtain ⟨ledger', w', hgathered, hw'⟩ := hgathered
  refine ⟨ledger', w'.afterAll w'.closing, ?_, writeGathered_ok hgathered⟩
  rw [finish, hgathered]
  dsimp only
  rw [Writer.finish, Writer.perform_unlimited hw']

/-- One more result comes after the others. -/
theorem results_concat {rs : List SearchResult} {r : SearchResult} {ledger' : Ledger} {w' : Writer}
    (h : results b rules rs ledger w = (.ok ledger', w')) :
    results b rules (rs ++ [r]) ledger w = chains b rules r r.destinations ledger' w' := by
  induction rs generalizing ledger w with
  | nil =>
    obtain ⟨hledger, rfl⟩ := Prod.mk.inj h
    obtain rfl := Except.ok.inj hledger
    rw [List.nil_append, results]
    split
    · next hchains => exact hchains.symm
    · next hchains => rw [hchains, results]
  | cons r' rs ih =>
    rw [results] at h
    rw [List.cons_append, results]
    split at h
    · cases h
    · exact ih h

end Report

end CallAudit

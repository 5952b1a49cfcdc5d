import CallAudit.Proofs.Analysis.Pruning
import CallAudit.Proofs.Program.Outermost
import CallAudit.Proofs.Report.Ends
import Mathlib.Data.Set.Card

/-!
# The lines for namespaces

A summary has a line for every outermost namespace in which chains end or methods of the snapshot are
declared, with the number of types that are hit and of types that there are
(`Analysis.namespaceLines_ledgerOf`).  A type without a name is never among those that there are, and
can still be hit.  The category of a chain is a namespace too, of which there is a line for the type
only if the walk to the outermost type finds it (`namespace_counted_iff`).
-/

namespace CallAudit

/-! ## Types of a namespace -/

namespace Program

/-- Whether a node is a method that is declared by a type of an outermost namespace. -/
def Declares (program : Program) (ns type : String) (n : Node) : Prop :=
  ∃ m row, n = .method m ∧ program.method? m = some row ∧ row.declaringType = type ∧
    program.outermostNamespace? type = some ns

/-- The types of a namespace in which chains end. -/
def typesHit (program : Program) (es : List Entry) (ns : String) : Set String :=
  {type | ∃ e ∈ es, ∃ n, e.chain.destination? = some n ∧ program.Declares ns type n}

/-- The types of a namespace that declare methods of a snapshot, as far as they have a name. -/
def typesIn (program : Program) (s : Snapshot) (ns : String) : Set String :=
  {type | type ≠ "" ∧ ∃ n ∈ s.nodes, program.Declares ns type n}

end Program

/-- The lines of a summary for the namespaces. -/
structure NamespaceLines (program : Program) (s : Snapshot) (es : List Entry)
    (lines : List NamespaceHits) : Prop where
  nodup : (lines.map NamespaceHits.namespace).Nodup
  mem_iff : ∀ ns, ns ∈ lines.map NamespaceHits.namespace ↔
    (program.typesHit es ns).Nonempty ∨ (program.typesIn s ns).Nonempty
  hitTypes : ∀ line ∈ lines, line.hitTypes = (program.typesHit es line.namespace).ncard
  totalTypes : ∀ line ∈ lines, line.totalTypes = (program.typesIn s line.namespace).ncard
  /-- The lines with hits come first, in descending order of hits, and the others follow by name. -/
  order : ∃ hit others, lines = hit ++ others ∧ (∀ line ∈ hit, 0 < line.hitTypes) ∧
    hit.Pairwise (fun a b => b.hitTypes ≤ a.hitTypes) ∧ (∀ line ∈ others, line.hitTypes = 0) ∧
    others.Pairwise (fun a b => a.namespace < b.namespace)
  /-- A line is a proper fraction, except where the type without a name is hit and no type that there
  is makes up for it. -/
  fraction : ∀ line ∈ lines, line.hitTypes ≤ line.totalTypes ∧ 1 ≤ line.totalTypes ↔
    ("" ∈ program.typesHit es line.namespace →
      ∃ type ∈ program.typesIn s line.namespace, type ∉ program.typesHit es line.namespace)

/-! ## Lines of hits and totals -/

namespace Ledger

variable {hitTypes : List (String × List String)} {totals : List (String × Nat)}
  {line : NamespaceHits}

/-- The lines with hits, before they are ordered. -/
def hitLines (hitTypes : List (String × List String)) (totals : List (String × Nat)) :
    List NamespaceHits :=
  hitTypes.map fun (ns, types) => ⟨ns, types.length, (totals.lookup ns).getD 0⟩

/-- The lines without hits, in the order of their names. -/
def otherLines (hitTypes : List (String × List String)) (totals : List (String × Nat)) :
    List NamespaceHits :=
  ((totals.filter fun (ns, _) => !(Keyed.keys hitTypes).contains ns).mergeSort
    fun a b => a.1 ≤ b.1).map fun (ns, total) => ⟨ns, 0, total⟩

theorem namespaceHits_eq (hitTypes : List (String × List String)) (totals : List (String × Nat)) :
    namespaceHits hitTypes totals =
      (hitLines hitTypes totals).mergeSort (fun a b => b.hitTypes ≤ a.hitTypes) ++
        otherLines hitTypes totals :=
  rfl

theorem names_hitLines : (hitLines hitTypes totals).map NamespaceHits.namespace =
    Keyed.keys hitTypes := by
  rw [hitLines, List.map_map]
  rfl

theorem names_otherLines_perm : ((otherLines hitTypes totals).map NamespaceHits.namespace).Perm
    ((Keyed.keys totals).filter fun ns => !(Keyed.keys hitTypes).contains ns) := by
  have hkeys : ∀ p : String → Bool, (Keyed.keys totals).filter p =
      Keyed.keys (totals.filter fun total => p total.1) := fun p => List.filter_map
  rw [otherLines, List.map_map, hkeys]
  exact (List.mergeSort_perm _ _).map Prod.fst

theorem mem_otherLines : line ∈ otherLines hitTypes totals ↔
    (line.namespace, line.totalTypes) ∈ totals ∧ line.namespace ∉ Keyed.keys hitTypes ∧
      line.hitTypes = 0 := by
  rw [otherLines, List.mem_map]
  simp only [List.mem_mergeSort, List.mem_filter, Bool.not_eq_true', List.contains_eq_mem,
    decide_eq_false_iff_not]
  constructor
  · rintro ⟨⟨ns, total⟩, ⟨htotal, hother⟩, rfl⟩
    exact ⟨htotal, hother, rfl⟩
  · rintro ⟨htotal, hother, hzero⟩
    exact ⟨_, ⟨htotal, hother⟩, by rw [← hzero]⟩

theorem names_namespaceHits_perm :
    ((namespaceHits hitTypes totals).map NamespaceHits.namespace).Perm
      (Keyed.keys hitTypes ++
        (Keyed.keys totals).filter fun ns => !(Keyed.keys hitTypes).contains ns) := by
  rw [namespaceHits_eq, List.map_append]
  refine List.Perm.append ?_ names_otherLines_perm
  rw [← @names_hitLines hitTypes totals]
  exact (List.mergeSort_perm _ _).map _

theorem mem_names_namespaceHits {ns : String} :
    ns ∈ (namespaceHits hitTypes totals).map NamespaceHits.namespace ↔
      ns ∈ Keyed.keys hitTypes ∨ ns ∈ Keyed.keys totals := by
  rw [names_namespaceHits_perm.mem_iff, List.mem_append, List.mem_filter]
  by_cases hns : ns ∈ Keyed.keys hitTypes <;> simp [hns]

theorem nodup_names_namespaceHits (hhits : (Keyed.keys hitTypes).Nodup)
    (htotals : (Keyed.keys totals).Nodup) :
    ((namespaceHits hitTypes totals).map NamespaceHits.namespace).Nodup := by
  rw [names_namespaceHits_perm.nodup_iff, List.nodup_append]
  refine ⟨hhits, htotals.filter _, ?_⟩
  -- a namespace that is hit is none of the others
  rintro ns hns _ hother rfl
  simpa [hns] using (List.mem_filter.mp hother).2

/-- A line has the numbers that stand under its namespace. -/
theorem numbers_namespaceHits (hhits : (Keyed.keys hitTypes).Nodup)
    (htotals : (Keyed.keys totals).Nodup) (h : line ∈ namespaceHits hitTypes totals) :
    line.hitTypes = ((hitTypes.lookup line.namespace).getD []).length ∧
      line.totalTypes = (totals.lookup line.namespace).getD 0 := by
  rw [namespaceHits_eq, List.mem_append, List.mem_mergeSort, hitLines, List.mem_map] at h
  -- of a namespace without hits the total stands in the entry itself and is not looked up
  rcases h with ⟨⟨ns, types⟩, hmem, rfl⟩ | hother
  · rw [(Keyed.lookup_eq_some_iff hhits).mpr hmem]
    exact ⟨rfl, rfl⟩
  · obtain ⟨htotal, hnone, hzero⟩ := mem_otherLines.mp hother
    have hlookup : hitTypes.lookup line.namespace = none := by
      rw [List.lookup_eq_none_iff]
      intro entry hentry
      exact bne_iff_ne.mpr fun heq => hnone (List.mem_map.mpr ⟨entry, hentry, heq.symm⟩)
    rw [hlookup, (Keyed.lookup_eq_some_iff htotals).mpr htotal]
    exact ⟨hzero, rfl⟩

theorem ascending_otherLines (htotals : (Keyed.keys totals).Nodup) :
    (otherLines hitTypes totals).Pairwise fun a b => a.namespace < b.namespace := by
  have hnodup : ((otherLines hitTypes totals).map NamespaceHits.namespace).Nodup :=
    names_otherLines_perm.nodup_iff.mpr (htotals.filter _)
  have hsorted : (otherLines hitTypes totals).Pairwise fun a b => a.namespace ≤ b.namespace := by
    rw [otherLines, List.pairwise_map]
    refine (List.pairwise_mergeSort ?_ ?_ _).imp fun h => of_decide_eq_true h
    · intro a b c hab hbc
      exact decide_eq_true (le_trans (of_decide_eq_true hab) (of_decide_eq_true hbc))
    · intro a b
      simpa using le_total a.1 b.1
  -- no namespace has two lines, so the order is strict
  exact (hsorted.and (List.pairwise_map.mp hnodup)).imp fun ⟨hle, hne⟩ => lt_of_le_of_ne hle hne

/-- The lines with hits come first. -/
theorem ordered_namespaceHits (hhits : ∀ entry ∈ hitTypes, entry.2 ≠ [])
    (htotals : (Keyed.keys totals).Nodup) :
    ∃ hit others, namespaceHits hitTypes totals = hit ++ others ∧
      (∀ line ∈ hit, 0 < line.hitTypes) ∧ hit.Pairwise (fun a b => b.hitTypes ≤ a.hitTypes) ∧
      (∀ line ∈ others, line.hitTypes = 0) ∧
      others.Pairwise (fun a b => a.namespace < b.namespace) := by
  refine ⟨_, _, namespaceHits_eq hitTypes totals, ?_, pairwise_mergeSort_descending _ _, ?_,
    ascending_otherLines htotals⟩
  · intro line hline
    rw [List.mem_mergeSort, hitLines, List.mem_map] at hline
    obtain ⟨entry, hentry, rfl⟩ := hline
    exact List.length_pos_of_ne_nil (hhits entry hentry)
  · intro line hline
    exact (mem_otherLines.mp hline).2.2

end Ledger

/-! ## Counting types -/

/-- A list without repetitions counts the set of its elements. -/
theorem finite_and_ncard_eq {xs : List String} {types : Set String} (hxs : xs.Nodup)
    (h : ∀ type, type ∈ xs ↔ type ∈ types) : types.Finite ∧ types.ncard = xs.length := by
  obtain rfl : types = xs.toFinset := by
    ext type
    rw [List.coe_toFinset, Set.mem_ofPred_eq, h]
  exact ⟨xs.toFinset.finite_toSet,
    by rw [Set.ncard_coe_finset, List.toFinset_card_of_nodup hxs]⟩

/-- A set of which all but one element are in another set has no more elements than that one, unless it
has the one element and all of the other set. -/
theorem ncard_le_iff_of_diff_subset {hit types : Set String} {a : String} (hfinite : hit.Finite)
    (htypes : types.Finite) (hsub : hit \ {a} ⊆ types) (ha : a ∉ types)
    (hnonempty : hit.Nonempty ∨ types.Nonempty) :
    hit.ncard ≤ types.ncard ∧ 1 ≤ types.ncard ↔ (a ∈ hit → ∃ type ∈ types, type ∉ hit) := by
  rw [Nat.one_le_iff_ne_zero, ← Nat.pos_iff_ne_zero, Set.ncard_pos htypes]
  by_cases hmem : a ∈ hit
  · -- the one element counts for one more, and so it takes one that is only in the other set
    have hcount : (hit \ {a}).ncard + 1 = hit.ncard :=
      Set.ncard_sdiff_singleton_add_one hmem hfinite
    rw [forall_prop_of_true hmem]
    constructor
    · rintro ⟨hle, -⟩
      by_contra hall
      have hback : types ⊆ hit \ {a} := by
        intro type htype
        refine ⟨?_, fun heq => ha (heq ▸ htype)⟩
        by_contra hnot
        exact hall ⟨type, htype, hnot⟩
      have := Set.ncard_le_ncard hback (hfinite.subset Set.sdiff_subset)
      omega
    · rintro ⟨type, htype, hnot⟩
      have hlt : (hit \ {a}).ncard < types.ncard :=
        Set.ncard_lt_ncard ⟨hsub, fun hback => hnot (hback htype).1⟩ htypes
      exact ⟨by omega, type, htype⟩
  · have hle : hit ⊆ types := fun type htype => hsub ⟨htype, fun heq => hmem (heq ▸ htype)⟩
    refine ⟨fun _ h => absurd h hmem, fun _ => ⟨Set.ncard_le_ncard hle htypes, ?_⟩⟩
    exact hnonempty.elim (fun h => h.mono hle) id

/-! ## Types that are hit -/

section

variable {program : Program} {rules : List CategoryRule} {es : List Entry} {s : Snapshot}
  {ns type : String} {size : Nat} {grouping : Grouping}

theorem Note.hitOf_eq_some_iff {destination : Option Node} :
    hitOf program destination = some (ns, type) ↔
      ∃ n, destination = some n ∧ program.Declares ns type n := by
  unfold hitOf Program.Declares
  simp only [Option.bind_eq_some_iff, Option.map_eq_some_iff, Prod.mk.injEq]
  constructor
  · rintro ⟨m, ⟨n, rfl, hm⟩, row, hrow, ns, hns, rfl, rfl⟩
    cases n with
    | type t => cases hm
    | method m =>
      obtain rfl := Option.some.inj hm
      exact ⟨_, rfl, m, row, rfl, hrow, rfl, hns⟩
  · rintro ⟨_, rfl, m, row, rfl, hrow, rfl, hns⟩
    exact ⟨m, ⟨_, rfl, rfl⟩, row, hrow, ns, hns, rfl, rfl⟩

theorem Note.exists_hit_iff (rules : List CategoryRule) :
    (∃ n ∈ es.map (ofEntry program rules), n.hit = some (ns, type)) ↔
      type ∈ program.typesHit es ns := by
  simp only [List.mem_map, exists_exists_and_eq_and, ofEntry, hitOf_eq_some_iff]
  rfl

namespace Ledger

/-- The types that a ledger has under a namespace are those in which chains end. -/
theorem lookup_hitTypes_enterAll (ns : String) : (program.typesHit es ns).Finite ∧
    (program.typesHit es ns).ncard = (((es.foldl (enter program rules)
      (empty size grouping)).hitTypes.lookup ns).getD []).length := by
  rw [hitTypes_enterAll]
  show _ ∧ _ = (((Keyed.collect _ _ _ _ []).lookup ns).getD []).length
  rw [Keyed.getD_lookup_collect, Note.collected_addHit]
  refine finite_and_ncard_eq (Distinct.nodup_ofList _) fun type => ?_
  rw [Distinct.mem_ofList, List.mem_filterMap, ← Note.exists_hit_iff rules]
  simp only [List.mem_filter, decide_eq_true_eq, and_assoc, Note.namespace?,
    Option.map_eq_some_iff]
  constructor
  · -- the namespace and the type that are noted of a chain come from one hit
    rintro ⟨n, hn, ⟨h, hhit, rfl⟩, ⟨h', hhit', rfl⟩⟩
    obtain rfl := Option.some.inj (hhit.symm.trans hhit')
    exact ⟨n, hn, hhit⟩
  · rintro ⟨n, hn, hhit⟩
    exact ⟨n, hn, ⟨_, hhit, rfl⟩, _, hhit, rfl⟩

theorem mem_keys_hitTypes_enterAll :
    ns ∈ Keyed.keys (es.foldl (enter program rules) (empty size grouping)).hitTypes ↔
      (program.typesHit es ns).Nonempty := by
  rw [hitTypes_enterAll]
  show ns ∈ Keyed.keys (Keyed.collect _ _ _ _ []) ↔ _
  rw [Keyed.keys_collect, Distinct.mem_ofList, List.mem_filterMap]
  simp only [Set.Nonempty, ← Note.exists_hit_iff rules, Note.namespace?,
    Option.map_eq_some_iff]
  constructor
  · rintro ⟨n, hn, ⟨_, type⟩, hhit, rfl⟩
    exact ⟨type, n, hn, hhit⟩
  · rintro ⟨type, n, hn, hhit⟩
    exact ⟨n, hn, _, hhit, rfl⟩

theorem nodup_keys_hitTypes_enterAll :
    (Keyed.keys (es.foldl (enter program rules) (empty size grouping)).hitTypes).Nodup := by
  rw [hitTypes_enterAll]
  exact Keyed.nodup_keys_collect

/-! ## Types that there are -/

/-- The types of the methods of a snapshot, without the nameless one. -/
def declaringTypes (program : Program) (s : Snapshot) : List String :=
  (Distinct.ofList ((methodsOf program s).map (·.declaringType))).filter (!·.isEmpty)

theorem mem_methodsOf {row : Method} : row ∈ methodsOf program s ↔
    ∃ m, Node.method m ∈ s.nodes ∧ program.method? m = some row := by
  simp only [methodsOf, List.mem_filterMap, Array.mem_toList_iff]
  constructor
  · rintro ⟨m, ⟨n, hn, hm⟩, hrow⟩
    cases n with
    | type t => cases hm
    | method m' => exact ⟨m, Option.some.inj hm ▸ hn, hrow⟩
  · rintro ⟨m, hn, hrow⟩
    exact ⟨m, ⟨_, hn, rfl⟩, hrow⟩

theorem mem_filter_declaringTypes : type ∈ (declaringTypes program s).filter
      (program.outermostNamespace? · = some ns) ↔ type ∈ program.typesIn s ns := by
  unfold declaringTypes Program.typesIn Program.Declares
  simp only [List.mem_filter, Distinct.mem_ofList, List.mem_map, mem_methodsOf, Bool.not_eq_true',
    String.isEmpty_eq_false_iff, decide_eq_true_eq, Set.mem_ofPred_eq]
  constructor
  · rintro ⟨⟨⟨row, ⟨m, hn, hrow⟩, htype⟩, hname⟩, hns⟩
    exact ⟨hname, _, hn, m, row, rfl, hrow, htype, hns⟩
  · rintro ⟨hname, _, hn, m, row, rfl, hrow, htype, hns⟩
    exact ⟨⟨⟨row, ⟨m, hn, hrow⟩, htype⟩, hname⟩, hns⟩

theorem totalTypes_eq (program : Program) (s : Snapshot) : totalTypes program s =
    Keyed.collect program.outermostNamespace? 0 (fun _ n => n + 1) (declaringTypes program s) [] :=
  Snapshot.Alike.totalTypes_eq program s

theorem lookup_totalTypes : (program.typesIn s ns).Finite ∧
    (program.typesIn s ns).ncard = ((totalTypes program s).lookup ns).getD 0 := by
  rw [totalTypes_eq, Keyed.getD_lookup_collect, Keyed.collected_count]
  refine finite_and_ncard_eq (List.Nodup.filter _ ?_) fun type => mem_filter_declaringTypes
  exact (Distinct.nodup_ofList _).filter _

theorem mem_keys_totalTypes :
    ns ∈ Keyed.keys (totalTypes program s) ↔ (program.typesIn s ns).Nonempty := by
  rw [totalTypes_eq, Keyed.keys_collect, Distinct.mem_ofList, List.mem_filterMap]
  simp only [Set.Nonempty, ← mem_filter_declaringTypes, List.mem_filter, decide_eq_true_eq]

/-! ## Lines of a summary -/

/-- The lines that a summary has, if its chains end in nodes of the snapshot. -/
theorem namespaceLines_summarize (known : List Reason)
    (hends : ∀ e ∈ es, ∀ n, e.chain.destination? = some n → n ∈ s.nodes) :
    NamespaceLines program s es ((es.foldl (enter program rules)
      (empty size grouping)).summarize program s known).namespaces := by
  have hkeys : (Keyed.keys (es.foldl (enter program rules) (empty size grouping)).hitTypes).Nodup :=
    nodup_keys_hitTypes_enterAll
  have htotals : (Keyed.keys (totalTypes program s)).Nodup := by
    rw [totalTypes_eq]
    exact Keyed.nodup_keys_collect
  have hhit : ∀ ns, (program.typesHit es ns).Finite ∧ (program.typesHit es ns).ncard =
      (((es.foldl (enter program rules) (empty size grouping)).hitTypes.lookup ns).getD []).length :=
    lookup_hitTypes_enterAll
  have hmem : ∀ ns, ns ∈ Keyed.keys (es.foldl (enter program rules)
      (empty size grouping)).hitTypes ↔ (program.typesHit es ns).Nonempty :=
    fun ns => mem_keys_hitTypes_enterAll
  dsimp only [summarize]
  -- the ledger is known by its lookups and its keys
  generalize (es.foldl (enter program rules) (empty size grouping)).hitTypes = hitTypes at *
  have hnumbers := fun (line : NamespaceHits) (h : line ∈ namespaceHits hitTypes _) =>
    numbers_namespaceHits hkeys htotals h
  constructor
  case nodup => exact nodup_names_namespaceHits hkeys htotals
  case mem_iff =>
    intro ns
    rw [mem_names_namespaceHits, hmem, mem_keys_totalTypes]
  case hitTypes =>
    intro line hline
    rw [(hnumbers line hline).1, (hhit _).2]
  case totalTypes =>
    intro line hline
    rw [(hnumbers line hline).2, lookup_totalTypes.2]
  case order =>
    refine ordered_namespaceHits (fun entry hentry hnone => ?_) htotals
    -- a namespace is entered with the first type that is hit
    obtain ⟨hfinite, hcount⟩ := hhit entry.1
    rw [(Keyed.lookup_eq_some_iff hkeys).mpr hentry, hnone] at hcount
    have hpos := (Set.ncard_pos hfinite).mpr ((hmem entry.1).mp (List.mem_map_of_mem hentry))
    rw [hcount] at hpos
    exact absurd hpos (Nat.lt_irrefl 0)
  case fraction =>
    intro line hline
    have hline' := mem_names_namespaceHits.mp (List.mem_map_of_mem hline)
    rw [hmem, mem_keys_totalTypes] at hline'
    rw [(hnumbers line hline).1, (hnumbers line hline).2, ← (hhit _).2, ← lookup_totalTypes.2]
    refine ncard_le_iff_of_diff_subset (hhit _).1 lookup_totalTypes.1 ?_ (fun h => h.1 rfl) hline'
    -- a chain ends in a node of the snapshot
    rintro type ⟨⟨e, he, n, hn, hdeclares⟩, hname⟩
    exact ⟨hname, n, hends e he n hn, hdeclares⟩

end Ledger

end

namespace Analysis

variable {options : AnalysisOptions} {program : Program} {facts : Facts} {c : Classifier}
  {p : Prepared} {es es' : List Entry}

theorem destination_mem_nodes {e : Entry} {n : Node} (hp : p.Judged c program)
    (hes : reported options program facts p = .ok es) (he : e ∈ es)
    (hn : e.chain.destination? = some n) : n ∈ p.snapshot.nodes := by
  obtain ⟨path, hpath⟩ := reported_route hp hes he
  rw [hpath.destination?] at hn
  exact Array.mem_of_getElem? hn

/-- The lines for the chains that were reported, in whatever order they were entered. -/
theorem namespaceLines_ledgerOf (hp : p.Judged c program)
    (hes : reported options program facts p = .ok es) (hperm : es.Perm es') (known : List Reason) :
    NamespaceLines program p.snapshot es'
      ((ledgerOf options program p es').summarize program p.snapshot known).namespaces := by
  refine Ledger.namespaceLines_summarize known fun e he n hn => ?_
  exact destination_mem_nodes hp hes (hperm.mem_iff.mpr he) hn

end Analysis

/-- The lines for namespaces in the summary of a run that succeeds, and in that of a report to which the
results came in any other order. -/
theorem namespace_lines {options : AnalysisOptions} {program : Program} {facts : Facts}
    {c : Classifier} :
    (∀ sink a sink', Analysis.run options program facts c sink = (.ok a, sink') →
      ∃ p es, Prepared.of c program facts = .ok p ∧
        Analysis.reported options program facts p = .ok es ∧
        NamespaceLines program p.snapshot es a.summary.namespaces) ∧
    ∀ p (rs : List SearchResult) ledger w w', Prepared.of c program facts = .ok p →
      rs.Perm (Analysis.results options program facts p.snapshot) →
      Report.run (Analysis.basis program p) options.categoryRules (rs.map .result ++ [.done]) none
        (Ledger.empty p.snapshot.size options.grouping) w = (.ok ledger, w') →
      ∃ es, Report.entries (Analysis.basis program p) rs = .ok es ∧
        NamespaceLines program p.snapshot es
          (ledger.summarize program p.snapshot c.knownReasons).namespaces := by
  constructor
  · intro sink a sink' hrun
    obtain ⟨p, es, hp, hes, -, hsummary, -⟩ := Analysis.run_ok hrun
    obtain ⟨u, -, hu, rfl⟩ := Prepared.of_ok hp
    refine ⟨u.prune, es, hp, hes, ?_⟩
    rw [hsummary]
    exact Analysis.namespaceLines_ledgerOf hu.prune hes (.refl es) _
  · intro p rs ledger w w' hp hrs hrun
    obtain ⟨es₀, es, hes₀, hes, hperm, hsummary⟩ := Analysis.exists_reported_of_run hrs hrun
    obtain ⟨u, -, hu, rfl⟩ := Prepared.of_ok hp
    refine ⟨es, hes, ?_⟩
    rw [hsummary]
    exact Analysis.namespaceLines_ledgerOf hu.prune hes₀ hperm _

/-! ### A library, and a type without a name -/

/-- A program and a library, with a type each. -/
def Program.withLibrary : Program where
  methods := [.named "App.Program" "Main", .named "Lib.Api" "Get"]
  types := [.named "App.Program", .named "Lib.Api"]

/-- The chain ends in the program, and the type of the library is not hit. -/
theorem namespace_lines_of_library :
    ∃ a sink' p es, Analysis.run {} .withLibrary .firstCallsSecond (.single 0 1) {} =
        (.ok a, sink') ∧ a.summary.namespaces = [⟨"App", 1, 1⟩, ⟨"Lib", 0, 1⟩] ∧
      Prepared.of (.single 0 1) .withLibrary .firstCallsSecond = .ok p ∧
      NamespaceLines .withLibrary p.snapshot es a.summary.namespaces := by
  have hlines : (Analysis.run {} .withLibrary .firstCallsSecond (.single 0 1) {}).1.toOption.map
      (·.summary.namespaces) = some [⟨"App", 1, 1⟩, ⟨"Lib", 0, 1⟩] := by cbv
  obtain ⟨a, hok, hnamespaces⟩ := exists_ok_of_map_toOption hlines
  have hrun : Analysis.run {} .withLibrary .firstCallsSecond (.single 0 1) {} = (.ok a, _) :=
    Prod.ext hok rfl
  obtain ⟨p, es, hp, -, hall⟩ := namespace_lines.1 {} a _ hrun
  exact ⟨a, _, p, es, hrun, hnamespaces, hp, hall⟩

/-- A program whose first method has a nameless type, which is said to be in a namespace. -/
def Program.withNameless : Program where
  methods := [.named "" "Main", .named "App.Api" "Get"]
  types := [{ fullName := "", «namespace» := "Lib" }, .named "App.Api"]

/-- The nameless type is hit, and of its namespace there is no type: the line says 1 of 0. -/
theorem namespace_lines_not_fractions :
    ¬∀ (options : AnalysisOptions) (program : Program) (facts : Facts) (c : Classifier) (sink : Sink)
        (a : Analysis) (sink' : Sink), Analysis.run options program facts c sink = (.ok a, sink') →
      ∀ line ∈ a.summary.namespaces, line.hitTypes ≤ line.totalTypes ∧ 1 ≤ line.totalTypes := by
  intro hall
  have hlines : (Analysis.run {} .withNameless .firstCallsSecond (.single 0 1) {}).1.toOption.map
      (·.summary.namespaces) = some [⟨"Lib", 1, 0⟩, ⟨"App", 0, 1⟩] := by cbv
  obtain ⟨a, hok, hnamespaces⟩ := exists_ok_of_map_toOption hlines
  have hline : ⟨"Lib", 1, 0⟩ ∈ a.summary.namespaces := by
    rw [hnamespaces]
    exact List.mem_cons_self
  have hrun : Analysis.run {} .withNameless .firstCallsSecond (.single 0 1) {} = (.ok a, _) :=
    Prod.ext hok rfl
  exact absurd (hall _ _ _ _ _ a _ hrun _ hline).2 (by decide)

/-! ## Categories that are namespaces -/

/-- Whether a chain ends in a described method of a type. -/
def Chain.EndsIn (ch : Chain) (p : Program) (row : TypeRow) : Prop :=
  ∃ m method, ch.destination? = some (.method m) ∧ p.method? m = some method ∧
    method.described = true ∧ method.declaringType = row.fullName

section

variable {p : Program} {row : TypeRow} {ch : Chain} {rules : List CategoryRule} {l : Ledger}
  {e : Entry}

theorem TypeRow.SpelledOut.fullName_isEmpty (h : row.SpelledOut)
    (hns : row.namespace.isEmpty = false) : row.fullName.isEmpty = false := by
  by_contra hempty
  rw [Bool.not_eq_false, String.isEmpty_iff] at hempty
  rw [h.namespace, hempty] at hns
  exact absurd hns (by decide)

/-- No rule accepts the chain, so that its category is the namespace that is written in the row. -/
theorem Category.ofChain_eq_namespace (hp : p.Interned) (hrow : row ∈ p.types)
    (hspelled : row.SpelledOut) (hends : ch.EndsIn p row) (hns : row.namespace.isEmpty = false)
    (hrules : rules.find? (·.accepts ch) = none) : ofChain p rules ch = row.namespace := by
  obtain ⟨m, method, hm, hmethod, hdescribed, htype⟩ := hends
  have hrow' : p.typeNamed? row.fullName = some row :=
    (Program.find?_eq_some_iff_of_nodup hp.names).mpr ⟨hrow, rfl⟩
  -- the type has a name, or it would have no namespace
  rw [ofChain, hrules, hm]
  simp only [ofDestination, hmethod, hdescribed, htype, hspelled.fullName_isEmpty hns, ofType,
    hrow', hns, Bool.not_false, Bool.and_self, if_true, Bool.false_eq_true, if_false]

theorem Ledger.hitTypes_enter_of_some (hends : e.chain.EndsIn p row) {ns : String}
    (hns : p.outermostNamespace? row.fullName = some ns) :
    ∃ types, (l.enter p rules e).hitTypes.lookup ns = some types ∧ row.fullName ∈ types := by
  obtain ⟨m, method, hm, hmethod, -, htype⟩ := hends
  have hhit : (l.enter p rules e).hitTypes =
      Keyed.change ns [] (Distinct.insert · row.fullName) l.hitTypes := by
    show hit p l.hitTypes e.chain.destination? = _
    simp only [hm, hit, hmethod, htype, hns]
  rw [hhit, Keyed.lookup_change_self]
  exact ⟨_, rfl, Distinct.mem_insert.mpr (Or.inr rfl)⟩

theorem Ledger.hitTypes_enter_of_none (hends : e.chain.EndsIn p row)
    (hns : p.outermostNamespace? row.fullName = none) :
    (l.enter p rules e).hitTypes = l.hitTypes := by
  obtain ⟨m, method, hm, hmethod, -, htype⟩ := hends
  show hit p l.hitTypes e.chain.destination? = _
  simp only [hm, hit, hmethod, htype, hns]

end

/-- In tables that say of every type what its name spells out, the walk to the outermost type comes to
the namespace in the row of a type exactly if that is empty or all types around the type have rows, and
to none otherwise.  A chain that is filed under the namespace of the type in which it ends is counted
there if the types around it have rows, and nowhere if not. -/
theorem namespace_counted_iff {rs : List Request} (hrs : ∀ r ∈ rs, r.SpelledOut) {p : Program}
    (hp : p = .after rs) {row : TypeRow} (hrow : row ∈ p.types) :
    (p.outermostNamespace? row.fullName =
        (if row.namespace.isEmpty then none else some row.namespace) ↔
      row.namespace.isEmpty = true ∨ p.HasEnclosing row.fullName) ∧
    (¬p.HasEnclosing row.fullName → p.outermostNamespace? row.fullName = none) ∧
    ∀ (rules : List CategoryRule) (e : Entry), e.chain.EndsIn p row →
      row.namespace.isEmpty = false → rules.find? (·.accepts e.chain) = none →
      Category.ofChain p rules e.chain = row.namespace ∧
      ∀ l : Ledger,
        (p.HasEnclosing row.fullName →
          ∃ types, (l.enter p rules e).hitTypes.lookup row.namespace = some types ∧
            row.fullName ∈ types) ∧
        (¬p.HasEnclosing row.fullName → (l.enter p rules e).hitTypes = l.hitTypes) := by
  subst hp
  have hspelled := Program.spelledOut_after hrs
  -- whether the types around have rows decides both what the walk finds and what is entered
  have hsome := hspelled.outermostNamespace?_eq_some_iff hrow row.namespace
  have hnone := hspelled.outermostNamespace?_eq_none_iff hrow
  refine ⟨?_, fun hlost => hnone.mpr (Or.inr hlost), ?_⟩
  · cases hns : row.namespace.isEmpty with
    | true => simp [hnone, hns]
    | false => simp [hsome, hns]
  · intro rules e hends hns hrules
    refine ⟨Category.ofChain_eq_namespace (Program.interned_after rs) hrow (hspelled row hrow) hends
      hns hrules, fun l => ⟨fun hall => ?_, fun hlost => ?_⟩⟩
    · exact Ledger.hitTypes_enter_of_some hends (hsome.mpr ⟨rfl, hns, hall⟩)
    · exact Ledger.hitTypes_enter_of_none hends (hnone.mpr (Or.inr hlost))

/-- The types around the innermost one come later, in no particular order. -/
def Request.innermostFirst : List Request :=
  [.addMethod (.named "App.Outer/Inner/Core" "Run"), .ensureType "App.Outer",
    .addType (.named "App.Outer/Inner")]

/-- All types around the type have rows, so that a chain that ends there is filed and counted under the
same namespace. -/
theorem namespace_counted_iff_innermost_first :
    (∀ r ∈ Request.innermostFirst, r.SpelledOut) ∧
      TypeRow.placeholder "App.Outer/Inner/Core" ∈ (Program.after Request.innermostFirst).types ∧
      (Program.after Request.innermostFirst).HasEnclosing "App.Outer/Inner/Core" ∧
      Category.ofChain (.after Request.innermostFirst) [] { nodes := [.method 0], lines := [] } =
        "App" ∧
      ∃ types, (({} : Ledger).enter (.after Request.innermostFirst) []
          ⟨{ nodes := [.method 0], lines := [] }, 0, 0⟩).hitTypes.lookup "App" = some types ∧
        "App.Outer/Inner/Core" ∈ types := by
  have hspelled : ∀ r ∈ Request.innermostFirst, r.SpelledOut := by
    unfold Request.innermostFirst
    simp only [List.forall_mem_cons, List.not_mem_nil, false_imp_iff, implies_true, and_true]
    exact ⟨trivial, trivial, rfl, rfl⟩
  have hrow : TypeRow.placeholder "App.Outer/Inner/Core" ∈
      (Program.after Request.innermostFirst).types := by decide
  have hstored : (TypeRow.placeholder "App.Outer/Inner/Core").namespace = "App" := by decide
  obtain ⟨hagree, -, hcounted⟩ := namespace_counted_iff hspelled rfl hrow
  have hall : (Program.after Request.innermostFirst).HasEnclosing "App.Outer/Inner/Core" := by
    refine (hagree.mp ?_).resolve_left ?_
    · rw [hstored]
      decide
    · rw [hstored]
      decide
  have hends : ({ nodes := [.method 0], lines := [] } : Chain).EndsIn
      (.after Request.innermostFirst) (.placeholder "App.Outer/Inner/Core") :=
    ⟨0, .named "App.Outer/Inner/Core" "Run", rfl, by decide, rfl, rfl⟩
  obtain ⟨hcategory, hledger⟩ := hcounted [] ⟨{ nodes := [.method 0], lines := [] }, 0, 0⟩ hends
    (by rw [hstored]; decide) rfl
  rw [hstored] at hcategory hledger
  exact ⟨hspelled, hrow, hall, hcategory, (hledger {}).1 hall⟩

/-- A method of a nested type, and another method. -/
def Request.withoutOuter : List Request :=
  [.addMethod (.named "App.Outer/Inner" "Main"), .addMethod (.named "Lib.Api" "Get")]

/-- The type that a type is nested in has no row.  The chain that ends in the nested type is filed under
its namespace, for which there is no line. -/
theorem namespace_not_counted_without_outer :
    (∀ r ∈ Request.withoutOuter, r.SpelledOut) ∧
      TypeRow.placeholder "App.Outer/Inner" ∈ (Program.after Request.withoutOuter).types ∧
      (TypeRow.placeholder "App.Outer/Inner").namespace = "App" ∧
      (Program.after Request.withoutOuter).outermostNamespace? "App.Outer/Inner" = none ∧
      (Analysis.run {} (.after Request.withoutOuter) .firstCallsSecond (.single 0 1)
          {}).1.toOption.map (fun a => (a.summary.chainsPerCategory, a.summary.namespaces)) =
        some ([⟨"App", 1⟩], [⟨"Lib", 0, 1⟩]) := by
  have htables : Program.after Request.withoutOuter = {
      methods := [.named "App.Outer/Inner" "Main", .named "Lib.Api" "Get"]
      types := [
        { fullName := "App.Outer/Inner", «namespace» := "App", enclosing := some "App.Outer",
          described := false },
        { fullName := "Lib.Api", «namespace» := "Lib", described := false }] } := by decide
  refine ⟨?_, by decide, by decide, by decide, ?_⟩
  · unfold Request.withoutOuter
    simp only [List.forall_mem_cons, List.not_mem_nil, false_imp_iff, implies_true, and_true]
    exact ⟨trivial, trivial⟩
  · rw [htables]
    cbv

end CallAudit

import CallAudit.Classifier.Listed
import CallAudit.Proofs.Analysis.Chains
import CallAudit.Proofs.Report.Gathering
import CallAudit.Proofs.Report.Writing
import Mathlib

/-!
# Grouped chains

Chains are gathered under nodes, and every chain that is reported is in the group of its node
(`Ledger.gatheredBy_takeGroups`).  In JSON each group is a member under the text that is shown for its
node, and two nodes may show the same text.  Read as a map from names, the output has all chains
exactly if no two of the nodes do (`grouped_chains_by_name`).
-/

namespace CallAudit

/-- All chains under the nodes they belong to, in the order in which they come. -/
structure GatheredBy (grouping : Grouping) (chains : List Chain)
    (gathered : List (Node × List Chain)) : Prop where
  nodup : (Keyed.keys gathered).Nodup
  mem_iff : ∀ n cs, (n, cs) ∈ gathered ↔
    cs ≠ [] ∧ cs = chains.filter fun c => c.groupKey? grouping = some n

/-! ## Groups in the ledger -/

namespace Ledger

variable {program : Program} {rules : List CategoryRule} {l : Ledger} {es : List Entry}

/-- What is posted for an entry. -/
def posting (program : Program) (rules : List CategoryRule) (e : Entry) : Posting where
  chain := e.chain
  category := Category.ofChain program rules e.chain
  source := e.source
  destination := e.destination

theorem enterAll_eq_postAll : es.foldl (enter program rules) l =
    (es.map (posting program rules)).foldl (post program) l := by
  rw [List.foldl_map]
  rfl

theorem chain_postings : (es.map (posting program rules)).map Posting.chain = es.map Entry.chain := by
  rw [List.map_map]
  rfl

/-- Adds the chain of an entry to those of its group. -/
def addTo (e : Entry) (cs : List Chain) : List Chain :=
  cs ++ [e.chain]

theorem groups_enterAll : (es.foldl (enter program rules) l).groups =
    Keyed.collect (fun e : Entry => e.chain.groupKey? l.grouping) [] addTo es l.groups := by
  rw [enterAll_eq_postAll, groups_postAll, chain_postings, Keyed.collect, List.foldl_map]
  rfl

theorem collected_addTo {key : Entry → Option Node} {n : Node} :
    Keyed.collected key [] addTo es n = (es.filter (key · = some n)).map Entry.chain :=
  Keyed.collected_append

/-- The groups of a report have all its chains. -/
theorem gatheredBy_takeGroups {size : Nat} {grouping : Grouping} :
    GatheredBy grouping (es.map Entry.chain)
      (es.foldl (enter program rules) (empty size grouping)).takeGroups.1 := by
  have hdivided : DividedBy (·.groupKey? grouping) ((es.map (posting program rules)).map Posting.chain)
      ((es.map (posting program rules)).foldl (post program) (empty size grouping)).takeGroups.1 :=
    divided_takeGroups
  rw [chain_postings, ← enterAll_eq_postAll] at hdivided
  exact ⟨hdivided.nodup, hdivided.mem_iff⟩

/-- If every chain belongs to a group, the groups hold as many chains as there are. -/
theorem sum_takeGroups {size : Nat} {grouping : Grouping}
    (hall : ∀ e ∈ es, (e.chain.groupKey? grouping).isSome) :
    ((es.foldl (enter program rules) (empty size grouping)).takeGroups.1.map
      (·.2.length)).sum = es.length := by
  rw [enterAll_eq_postAll, sum_takeGroups_postAll, List.length_map]
  intro p hp
  obtain ⟨e, he, rfl⟩ := List.mem_map.mp hp
  exact hall e he

end Ledger

/-! ## Grouped output -/

section

variable {b : Basis} {ledger ledger' : Ledger} {w w' : Writer}

theorem Report.writeAll_grouped (hgrouping : w.grouping ≠ .none) (cs : List Chain) :
    writeAll cs w = (.ok (), w) := by
  induction cs with
  | nil => rfl
  | cons c cs ih =>
    rw [writeAll, writeNow, if_neg (by simpa using hgrouping)]
    exact ih

theorem Writer.isStream_grouped (hgrouping : w.grouping ≠ .none) : w.isStream = false := by
  rw [isStream, Bool.and_eq_false_iff]
  exact Or.inr (beq_eq_false_iff_ne.mpr hgrouping)

/-- Before groups nothing is written. -/
theorem Writer.allChars_opening_grouped (hgrouping : w.grouping ≠ .none) :
    Stroke.allChars w.opening = [] := by
  rw [opening, isStream_grouped hgrouping]
  cases w.hasBegun <;> rfl

/-- After groups nothing is written. -/
theorem Writer.finish_grouped (hgrouping : w.grouping ≠ .none) : w.finish = (.ok (), w) := by
  rw [finish, closing, isStream_grouped hgrouping]
  rfl

/-- Groups in JSON are a document of their own. -/
theorem Writer.writeGroups_ok {display : Node → String} {gathered : List (Node × List Chain)}
    (hjson : w.json = true) (hgrouping : w.grouping ≠ .none)
    (h : w.writeGroups display gathered = (.ok (), w')) : w'.grouping = w.grouping ∧
      ∃ text, w'.sink.written = w.sink.written ++ text ∧
        Json.read text = some (.object (gathered.map (member display))) := by
  unfold writeGroups at h
  dsimp only at h
  rw [if_pos hjson, hjson] at h
  obtain ⟨text, hwritten, htext⟩ := exists_written h
  refine ⟨by rw [perform_ok h, grouping_afterAll], text, hwritten, ?_⟩
  rw [Json.read, htext, Stroke.allChars_append, allChars_opening_grouped hgrouping, List.nil_append]
  exact readChars_groups _ _

/-- Grouped chains are written at the end, and nothing else is. -/
theorem Report.finish_grouped (hjson : w.json = true) (hgrouping : w.grouping ≠ .none)
    (h : finish b ledger w = (.ok ledger', w')) :
    ∃ text, w'.sink.written = w.sink.written ++ text ∧
      Json.read text = some (.object
        (ledger.takeGroups.1.map (Writer.member b.program.display))) := by
  unfold finish writeGathered at h
  rw [if_neg (by simpa using hgrouping)] at h
  dsimp only at h
  split at h
  · cases h
  next ledger₁ w₁ hgathered =>
    -- the groups are what is written
    split at hgathered
    · cases hgathered
    next w₂ hgroups =>
      obtain ⟨-, rfl⟩ := Prod.mk.inj hgathered
      obtain ⟨hafter, hdocument⟩ := Writer.writeGroups_ok hjson hgrouping hgroups
      rw [Writer.finish_grouped (hafter ▸ hgrouping)] at h
      obtain ⟨-, rfl⟩ := Prod.mk.inj h
      exact hdocument

end

namespace Analysis

variable {options : AnalysisOptions} {program : Program} {facts : Facts} {c : Classifier}
  {sink sink' : Sink} {p : Prepared} {a : Analysis} {es : List Entry}

/-- What an analysis with grouped chains in JSON writes. -/
theorem run_grouped (hjson : options.json = true) (hgrouping : options.grouping ≠ .none)
    (h : run options program facts c sink = (.ok a, sink')) :
    ∃ p es, Prepared.of c program facts = .ok p ∧ reported options program facts p = .ok es ∧
      a.summary.chains = es.length ∧ ∃ text, sink'.written = sink.written ++ text ∧
        Json.read text = some (.object ((ledgerOf options program p es).takeGroups.1.map
          (Writer.member program.display))) := by
  obtain ⟨p, es, hp, hes, -, hsummary, -⟩ := run_ok h
  have hchains : a.summary.chains = es.length := by
    rw [hsummary]
    show (ledgerOf options program p es).chainCount = es.length
    rw [ledgerOf, Ledger.chainCount_enterAll]
    exact Nat.zero_add _
  refine ⟨p, es, hp, hes, hchains, ?_⟩
  unfold run at h
  rw [hp] at h
  unfold runPrepared at h
  dsimp only at h
  split at h
  · cases h
  next ledger w hrun =>
    obtain ⟨-, rfl⟩ := Prod.mk.inj h
    obtain ⟨es', ledger₁, w₁, henters, -, hfinish⟩ := Report.run_ok hrun
    rw [results_messages] at henters
    obtain rfl : es = es' := Except.ok.inj (hes.symm.trans henters.worded)
    -- nothing was written before the end
    have hw₁ := henters.written
    rw [Report.writeAll_grouped hgrouping] at hw₁
    obtain rfl := (Prod.mk.inj hw₁).2
    have hledger : ledger₁ = ledgerOf options program p es := henters.entered
    rw [← hledger]
    exact Report.finish_grouped hjson hgrouping hfinish

/-- A reported chain has a node at either end to be gathered under. -/
theorem groupKey?_isSome (hgrouping : options.grouping ≠ .none) (hp : p.Judged c program)
    (hes : reported options program facts p = .ok es) {e : Entry} (he : e ∈ es) :
    (e.chain.groupKey? options.grouping).isSome := by
  obtain ⟨path, hpath⟩ := reported_route hp hes he
  have hne : e.chain.nodes ≠ [] := by
    intro hnil
    have hmap := hpath.nodes
    rw [hnil, List.map_nil, List.map_eq_nil_iff] at hmap
    have hstarts := hpath.permits.starts
    rw [hmap] at hstarts
    exact absurd hstarts (by simp)
  exact e.chain.groupKey?_isSome hgrouping hne

end Analysis

/-! ## Groups by name -/

namespace Json

/-- The members of an object as a map: of members with one name the last one counts. -/
def byName (members : List (Spelt × Json)) : List (Spelt × Json) :=
  Keyed.collect (fun m => some m.1) null (fun m _ => m.2) members []

/-- How many items an array has. -/
def itemCount (v : Json) : Nat :=
  (v.items?.getD []).length

/-- How many items the arrays among members have. -/
def itemTotal (members : List (Spelt × Json)) : Nat :=
  (members.map (·.2.itemCount)).sum

theorem itemTotal_append (ms ms' : List (Spelt × Json)) :
    itemTotal (ms ++ ms') = itemTotal ms + itemTotal ms' := by
  rw [itemTotal, List.map_append, List.sum_append_nat]
  rfl

theorem itemTotal_cons (m : Spelt × Json) (ms : List (Spelt × Json)) :
    itemTotal (m :: ms) = m.2.itemCount + itemTotal ms := by
  rw [itemTotal, List.map_cons, List.sum_cons]
  rfl

theorem byName_concat (ms : List (Spelt × Json)) (m : Spelt × Json) :
    byName (ms ++ [m]) = Keyed.change m.1 null (fun _ => m.2) (byName ms) := by
  rw [byName, Keyed.collect, List.foldl_append]
  rfl

theorem keys_byName (ms : List (Spelt × Json)) :
    Keyed.keys (byName ms) = Distinct.ofList (ms.map Prod.fst) := by
  rw [byName, Keyed.keys_collect, List.filterMap_eq_map']

/-- What stands under a name is the value of a member. -/
theorem mem_of_mem_byName {ms : List (Spelt × Json)} {m : Spelt × Json} (h : m ∈ byName ms) :
    m ∈ ms := by
  induction ms using List.reverseRecOn with
  | nil => exact h
  | append_singleton ms m' ih =>
    rw [byName_concat] at h
    by_cases hmem : m'.1 ∈ Keyed.keys (byName ms)
    · obtain ⟨before, v, after, hms, hchange⟩ :=
        Keyed.change_of_mem null (fun _ => m'.2) hmem
      rw [hchange] at h
      rw [List.mem_append, List.mem_singleton]
      rw [hms] at ih
      rcases List.mem_append.mp h with hbefore | hrest
      · exact Or.inl (ih (List.mem_append_left _ hbefore))
      · rcases List.mem_cons.mp hrest with rfl | hafter
        · exact Or.inr rfl
        · exact Or.inl (ih (List.mem_append_right _ (List.mem_cons_of_mem _ hafter)))
    · rw [Keyed.change_of_not_mem hmem, List.mem_append] at h
      exact List.mem_append.mpr (h.imp_left ih)

/-- A map has all items of an object exactly if no name comes twice, as long as every member has
some. -/
theorem itemTotal_byName {ms : List (Spelt × Json)} (hpos : ∀ m ∈ ms, 0 < m.2.itemCount) :
    itemTotal (byName ms) ≤ itemTotal ms ∧
      (itemTotal (byName ms) = itemTotal ms ↔ (ms.map Prod.fst).Nodup) := by
  induction ms using List.reverseRecOn with
  | nil => exact ⟨Nat.le_refl 0, by simp [byName, Keyed.collect]⟩
  | append_singleton ms m ih =>
    obtain ⟨hle, hiff⟩ := ih fun m' hm' => hpos m' (List.mem_append_left _ hm')
    have hnodup : ((ms ++ [m]).map Prod.fst).Nodup ↔
        (ms.map Prod.fst).Nodup ∧ m.1 ∉ ms.map Prod.fst := by
      rw [List.map_append, List.map_singleton, ← List.concat_eq_append, List.nodup_concat,
        and_comm]
    have hkeys : m.1 ∈ Keyed.keys (byName ms) ↔ m.1 ∈ ms.map Prod.fst := by
      rw [keys_byName, Distinct.mem_ofList]
    have hsingle : itemTotal [m] = m.2.itemCount := itemTotal_cons m []
    rw [byName_concat, itemTotal_append, hsingle, hnodup]
    by_cases hmem : m.1 ∈ Keyed.keys (byName ms)
    · -- the member takes the place of an earlier one, whose items are lost
      obtain ⟨before, v, after, hms, hchange⟩ :=
        Keyed.change_of_mem null (fun _ => m.2) hmem
      have hlost : (m.1, v) ∈ ms := by
        apply mem_of_mem_byName
        rw [hms]
        exact List.mem_append_right _ List.mem_cons_self
      have hv : 0 < v.itemCount := hpos (m.1, v) (List.mem_append_left _ hlost)
      rw [hchange, itemTotal_append, itemTotal_cons]
      rw [hms, itemTotal_append, itemTotal_cons] at hle
      dsimp only at hle ⊢
      refine ⟨by omega, ?_⟩
      constructor
      · intro heq
        omega
      · rintro ⟨-, hnot⟩
        exact absurd (hkeys.mp hmem) hnot
    · rw [Keyed.change_of_not_mem hmem, itemTotal_append, itemTotal_cons]
      have hnil : itemTotal [] = 0 := rfl
      dsimp only
      refine ⟨by omega, ?_⟩
      constructor
      · intro heq
        exact ⟨hiff.mp (by omega), mt hkeys.mpr hmem⟩
      · rintro ⟨hms, -⟩
        have heq := hiff.mpr hms
        omega

end Json

theorem itemTotal_members (display : Node → String) (gathered : List (Node × List Chain)) :
    Json.itemTotal (gathered.map (Writer.member display)) = (gathered.map (·.2.length)).sum := by
  rw [Json.itemTotal, List.map_map]
  apply congrArg List.sum
  apply List.map_congr_left
  intro g _
  exact List.length_map _

theorem nodup_names_iff (display : Node → String) {gathered : List (Node × List Chain)}
    (h : (Keyed.keys gathered).Nodup) :
    ((gathered.map (Writer.member display)).map Prod.fst).Nodup ↔
      ∀ n ∈ Keyed.keys gathered, ∀ n' ∈ Keyed.keys gathered, display n = display n' → n = n' := by
  have hnames : (gathered.map (Writer.member display)).map Prod.fst =
      (Keyed.keys gathered).map fun n => some (display n) := by
    rw [Keyed.keys, List.map_map, List.map_map]
    rfl
  rw [hnames, List.nodup_map_iff_inj_on h]
  simp only [Option.some.injEq]

/-- Grouped output in JSON is an object with one member for each node that chains are gathered under,
and the groups hold all chains.  But the members have different names, and reading the object as a map
gives all chains, exactly if no two of these nodes show the same text. -/
theorem grouped_chains_by_name {options : AnalysisOptions} {program : Program} {facts : Facts}
    {c : Classifier} {sink sink' : Sink} {a : Analysis} (hjson : options.json = true)
    (hgrouping : options.grouping ≠ .none)
    (h : Analysis.run options program facts c sink = (.ok a, sink')) :
    ∃ p es gathered text, Prepared.of c program facts = .ok p ∧
      Analysis.reported options program facts p = .ok es ∧
      GatheredBy options.grouping (es.map Entry.chain) gathered ∧
      (gathered.map (·.2.length)).sum = a.summary.chains ∧
      sink'.written = sink.written ++ text ∧
      Json.read text = some (.object (gathered.map (Writer.member program.display))) ∧
      (((gathered.map (Writer.member program.display)).map Prod.fst).Nodup ↔
        ∀ n ∈ Keyed.keys gathered, ∀ n' ∈ Keyed.keys gathered,
          program.display n = program.display n' → n = n') ∧
      (Json.itemTotal (Json.byName (gathered.map (Writer.member program.display))) =
          a.summary.chains ↔
        ∀ n ∈ Keyed.keys gathered, ∀ n' ∈ Keyed.keys gathered,
          program.display n = program.display n' → n = n') := by
  obtain ⟨p, es, hp, hes, hchains, text, hwritten, hread⟩ :=
    Analysis.run_grouped hjson hgrouping h
  obtain ⟨u, -, hu, rfl⟩ := Prepared.of_ok hp
  have hgathered : GatheredBy options.grouping (es.map Entry.chain)
      (Analysis.ledgerOf options program u.prune es).takeGroups.1 := Ledger.gatheredBy_takeGroups
  have hsum : ((Analysis.ledgerOf options program u.prune es).takeGroups.1.map
      (·.2.length)).sum = a.summary.chains := by
    rw [hchains]
    exact Ledger.sum_takeGroups fun e he => Analysis.groupKey?_isSome hgrouping hu.prune hes he
  have hnames := nodup_names_iff program.display hgathered.nodup
  refine ⟨u.prune, es, _, text, hp, hes, hgathered, hsum, hwritten, hread, hnames, ?_⟩
  rw [← hnames, ← hsum, ← itemTotal_members program.display]
  refine (Json.itemTotal_byName ?_).2
  intro m hm
  obtain ⟨⟨n, cs⟩, hg, rfl⟩ := List.mem_map.mp hm
  have hne : cs ≠ [] := ((hgathered.mem_iff n cs).mp hg).1
  show 0 < (cs.map Chain.json).length
  rw [List.length_map]
  exact List.length_pos_iff.mpr hne

/-! ## Two methods that show the same text -/

/-- Two methods of a type that differ in how many type arguments they take, which the text shown for
them leaves out, and a method that calls them. -/
def Program.generic : Program where
  methods := [
    .named "App.Program" "Main",
    .named "App.Api" "Get",
    { Method.named "App.Api" "Get" with key := "App.Api::Get`1()" }]

def Facts.generic : Facts where
  directCalls := [(0, 1), (0, 2)]

/-- The methods of the type are both interesting. -/
def Classifier.generic : Classifier :=
  Listing.classifier { entries := [0], interesting := [(1, "Reflection"), (2, "Reflection")] }

/-- Chains are grouped by the interesting method and written in JSON. -/
def AnalysisOptions.grouped : AnalysisOptions where
  grouping := .callee
  json := true

theorem run_generic : ∃ a sink', Analysis.run .grouped .generic .generic .generic {} =
    (.ok a, sink') ∧ a.summary.chains = 2 := by
  have hchains : (Analysis.run .grouped .generic .generic .generic {}).1.toOption.map
      (·.summary.chains) = some 2 := by cbv
  generalize Analysis.run .grouped .generic .generic .generic {} = outcome at hchains ⊢
  obtain ⟨result, sink'⟩ := outcome
  cases result with
  | error e => exact absurd hchains (by simp [Except.toOption])
  | ok a => exact ⟨a, sink', rfl, Option.some.inj hchains⟩

/-- The two chains are in groups of their own. -/
theorem grouped_chains_by_name_generic :
    AnalysisOptions.grouped.json = true ∧ AnalysisOptions.grouped.grouping ≠ .none ∧
      ∃ a sink', Analysis.run .grouped .generic .generic .generic {} = (.ok a, sink') ∧
        ∃ (es : List Entry) (gathered : List (Node × List Chain)),
          GatheredBy .callee (es.map Entry.chain) gathered ∧
          (gathered.map (·.2.length)).sum = 2 ∧ Json.read sink'.written =
            some (.object (gathered.map (Writer.member Program.generic.display))) := by
  refine ⟨rfl, by decide, ?_⟩
  obtain ⟨a, sink', hrun, hchains⟩ := run_generic
  obtain ⟨p, es, gathered, text, -, -, hgathered, hsum, hwritten, hread, -⟩ :=
    grouped_chains_by_name rfl (by decide) hrun
  have hempty : sink'.written = text := hwritten.trans String.empty_append
  exact ⟨a, sink', hrun, es, gathered, hgathered, hsum.trans hchains, hempty ▸ hread⟩

/-- Grouped output may have two members of one name. -/
theorem grouped_chains_not_by_name :
    ¬∀ (options : AnalysisOptions) (program : Program) (facts : Facts) (c : Classifier)
      (a : Analysis) (sink' : Sink), options.json = true → options.grouping ≠ .none →
      Analysis.run options program facts c {} = (.ok a, sink') →
      ∃ members, Json.read sink'.written = some (.object members) ∧
        (members.map Prod.fst).Nodup ∧
        Json.itemTotal (Json.byName members) = a.summary.chains := by
  intro hall
  obtain ⟨a, sink', hrun, -⟩ := run_generic
  obtain ⟨members, hread, hnodup, -⟩ := hall _ _ _ _ _ _ rfl (by decide) hrun
  obtain ⟨p, es, hp, hes, -, text, hwritten, htext⟩ := Analysis.run_grouped rfl (by decide) hrun
  have hempty : sink'.written = text := hwritten.trans String.empty_append
  rw [hempty, htext] at hread
  obtain rfl := Json.object.inj (Option.some.inj hread)
  -- the groups of both methods bear the same name
  have hnames : (Prepared.of .generic .generic .generic).toOption.bind (fun p =>
      (Analysis.reported .grouped .generic .generic p).toOption.map fun es =>
        (((Analysis.ledgerOf .grouped .generic p es).takeGroups.1.map
          (Writer.member Program.generic.display)).map Prod.fst)) =
      some [some "App.Api::Get() -> System.Void", some "App.Api::Get() -> System.Void"] := by
    cbv
  rw [hp] at hnames
  dsimp only [Except.toOption, Option.bind] at hnames
  rw [hes] at hnames
  have hlist := Option.some.inj hnames
  dsimp only at hlist
  rw [hlist] at hnodup
  exact absurd hnodup (by simp)

end CallAudit

import CallAudit.Proofs.Report.Groups
import Mathlib.Data.List.Sort

/-!
# Ledgers and summaries that agree

Of every chain the tallies note its category, its reason and the type it ends in.  Ledgers whose notes
are the same up to order have the same tallies, and their summaries are the same up to the order of
lines with equal counts (`Ledger.summarize_sameNumbers`).
-/

namespace CallAudit

/-- The same lines in descending order of a count, except that lines with equal counts may stand in
another order. -/
structure SameUpToTies {α : Type} (count : α → Nat) (lines lines' : List α) : Prop where
  perm : lines.Perm lines'
  counts : lines.map count = lines'.map count

namespace SameUpToTies

variable {α : Type} {count : α → Nat} {lines lines' : List α}

theorem append {more more' : List α} (h : SameUpToTies count lines lines')
    (h' : SameUpToTies count more more') :
    SameUpToTies count (lines ++ more) (lines' ++ more') where
  perm := h.perm.append h'.perm
  counts := by rw [List.map_append, List.map_append, h.counts, h'.counts]

theorem refl (count : α → Nat) (lines : List α) : SameUpToTies count lines lines :=
  ⟨.refl lines, rfl⟩

/-- Sorting by the count leaves nothing open but the ties. -/
theorem mergeSort (count : α → Nat) (h : lines.Perm lines') :
    SameUpToTies count (lines.mergeSort fun a b => count b ≤ count a)
      (lines'.mergeSort fun a b => count b ≤ count a) where
  perm := (List.mergeSort_perm _ _).trans (h.trans (List.mergeSort_perm _ _).symm)
  counts := by
    have hsorted : ∀ l : List α, ((l.mergeSort fun a b => count b ≤ count a).map count).Pairwise
        fun m n => n ≤ m := fun l => List.pairwise_map.mpr (pairwise_mergeSort_descending count l)
    refine List.Perm.eq_of_pairwise (fun a b _ _ hab hba => ?_) (hsorted lines) (hsorted lines') ?_
    · exact Nat.le_antisymm hba hab
    · exact ((List.mergeSort_perm _ _).trans (h.trans (List.mergeSort_perm _ _).symm)).map count

theorem map {β : Type} {count' : β → Nat} {f : α → β} (hf : ∀ a, count' (f a) = count a)
    (h : SameUpToTies count lines lines') : SameUpToTies count' (lines.map f) (lines'.map f) where
  perm := h.perm.map f
  counts := by
    have hcomp : count' ∘ f = count := funext hf
    rw [List.map_map, List.map_map, hcomp, h.counts]

end SameUpToTies

/-! ## What is noted of a chain -/

/-- What the tallies of a ledger note of an entry. -/
structure Note where
  category : String
  reason : Option Reason
  /-- The type in which the chain ends, and before it the outermost namespace of the type. -/
  hit : Option (String × String)

namespace Note

/-- The type that is hit by ending in a node. -/
def hitOf (program : Program) (destination : Option Node) : Option (String × String) :=
  (destination.bind Node.method?).bind fun m =>
    (program.method? m).bind fun row =>
      (program.outermostNamespace? row.declaringType).map (·, row.declaringType)

def ofEntry (program : Program) (rules : List CategoryRule) (e : Entry) : Note where
  category := Category.ofChain program rules e.chain
  reason := e.chain.reason
  hit := hitOf program e.chain.destination?

def namespace? (n : Note) : Option String :=
  n.hit.map Prod.fst

/-- Adds the type that was hit to others of its namespace. -/
def addHit (n : Note) (types : List String) : List String :=
  match n.hit with
  | some (_, type) => Distinct.insert types type
  | none => types

theorem collected_addHit {notes : List Note} {ns : String} :
    Keyed.collected namespace? [] addHit notes ns =
      Distinct.ofList ((notes.filter (·.namespace? = some ns)).filterMap (·.hit.map Prod.snd)) := by
  have hfold : ∀ (notes : List Note) (types : List String),
      notes.foldl (fun types n => n.addHit types) types =
        Distinct.insertAll types (notes.filterMap (·.hit.map Prod.snd)) := by
    intro notes
    induction notes with
    | nil => exact fun types => rfl
    | cons n notes ih =>
      intro types
      rw [List.foldl_cons, ih, addHit, List.filterMap_cons]
      cases n.hit <;> rfl
  exact hfold _ []

end Note

namespace Ledger

variable {program program' : Program} {rules rules' : List CategoryRule} {l : Ledger}
  {es es' : List Entry}

theorem hit_eq (hitTypes : List (String × List String)) (destination : Option Node) :
    hit program hitTypes destination = (Note.hitOf program destination).elim hitTypes
      fun h => Keyed.change h.1 [] (Distinct.insert · h.2) hitTypes := by
  unfold hit Note.hitOf
  cases destination with
  | none => rfl
  | some n =>
    cases n with
    | type t => rfl
    | method m =>
      dsimp only
      cases hm : program.method? m with
      | none => simp [Node.method?, hm]
      | some row =>
        cases hns : program.outermostNamespace? row.declaringType <;> simp [Node.method?, hm, hns]

/-! ## The tallies of a ledger -/

theorem perCategory_enterAll : (es.foldl (enter program rules) l).perCategory =
    Keyed.collect (fun n : Note => some n.category) 0 (fun _ k => k + 1)
      (es.map (Note.ofEntry program rules)) l.perCategory := by
  induction es generalizing l with
  | nil => rfl
  | cons e es ih =>
    rw [List.foldl_cons, ih]
    rfl

theorem perReason_enterAll : (es.foldl (enter program rules) l).perReason =
    Keyed.collect Note.reason 0 (fun _ k => k + 1) (es.map (Note.ofEntry program rules))
      l.perReason := by
  induction es generalizing l with
  | nil => rfl
  | cons e es ih =>
    rw [List.foldl_cons, ih, List.map_cons, Keyed.collect, Keyed.collect, List.foldl_cons]
    congr 1
    unfold enter record Note.ofEntry
    dsimp only
    cases e.chain.reason <;> rfl

theorem hitTypes_enterAll : (es.foldl (enter program rules) l).hitTypes =
    Keyed.collect Note.namespace? [] Note.addHit (es.map (Note.ofEntry program rules))
      l.hitTypes := by
  induction es generalizing l with
  | nil => rfl
  | cons e es ih =>
    rw [List.foldl_cons, ih, List.map_cons, Keyed.collect, Keyed.collect, List.foldl_cons]
    congr 1
    show hit program l.hitTypes e.chain.destination? = _
    rw [hit_eq]
    unfold Note.namespace? Note.addHit Note.ofEntry
    dsimp only
    cases Note.hitOf program e.chain.destination? <;> rfl

/-! ## Agreement of ledgers -/

/-- Ledgers that say the same about every chain, category, reason, namespace, node and number; what
stands under a namespace or a node may be in another order. -/
structure Agrees (l l' : Ledger) : Prop where
  chainCount : l.chainCount = l'.chainCount
  perCategory : ∀ category, l.perCategory.lookup category = l'.perCategory.lookup category
  perReason : ∀ reason, l.perReason.lookup reason = l'.perReason.lookup reason
  hitTypes : ∀ ns, Option.Rel List.Perm (l.hitTypes.lookup ns) (l'.hitTypes.lookup ns)
  groups : ∀ n, Option.Rel List.Perm (l.groups.lookup n) (l'.groups.lookup n)
  reported : l.reported = l'.reported

theorem reported_enterAll_perm (h : es.Perm es') :
    (es.foldl (enter program rules) l).reported = (es'.foldl (enter program rules) l).reported := by
  have hsize : ∀ es : List Entry,
      (es.foldl (enter program rules) l).reported.size = l.reported.size := by
    intro es
    induction es generalizing l with
    | nil => rfl
    | cons e es ih => rw [List.foldl_cons, ih, size_reported_enter]
  apply Array.ext
  · rw [hsize, hsize]
  · intro i hi hi'
    have hflag : (es.foldl (enter program rules) l).isReported i =
        (es'.foldl (enter program rules) l).isReported i := by
      rw [Bool.eq_iff_iff, isReported_enterAll, isReported_enterAll]
      simp only [h.mem_iff]
    simpa only [isReported, Array.getElem?_eq_getElem hi, Array.getElem?_eq_getElem hi',
      Option.getD_some] using hflag

/-- The order in which chains are entered leaves the ledger the same. -/
theorem agrees_of_perm {size : Nat} {grouping : Grouping} (h : es.Perm es') :
    Agrees (es.foldl (enter program rules) (empty size grouping))
      (es'.foldl (enter program rules) (empty size grouping)) where
  chainCount := by rw [chainCount_enterAll, chainCount_enterAll, h.length_eq]
  perCategory := by
    intro category
    rw [perCategory_enterAll, perCategory_enterAll]
    exact Keyed.lookup_perm (Keyed.collect_perm (h.map _) fun _ =>
      Keyed.collected_count_perm (h.map _)) Keyed.nodup_keys_collect category
  perReason := by
    intro reason
    rw [perReason_enterAll, perReason_enterAll]
    exact Keyed.lookup_perm (Keyed.collect_perm (h.map _) fun _ =>
      Keyed.collected_count_perm (h.map _)) Keyed.nodup_keys_collect reason
  hitTypes := by
    intro ns
    rw [hitTypes_enterAll, hitTypes_enterAll]
    refine Keyed.lookup_collect_rel (h.map _) (fun ns => ?_) ns
    rw [Note.collected_addHit, Note.collected_addHit]
    exact Distinct.ofList_perm fun type => (((h.map _).filter _).filterMap _).mem_iff
  groups := by
    intro n
    rw [groups_enterAll, groups_enterAll]
    refine Keyed.lookup_collect_rel h (fun n => ?_) n
    rw [collected_addTo, collected_addTo]
    exact (h.filter _).map _
  reported := reported_enterAll_perm h

/-! ## Agreement of summaries -/

theorem unreported_congr {l' : Ledger} {s : Snapshot} {known : List Reason}
    (h : l.reported = l'.reported) :
    (l.summarize program s known).unreported = (l'.summarize program s known).unreported := by
  unfold summarize isReported
  rw [h]

theorem sortedCounts_sameUpToTies {counts counts' : List (String × Nat)} (h : counts.Perm counts')
    (known : List String) :
    SameUpToTies Count.count (sortedCounts counts known) (sortedCounts counts' known) := by
  have hknown : ∀ name, (Keyed.keys counts).contains name = (Keyed.keys counts').contains name := by
    intro name
    have hmem : name ∈ Keyed.keys counts ↔ name ∈ Keyed.keys counts' := (h.map Prod.fst).mem_iff
    rw [Bool.eq_iff_iff, List.contains_iff_mem, List.contains_iff_mem, hmem]
  unfold sortedCounts
  simp only [hknown]
  apply SameUpToTies.append
  · exact (SameUpToTies.mergeSort Prod.snd h).map fun _ => rfl
  · exact .refl _ _

theorem namespaceHits_sameUpToTies {hitTypes hitTypes' : List (String × List String)}
    {totals totals' : List (String × Nat)}
    (hhits : (hitTypes.map fun h => (h.1, h.2.length)).Perm
      (hitTypes'.map fun h => (h.1, h.2.length)))
    (htotals : totals.Perm totals') (hkeys : (Keyed.keys totals).Nodup) :
    SameUpToTies NamespaceHits.hitTypes (namespaceHits hitTypes totals)
      (namespaceHits hitTypes' totals') := by
  have hnames : (Keyed.keys hitTypes).Perm (Keyed.keys hitTypes') := by
    have := hhits.map Prod.fst
    rwa [List.map_map, List.map_map] at this
  have hlisted : ∀ ns, (Keyed.keys hitTypes).contains ns = (Keyed.keys hitTypes').contains ns := by
    intro ns
    rw [Bool.eq_iff_iff, List.contains_iff_mem, List.contains_iff_mem, hnames.mem_iff]
  unfold namespaceHits
  apply SameUpToTies.append
  · -- the lines with hits are drawn from the numbers of hits and the totals
    have hlines := hhits.map fun h : String × Nat =>
      NamespaceHits.mk h.1 h.2 ((totals.lookup h.1).getD 0)
    rw [List.map_map, List.map_map] at hlines
    have hlookup : ∀ ns, totals.lookup ns = totals'.lookup ns := Keyed.lookup_perm htotals hkeys
    refine SameUpToTies.mergeSort _ (hlines.trans (List.Perm.of_eq ?_))
    apply List.map_congr_left
    intro h _
    show NamespaceHits.mk h.1 h.2.length ((totals.lookup h.1).getD 0) = _
    rw [hlookup]
  · -- the others have no hits, and so all of them are ties
    simp only [hlisted]
    have hothers := htotals.filter fun total => !(Keyed.keys hitTypes').contains total.1
    constructor
    · exact (((List.mergeSort_perm _ _).trans hothers).trans (List.mergeSort_perm _ _).symm).map _
    · rw [List.map_map, List.map_map]
      have hzero : (NamespaceHits.hitTypes ∘ fun total : String × Nat =>
          NamespaceHits.mk total.1 0 total.2) = fun _ => 0 := rfl
      show List.map (NamespaceHits.hitTypes ∘ fun total : String × Nat =>
          NamespaceHits.mk total.1 0 total.2) _ = List.map (NamespaceHits.hitTypes ∘
            fun total : String × Nat => NamespaceHits.mk total.1 0 total.2) _
      rw [hzero, List.map_const', List.map_const', List.length_mergeSort, List.length_mergeSort,
        hothers.length_eq]

end Ledger

/-- Summaries with the same numbers under the same names, and the names in the same order but for
ties. -/
structure Summary.SameNumbers (s s' : Summary) : Prop where
  methods : s.methods = s'.methods
  entryMethods : s.entryMethods = s'.entryMethods
  interestingMethods : s.interestingMethods = s'.interestingMethods
  chains : s.chains = s'.chains
  chainsPerCategory : SameUpToTies Count.count s.chainsPerCategory s'.chainsPerCategory
  chainsPerReason : SameUpToTies Count.count s.chainsPerReason s'.chainsPerReason
  methodsPerReason : SameUpToTies Count.count s.methodsPerReason s'.methodsPerReason
  namespaces : SameUpToTies NamespaceHits.hitTypes s.namespaces s'.namespaces

/-- Snapshots between which the numbers of a summary see no difference. -/
structure Snapshot.Alike (program program' : Program) (s s' : Snapshot) : Prop where
  types : ((Ledger.methodsOf program s).map (·.declaringType)).Perm
    ((Ledger.methodsOf program' s').map (·.declaringType))
  entries : s.entries.length = s'.entries.length
  interesting : s.interesting.length = s'.interesting.length
  reasons : (s.interesting.filterMap fun i => (s.verdict i).reason).Perm
    (s'.interesting.filterMap fun i => (s'.verdict i).reason)
  namespaces : ∀ type, program.outermostNamespace? type = program'.outermostNamespace? type

namespace Snapshot.Alike

variable {program program' : Program} {s s' : Snapshot}

theorem refl (program : Program) (s : Snapshot) : Alike program program s s :=
  ⟨.refl _, rfl, rfl, .refl _, fun _ => rfl⟩

theorem methodsPerReason_perm (h : Alike program program' s s') :
    (Ledger.methodsPerReason s).Perm (Ledger.methodsPerReason s') := by
  show (Keyed.collect some 0 (fun _ n => n + 1) _ []).Perm
    (Keyed.collect some 0 (fun _ n => n + 1) _ [])
  exact Keyed.collect_perm h.reasons fun _ => Keyed.collected_count_perm h.reasons

theorem totalTypes_eq (program : Program) (s : Snapshot) : Ledger.totalTypes program s =
    Keyed.collect program.outermostNamespace? 0 (fun _ n => n + 1)
      ((Distinct.ofList ((Ledger.methodsOf program s).map (·.declaringType))).filter
        (!·.isEmpty)) [] := by
  unfold Ledger.totalTypes Keyed.collect
  dsimp only
  congr 1
  funext counts type
  cases program.outermostNamespace? type <;> rfl

theorem totalTypes_perm (h : Alike program program' s s') :
    (Ledger.totalTypes program s).Perm (Ledger.totalTypes program' s') := by
  have hnamespaces : program.outermostNamespace? = program'.outermostNamespace? :=
    funext h.namespaces
  have htypes := (Distinct.ofList_perm fun _ => h.types.mem_iff).filter (!·.isEmpty)
  rw [totalTypes_eq, totalTypes_eq, hnamespaces]
  exact Keyed.collect_perm htypes fun _ => Keyed.collected_count_perm htypes

end Snapshot.Alike

/-- Snapshots that are alike and chains of which the same is noted make summaries with the same
numbers. -/
theorem Ledger.summarize_sameNumbers {program program' : Program} {rules rules' : List CategoryRule}
    {es es' : List Entry} {size size' : Nat} {grouping grouping' : Grouping} {s s' : Snapshot}
    (known : List Reason) (hs : s.Alike program program' s')
    (hnotes : (es.map (Note.ofEntry program rules)).Perm (es'.map (Note.ofEntry program' rules'))) :
    Summary.SameNumbers
      ((es.foldl (enter program rules) (empty size grouping)).summarize program s known)
      ((es'.foldl (enter program' rules') (empty size' grouping')).summarize program' s' known) where
  methods := by
    have hlength := hs.types.length_eq
    rwa [List.length_map, List.length_map] at hlength
  entryMethods := hs.entries
  interestingMethods := hs.interesting
  chains := by
    have hlength := hnotes.length_eq
    rw [List.length_map, List.length_map] at hlength
    dsimp only [summarize]
    rw [chainCount_enterAll, chainCount_enterAll, hlength]
    rfl
  chainsPerCategory := by
    dsimp only [summarize]
    rw [perCategory_enterAll, perCategory_enterAll]
    exact sortedCounts_sameUpToTies (Keyed.collect_perm hnotes fun _ =>
      Keyed.collected_count_perm hnotes) []
  chainsPerReason := by
    dsimp only [summarize]
    rw [perReason_enterAll, perReason_enterAll]
    exact sortedCounts_sameUpToTies (Keyed.collect_perm hnotes fun _ =>
      Keyed.collected_count_perm hnotes) known
  methodsPerReason := sortedCounts_sameUpToTies hs.methodsPerReason_perm known
  namespaces := by
    dsimp only [summarize]
    rw [hitTypes_enterAll, hitTypes_enterAll]
    refine namespaceHits_sameUpToTies ?_ hs.totalTypes_perm ?_
    · show (List.map _ (Keyed.collect _ _ _ _ [])).Perm (List.map _ (Keyed.collect _ _ _ _ []))
      rw [Keyed.collect_eq, Keyed.collect_eq, List.map_map, List.map_map]
      -- the same types are hit in a namespace, in whatever order
      have hcount : ∀ ns, (Keyed.collected Note.namespace? [] Note.addHit
          (es.map (Note.ofEntry program rules)) ns).length =
          (Keyed.collected Note.namespace? [] Note.addHit
            (es'.map (Note.ofEntry program' rules')) ns).length := by
        intro ns
        rw [Note.collected_addHit, Note.collected_addHit]
        exact (Distinct.ofList_perm fun _ => ((hnotes.filter _).filterMap _).mem_iff).length_eq
      have hkeys := Distinct.ofList_perm fun ns => (hnotes.filterMap Note.namespace?).mem_iff (a := ns)
      refine (hkeys.map _).trans (List.Perm.of_eq ?_)
      apply List.map_congr_left
      intro ns _
      exact congrArg (Prod.mk ns) (hcount ns)
    · rw [Snapshot.Alike.totalTypes_eq]
      exact Keyed.nodup_keys_collect

end CallAudit

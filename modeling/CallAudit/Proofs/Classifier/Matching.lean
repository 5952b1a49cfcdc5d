import CallAudit.Proofs.Classifier.Reasons
import CallAudit.Proofs.MapM
import Mathlib.Data.Set.Subsingleton

/-!
# Classification by the rules about a method

What is said of a method is a matter of which rules are about it, not of where they stand: rules that
give one reason are heard, rules that give different ones are in conflict, and the place of a rule in
its table only decides which two reasons a conflict names (`classifier_by_matching_rules`).
-/

namespace CallAudit

/-! ## Tables whose rules make sense -/

/-- The place of a rule is only mentioned where the rule makes no sense. -/
theorem Outcome.ofSpec_index {i : Nat} {spec : RuleSpec} {outcome : Outcome}
    (h : Outcome.ofSpec i spec = .ok outcome) (j : Nat) : Outcome.ofSpec j spec = .ok outcome := by
  unfold ofSpec at h ⊢
  split at h
  · exact h
  · split at h
    · next hfamily => rw [if_pos hfamily, h]
    · cases h
  · split at h
    · next hfamily => rw [if_pos hfamily, h]
    · cases h
  · cases h
  · cases h

theorem Rule.ofSpec_index {i : Nat} {spec : RuleSpec} {r : Rule} (h : Rule.ofSpec i spec = .ok r)
    (j : Nat) : Rule.ofSpec j spec = .ok r := by
  unfold ofSpec at h ⊢
  cases htype : NameTest.ofSpec "declaring_type" spec.declaringType spec.declaringTypePattern with
  | error e => rw [htype] at h; cases h
  | ok declaringType =>
    cases hmember : NameTest.ofSpec "member" spec.member spec.memberPattern with
    | error e => rw [htype, hmember] at h; cases h
    | ok member =>
      rw [htype, hmember] at h
      simp only [bind, Except.bind] at h ⊢
      split at h
      · cases h
      next hnamed =>
        rw [if_neg hnamed]
        cases houtcome : Outcome.ofSpec i spec with
        | error e => rw [houtcome] at h; cases h
        | ok outcome =>
          rw [Outcome.ofSpec_index houtcome j]
          rw [houtcome] at h
          exact h

/-- A rule of some families gives a method a reason. -/
structure Rule.Gives (r : Rule) (families : List RuleFamily) (m : Method) (reason : Reason) :
    Prop where
  family : r.family ∈ families
  accepts : r.accepts m = true
  outcome : r.outcome = .interesting reason

namespace RuleSet

variable {t t' : RuleTable} {s s' : RuleSet}

/-- A table makes sense if each of its rules does, and is then the rules, in order. -/
theorem ofTable_ok_iff : ofTable t = .ok s ↔
    ∃ rules, List.Forall₂ (fun spec r => Rule.ofSpec 1 spec = .ok r) t.rules rules ∧
      s = { rules, unanalyzedReason := t.unanalyzedReason } := by
  have htable : ofTable t = ((t.rules.zipIdx 1).mapM fun entry => Rule.ofSpec entry.2 entry.1).map
      fun rules => { rules, unanalyzedReason := t.unanalyzedReason } := rfl
  have hplaces : ∀ rules, ((t.rules.zipIdx 1).mapM fun entry => Rule.ofSpec entry.2 entry.1) =
      .ok rules ↔ List.Forall₂ (fun spec r => Rule.ofSpec 1 spec = .ok r) t.rules rules := by
    intro rules
    conv_rhs => rw [← List.zipIdx_map_fst 1 t.rules]
    rw [mapM_ok_iff, List.forall₂_map_left_iff]
    exact ⟨fun h => h.imp fun _ _ hr => Rule.ofSpec_index hr 1,
      fun h => h.imp fun entry _ hr => Rule.ofSpec_index hr entry.2⟩
  simp only [← hplaces]
  rw [htable]
  cases (t.rules.zipIdx 1).mapM fun entry => Rule.ofSpec entry.2 entry.1 with
  | error e => simp [Except.map]
  | ok rules => simp [Except.map, eq_comm]

theorem exists_ofTable_iff :
    (∃ s, ofTable t = .ok s) ↔ ∀ spec ∈ t.rules, ∃ r, Rule.ofSpec 1 spec = .ok r := by
  rw [← exists_forall₂_iff]
  simp only [ofTable_ok_iff]
  exact ⟨fun ⟨_, rules, h, _⟩ => ⟨rules, h⟩, fun ⟨rules, h⟩ => ⟨_, rules, h, rfl⟩⟩

/-- The rules of a table that makes sense are what its single rules say. -/
theorem mem_rules_iff (h : ofTable t = .ok s) {r : Rule} :
    r ∈ s.rules ↔ ∃ spec ∈ t.rules, Rule.ofSpec 1 spec = .ok r := by
  obtain ⟨rules, hrules, rfl⟩ := ofTable_ok_iff.mp h
  exact mem_forall₂_iff (fun _ _ _ hr hr' => Except.ok.inj (hr.symm.trans hr')) hrules

/-! ## What the rules about a method say -/

/-- Some rule about a method has this outcome. -/
def HasMatch (s : RuleSet) (outcome : Outcome) (m : Method) : Prop :=
  ∃ r ∈ s.rules, r.accepts m = true ∧ r.outcome = outcome

/-- The reasons that the rules of some families give a method. -/
def reasons (s : RuleSet) (families : List RuleFamily) (m : Method) : Set Reason :=
  {reason | ∃ r ∈ s.rules, r.Gives families m reason}

/-- The first reason that rules of some families give a method, in the order of the table, and the first
one that differs from it. -/
structure Clash (s : RuleSet) (families : List RuleFamily) (m : Method) (first second : Reason) :
    Prop where
  differ : first ≠ second
  placed : ∃ before r between r' after, s.rules = before ++ r :: (between ++ r' :: after) ∧
    r.Gives families m first ∧ r'.Gives families m second ∧
    (∀ x ∈ before, ∀ reason, ¬ x.Gives families m reason) ∧
    ∀ x ∈ between, ∀ reason, x.Gives families m reason → reason = first

/-- What follows for the answer if rules of some families give reasons: one is the answer, and different
ones are a conflict. -/
structure AnsweredBy (s : RuleSet) (families : List RuleFamily) (m : Method) (answer : Answer) :
    Prop where
  one : ∀ reason, s.reasons families m = {reason} → answer = .ok (some reason)
  conflict : (s.reasons families m).Nontrivial → ∃ first second,
    s.Clash families m first second ∧ answer = .error (.conflictingReasons m.key first second)

/-- The answer for a method that follows from the rules about it, one case for each precedence. -/
structure Decides (s : RuleSet) (id : MethodId) (m : Method) (answer : Answer) : Prop where
  safe : s.HasMatch .safe m → answer = .ok none
  specific : ¬ s.HasMatch .safe m → s.AnsweredBy [.annotated, .detectedApi] m answer
  unanalyzed : ¬ s.HasMatch .safe m → s.reasons [.annotated, .detectedApi] m = ∅ →
    id ∈ s.unanalyzed → answer = .ok (some s.unanalyzedReason)
  exempt : ¬ s.HasMatch .safe m → s.reasons [.annotated, .detectedApi] m = ∅ →
    id ∉ s.unanalyzed → s.HasMatch .exempt m → answer = .ok none
  broad : ¬ s.HasMatch .safe m → s.reasons [.annotated, .detectedApi] m = ∅ →
    id ∉ s.unanalyzed → ¬ s.HasMatch .exempt m → s.AnsweredBy [.catchAll] m answer
  nothing : ¬ s.HasMatch .safe m → s.reasons [.annotated, .detectedApi] m = ∅ →
    id ∉ s.unanalyzed → ¬ s.HasMatch .exempt m → s.reasons [.catchAll] m = ∅ → answer = .ok none

variable {families : List RuleFamily} {m : Method} {reason first second : Reason} {id : MethodId}

theorem hasOutcome_iff {outcome : Outcome} :
    s.hasOutcome outcome m = true ↔ s.HasMatch outcome m := by
  simp [hasOutcome, HasMatch, and_comm]

/-! ## Reasons in the order of the table -/

/-- The reason that a rule of some families gives a method, if it does. -/
def given? (families : List RuleFamily) (m : Method) (r : Rule) : Option Reason :=
  if families.contains r.family && r.accepts m then r.outcome.reason? else none

theorem given?_eq_some_iff {r : Rule} :
    given? families m r = some reason ↔ r.Gives families m reason := by
  have hreason : r.outcome.reason? = some reason ↔ r.outcome = .interesting reason := by
    cases r.outcome <;> simp [Outcome.reason?]
  unfold given?
  split
  · next h =>
    rw [Bool.and_eq_true, List.contains_iff_mem] at h
    rw [hreason]
    exact ⟨fun houtcome => ⟨h.1, h.2, houtcome⟩, fun hgives => hgives.outcome⟩
  · next h =>
    refine ⟨fun hnone => (Option.some_ne_none reason hnone.symm).elim, fun hgives => absurd ?_ h⟩
    rw [Bool.and_eq_true, List.contains_iff_mem]
    exact ⟨hgives.family, hgives.accepts⟩

theorem given?_eq_none_iff {r : Rule} :
    given? families m r = none ↔ ∀ reason, ¬ r.Gives families m reason := by
  simp only [← given?_eq_some_iff, Option.eq_none_iff_forall_ne_some, ne_eq]

theorem reasonsFor_eq : s.reasonsFor families m = s.rules.filterMap (given? families m) := by
  rw [reasonsFor, List.filterMap_filter]
  rfl

theorem mem_reasonsFor : reason ∈ s.reasonsFor families m ↔ reason ∈ s.reasons families m := by
  rw [reasonsFor_eq, List.mem_filterMap]
  simp only [given?_eq_some_iff]
  rfl

/-- Where the reasons stand in the list, the rules that give them stand in the table. -/
theorem clash_of_reasonsFor {rest : List Reason} (h : s.reasonsFor families m = first :: rest)
    (hsecond : rest.find? (· != first) = some second) : s.Clash families m first second := by
  rw [reasonsFor_eq, List.filterMap_eq_cons_iff] at h
  obtain ⟨before, r, later, hrules, hbefore, hr, rfl⟩ := h
  -- the rules between are those with the first reason again, and silent ones
  obtain ⟨hdiffer, as, bs, hrest, has⟩ := List.find?_eq_some_iff_append.mp hsecond
  obtain ⟨between, later', rfl, hbetween, hlater⟩ := List.filterMap_eq_append_iff.mp hrest
  obtain ⟨silent, r', after, rfl, hsilent, hr', -⟩ := List.filterMap_eq_cons_iff.mp hlater
  refine ⟨(bne_iff_ne.mp hdiffer).symm, before, r, between ++ silent, r', after, ?_, ?_, ?_, ?_, ?_⟩
  · rw [hrules, List.append_assoc]
  · exact given?_eq_some_iff.mp hr
  · exact given?_eq_some_iff.mp hr'
  · exact fun x hx => given?_eq_none_iff.mp (hbefore x hx)
  · intro x hx reason hgives
    rcases List.mem_append.mp hx with hx | hx
    · have hmem : reason ∈ as := by
        rw [← hbetween]
        exact List.mem_filterMap.mpr ⟨x, hx, given?_eq_some_iff.mpr hgives⟩
      simpa using has reason hmem
    · exact absurd hgives (given?_eq_none_iff.mp (hsilent x hx) reason)

theorem answeredBy_agreed : s.AnsweredBy families m (agreed m (s.reasonsFor families m)) := by
  have hmem : ∀ reason, reason ∈ s.reasonsFor families m ↔ reason ∈ s.reasons families m :=
    fun _ => mem_reasonsFor
  cases hlist : s.reasonsFor families m with
  | nil =>
    rw [hlist] at hmem
    constructor
    case one =>
      intro reason hone
      exact absurd ((hmem reason).mpr (hone ▸ Set.mem_singleton reason)) (by simp)
    case conflict =>
      rintro ⟨reason, hreason, -⟩
      exact absurd ((hmem reason).mpr hreason) (by simp)
  | cons first rest =>
    rw [hlist] at hmem
    have hfirst : first ∈ s.reasons families m := (hmem first).mp List.mem_cons_self
    rw [agreed]
    cases hsecond : rest.find? (· != first) with
    | none =>
      have hsame : ∀ reason ∈ s.reasons families m, reason = first := by
        intro reason hreason
        rcases List.mem_cons.mp ((hmem reason).mpr hreason) with rfl | hrest
        · rfl
        · simpa using List.find?_eq_none.mp hsecond reason hrest
      constructor
      case one =>
        intro reason hone
        obtain rfl : first = reason := by
          rw [hone] at hfirst
          exact hfirst
        rfl
      case conflict =>
        rintro ⟨a, ha, b, hb, hne⟩
        exact absurd ((hsame a ha).trans (hsame b hb).symm) hne
    | some second =>
      have hclash := clash_of_reasonsFor hlist hsecond
      constructor
      case one =>
        intro reason hone
        have hmem' : second ∈ s.reasons families m :=
          (hmem second).mp (List.mem_cons_of_mem first (List.mem_of_find?_eq_some hsecond))
        rw [hone] at hfirst hmem'
        exact absurd (hfirst.trans hmem'.symm) hclash.differ
      case conflict => exact fun _ => ⟨first, second, hclash, rfl⟩

theorem AnsweredBy.of_no_reason {answer : Answer} (h : s.reasons families m = ∅) :
    s.AnsweredBy families m answer where
  one := by
    intro reason hone
    rw [h] at hone
    exact absurd hone.symm (Set.singleton_ne_empty reason)
  conflict := by
    intro hseveral
    rw [h] at hseveral
    exact absurd hseveral Set.not_nontrivial_empty

theorem agreed_eq_none_iff :
    agreed m (s.reasonsFor families m) = .ok none ↔ s.reasons families m = ∅ := by
  constructor
  · intro hnone
    by_contra hreasons
    have hanswered : s.AnsweredBy families m (agreed m (s.reasonsFor families m)) :=
      answeredBy_agreed
    rcases (Set.nonempty_iff_ne_empty.mpr hreasons).exists_eq_singleton_or_nontrivial with
      ⟨reason, hone⟩ | hseveral
    · cases hnone.symm.trans (hanswered.one reason hone)
    · obtain ⟨first, second, -, hconflict⟩ := hanswered.conflict hseveral
      cases hnone.symm.trans hconflict
  · intro h
    have hnil : s.reasonsFor families m = [] := by
      refine List.eq_nil_iff_forall_not_mem.mpr fun reason hreason => ?_
      have hmem := mem_reasonsFor.mp hreason
      rw [h] at hmem
      exact hmem
    rw [hnil, agreed]

theorem nontrivial_of_agreed_error {e : AuditError}
    (h : agreed m (s.reasonsFor families m) = .error e) : (s.reasons families m).Nontrivial := by
  have hanswered : s.AnsweredBy families m (agreed m (s.reasonsFor families m)) := answeredBy_agreed
  have hreasons : s.reasons families m ≠ ∅ := by
    intro hnone
    cases h.symm.trans (agreed_eq_none_iff.mpr hnone)
  refine (Set.nonempty_iff_ne_empty.mpr hreasons).exists_eq_singleton_or_nontrivial.resolve_left ?_
  rintro ⟨reason, hone⟩
  cases h.symm.trans (hanswered.one reason hone)

/-! ## One case for each precedence -/

theorem reasonFor_of_safe (h : s.HasMatch .safe m) : s.reasonFor id m = .ok none := by
  rw [reasonFor, if_pos (hasOutcome_iff.mpr h)]

theorem reasonFor_of_specific (hsafe : ¬ s.HasMatch .safe m)
    (h : s.reasons [.annotated, .detectedApi] m ≠ ∅) :
    s.reasonFor id m = agreed m (s.reasonsFor [.annotated, .detectedApi] m) := by
  rw [reasonFor, if_neg (mt hasOutcome_iff.mp hsafe)]
  have hsome := mt agreed_eq_none_iff.mp h
  generalize agreed m (s.reasonsFor [.annotated, .detectedApi] m) = answer at hsome ⊢
  cases answer with
  | error e => rfl
  | ok found =>
    cases found with
    | none => exact absurd rfl hsome
    | some reason => rfl

theorem reasonFor_of_silent (hsafe : ¬ s.HasMatch .safe m)
    (h : s.reasons [.annotated, .detectedApi] m = ∅) : s.reasonFor id m =
      if s.unanalyzed.contains id then .ok (some s.unanalyzedReason)
      else if s.hasOutcome .exempt m then .ok none
      else agreed m (s.reasonsFor [.catchAll] m) := by
  rw [reasonFor, if_neg (mt hasOutcome_iff.mp hsafe), agreed_eq_none_iff.mpr h]

/-- The answer about a method is the one that the rules about it decide. -/
theorem decides_reasonFor : s.Decides id m (s.reasonFor id m) where
  safe := reasonFor_of_safe
  specific := by
    intro hsafe
    by_cases h : s.reasons [.annotated, .detectedApi] m = ∅
    · exact .of_no_reason h
    · rw [reasonFor_of_specific hsafe h]
      exact answeredBy_agreed
  unanalyzed := by
    intro hsafe hsilent hid
    rw [reasonFor_of_silent hsafe hsilent, if_pos (List.contains_iff_mem.mpr hid)]
  exempt := by
    intro hsafe hsilent hid hexempt
    rw [reasonFor_of_silent hsafe hsilent, if_neg (mt List.contains_iff_mem.mp hid),
      if_pos (hasOutcome_iff.mpr hexempt)]
  broad := by
    intro hsafe hsilent hid hexempt
    rw [reasonFor_of_silent hsafe hsilent, if_neg (mt List.contains_iff_mem.mp hid),
      if_neg (mt hasOutcome_iff.mp hexempt)]
    exact answeredBy_agreed
  nothing := by
    intro hsafe hsilent hid hexempt hnothing
    rw [reasonFor_of_silent hsafe hsilent, if_neg (mt List.contains_iff_mem.mp hid),
      if_neg (mt hasOutcome_iff.mp hexempt), agreed_eq_none_iff.mpr hnothing]

/-! ## Tables of the same rules -/

/-- Answers that differ at most in the reasons that a conflict names. -/
inductive Alike : Answer → Answer → Prop
  | ok (found : Option Reason) : Alike (.ok found) (.ok found)
  | conflict (key : String) (first second first' second' : Reason) :
      Alike (.error (.conflictingReasons key first second))
        (.error (.conflictingReasons key first' second'))

theorem AnsweredBy.alike {answer answer' : Answer} (h : s.AnsweredBy families m answer)
    (h' : s'.AnsweredBy families m answer') (hsame : s'.reasons families m = s.reasons families m)
    (hreasons : s.reasons families m ≠ ∅) : Alike answer answer' := by
  rcases (Set.nonempty_iff_ne_empty.mpr hreasons).exists_eq_singleton_or_nontrivial with
    ⟨reason, hone⟩ | hseveral
  · rw [h.one reason hone, h'.one reason (hsame.trans hone)]
    exact .ok (some reason)
  · obtain ⟨first, second, -, rfl⟩ := h.conflict hseveral
    rw [← hsame] at hseveral
    obtain ⟨first', second', -, rfl⟩ := h'.conflict hseveral
    exact .conflict m.key first second first' second'

/-- What rules decide does not depend on where they stand in their table, or how often. -/
theorem Decides.alike {answer answer' : Answer} (h : s.Decides id m answer)
    (h' : s'.Decides id m answer') (hrules : ∀ r, r ∈ s'.rules ↔ r ∈ s.rules)
    (hreason : s'.unanalyzedReason = s.unanalyzedReason) (hunanalyzed : s'.unanalyzed = s.unanalyzed) :
    Alike answer answer' := by
  have hmatch : ∀ outcome, s'.HasMatch outcome m ↔ s.HasMatch outcome m := fun outcome =>
    exists_congr fun r => and_congr_left' (hrules r)
  have hreasons : ∀ families, s'.reasons families m = s.reasons families m := fun families =>
    Set.ext fun reason => exists_congr fun r => and_congr_left' (hrules r)
  -- both tables come to the same precedence, which is the first that decides
  by_cases hsafe : s.HasMatch .safe m
  · rw [h.safe hsafe, h'.safe ((hmatch _).mpr hsafe)]
    exact .ok none
  have hsafe' := mt (hmatch _).mp hsafe
  by_cases hsilent : s.reasons [.annotated, .detectedApi] m = ∅
  swap
  · exact (h.specific hsafe).alike (h'.specific hsafe') (hreasons _) hsilent
  have hsilent' := (hreasons _).trans hsilent
  by_cases hid : id ∈ s.unanalyzed
  · rw [h.unanalyzed hsafe hsilent hid, h'.unanalyzed hsafe' hsilent' (hunanalyzed ▸ hid), hreason]
    exact .ok _
  have hid' : id ∉ s'.unanalyzed := hunanalyzed ▸ hid
  by_cases hexempt : s.HasMatch .exempt m
  · rw [h.exempt hsafe hsilent hid hexempt,
      h'.exempt hsafe' hsilent' hid' ((hmatch _).mpr hexempt)]
    exact .ok none
  have hexempt' := mt (hmatch _).mp hexempt
  by_cases hnothing : s.reasons [.catchAll] m = ∅
  · rw [h.nothing hsafe hsilent hid hexempt hnothing,
      h'.nothing hsafe' hsilent' hid' hexempt' ((hreasons _).trans hnothing)]
    exact .ok none
  · exact (h.broad hsafe hsilent hid hexempt).alike (h'.broad hsafe' hsilent' hid' hexempt')
      (hreasons _) hnothing

/-- The classifier answers about the method that has the number. -/
theorem decides_reason? {program : Program} (h : program.method? id = some m) :
    s.Decides id m (s.classifier.reason? program id) := by
  rw [reason?_of_row h]
  exact decides_reasonFor

end RuleSet

end CallAudit

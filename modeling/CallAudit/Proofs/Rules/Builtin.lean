import CallAudit.Proofs.Rules.Outline
import CallAudit.Rules.Builtin

/-!
# The rules at hand, and where they contradict themselves

The rules at hand make sense, and agree about every method but those of `System.Delegate` that are
given both a `MethodInfo` and the name of a method as a text: these are in a broad bucket for
overloads that take a text and in another for those that take a `MethodInfo`
(`builtin_contradicts_itself`).
-/

namespace CallAudit

namespace Builtin

/-! ## Rules about other types -/

/-- The rules before those about `System.Delegate`. -/
def beforeDelegate : List RuleSpec := activator ++ appDomain

/-- The rules after those about `System.Delegate`. -/
def afterDelegate : List RuleSpec :=
  systemType ++ assembly ++ attributesAndMembers ++ emit ++ resources ++ interopServices ++ loader ++
    serialization ++ linqExpressions ++ dynamicBinding ++ activation ++ eventSource ++
    componentModel ++ attributeAnnotations ++ data ++ xml ++ jsonAndCryptography

theorem rules_eq : RuleTable.builtin.rules = beforeDelegate ++ (delegate ++ afterDelegate) := by
  simp only [RuleTable.builtin, beforeDelegate, afterDelegate, List.append_assoc]

/-- How the full name of `System.Delegate` is written. -/
def delegateStem : Stem := ⟨"System.Delegate".toList, true⟩

/-- Whether the rules about other types are clear of each other, and of `System.Delegate`. -/
def othersClear (outlines : List Outline) : Bool :=
  Outline.allClear outlines && outlines.all fun o => Outline.namesApart o.types [delegateStem]

/-- Whether rules make sense and are about other types, and are clear of each other. -/
def readClear (specs : List RuleSpec) : Option Bool :=
  (specs.mapM Outline.ofSpec?).map othersClear

theorem othersClear_append {as bs : List Outline} : othersClear (as ++ bs) = true ↔
    othersClear as = true ∧ othersClear bs = true ∧ ∀ a ∈ as, ∀ b ∈ bs, a.clear b = true := by
  simp only [othersClear, Bool.and_eq_true, Outline.allClear_iff_pairwise, List.pairwise_append,
    List.all_append]
  tauto

theorem readClear_append {ps qs : List RuleSpec} : readClear (ps ++ qs) = some true ↔
    ∃ as bs, ps.mapM Outline.ofSpec? = some as ∧ qs.mapM Outline.ofSpec? = some bs ∧
      othersClear (as ++ bs) = true := by
  rw [readClear, List.mapM_append]
  cases ps.mapM Outline.ofSpec? <;> cases qs.mapM Outline.ofSpec? <;> simp

/-- Of three lists of rules it is enough to look at two at a time. -/
theorem readClear_of_pairs {ps qs rs : List RuleSpec} (hpq : readClear (ps ++ qs) = some true)
    (hqr : readClear (qs ++ rs) = some true) (hpr : readClear (ps ++ rs) = some true) :
    readClear (ps ++ (qs ++ rs)) = some true := by
  obtain ⟨as, bs, has, hbs, hab⟩ := readClear_append.mp hpq
  obtain ⟨bs', cs, hbs', hcs, hbc⟩ := readClear_append.mp hqr
  obtain ⟨as', cs', has', hcs', hac⟩ := readClear_append.mp hpr
  -- a list of rules has the same outlines in both of its pairs
  obtain rfl := Option.some.inj (hbs.symm.trans hbs')
  obtain rfl := Option.some.inj (has.symm.trans has')
  obtain rfl := Option.some.inj (hcs.symm.trans hcs')
  have hbcs : (qs ++ rs).mapM Outline.ofSpec? = some (bs ++ cs) := by
    rw [List.mapM_append, hbs, hcs]
    rfl
  obtain ⟨hfirst, -, hsecond⟩ := othersClear_append.mp hab
  obtain ⟨-, -, hlast⟩ := othersClear_append.mp hac
  refine readClear_append.mpr ⟨as, bs ++ cs, has, hbcs,
    othersClear_append.mpr ⟨hfirst, hbc, fun a ha o ho => ?_⟩⟩
  rcases List.mem_append.mp ho with ho | ho
  · exact hsecond a ha o ho
  · exact hlast a ha o ho

/-- The first third of the rules about other types. -/
def firstThird : List RuleSpec :=
  activator ++ appDomain ++ systemType ++ assembly ++ attributesAndMembers ++ emit ++ resources

/-- The second third of the rules about other types. -/
def secondThird : List RuleSpec := interopServices ++ loader ++ serialization ++ linqExpressions

/-- The last third of the rules about other types. -/
def lastThird : List RuleSpec :=
  dynamicBinding ++ activation ++ eventSource ++ componentModel ++ attributeAnnotations ++ data ++
    xml ++ jsonAndCryptography

theorem others_eq :
    beforeDelegate ++ afterDelegate = firstThird ++ (secondThird ++ lastThird) := by
  simp only [beforeDelegate, afterDelegate, firstThird, secondThird, lastThird, List.append_assoc]

-- two thirds at a time and one after the other, since a single evaluation over all rules, or several
-- side by side, would grow too large to be kept in memory
theorem pairs_clear : readClear (firstThird ++ secondThird) = some true ∧
    readClear (secondThird ++ lastThird) = some true ∧
      readClear (firstThird ++ lastThird) = some true := by
  refine ⟨?_, ?_, ?_⟩
  · decide +kernel
  · decide +kernel
  · decide +kernel

theorem others_clear : readClear (beforeDelegate ++ afterDelegate) = some true := by
  obtain ⟨hfirst, hlast, hacross⟩ := pairs_clear
  rw [others_eq]
  exact readClear_of_pairs hfirst hlast hacross

theorem exists_outlines : ∃ outlines : List Outline, othersClear outlines = true ∧
    ∀ spec ∈ beforeDelegate ++ afterDelegate, ∃ o ∈ outlines, ∃ r,
      Rule.ofSpec 1 spec = .ok r ∧ r.Fits o := by
  obtain ⟨outlines, houtlines, hclear⟩ := Option.map_eq_some_iff.mp others_clear
  refine ⟨outlines, hclear, fun spec hspec => ?_⟩
  have hmem : Outline.ofSpec? spec ∈ outlines.map some :=
    map_of_mapM_some houtlines ▸ List.mem_map_of_mem hspec
  obtain ⟨o, ho, houtline⟩ := List.mem_map.mp hmem
  exact ⟨o, ho, Outline.exists_rule houtline.symm⟩

/-! ## Rules about `System.Delegate` -/

/-- The pattern for the members that make delegates. -/
def makers : String := "^(\\.ctor|CreateDelegate)$"

/-- A pattern occurs in the names of these members and in no others. -/
def ForMakers (p : Pattern) : Prop :=
  ∀ name, p.occursIn name = true ↔ name = ".ctor" ∨ name = "CreateDelegate"

theorem exists_makers : ∃ p, Pattern.read makers = some p ∧ ForMakers p := by
  have hread : (Pattern.read makers).map (fun p =>
      (p.textStems, p.occursIn ".ctor", p.occursIn "CreateDelegate")) =
        some ([⟨".ctor".toList, true⟩, ⟨"CreateDelegate".toList, true⟩], true, true) := by
    decide +kernel
  obtain ⟨p, hp, hstems⟩ := Option.map_eq_some_iff.mp hread
  obtain ⟨hstems, hctor, hcreate⟩ : p.textStems = _ ∧ p.occursIn ".ctor" = true ∧
      p.occursIn "CreateDelegate" = true := by simpa using hstems
  refine ⟨p, hp, fun name => ⟨fun hname => ?_, ?_⟩⟩
  · obtain ⟨s, hs, hcovers⟩ := Pattern.exists_stem_of_occursIn hname
    rw [hstems] at hs
    -- both stems are whole names
    rcases List.mem_pair.mp hs with rfl | rfl
    · exact Or.inl (String.toList_injective (hcovers.eq_word rfl))
    · exact Or.inr (String.toList_injective (hcovers.eq_word rfl))
  · rintro (rfl | rfl)
    · exact hctor
    · exact hcreate

/-- The rule for overloads whose third parameter is a text. -/
def thirdIsText (p : Pattern) : Rule where
  declaringType := .exactly "System.Delegate"
  member := .matching p
  parameterTypes := some ["*", "*", "System.String"]
  family := .catchAll
  outcome := .interesting "KnownReflection"

/-- The rule for constructors with two parameters, the second of which is a text. -/
def secondIsText : Rule where
  declaringType := .exactly "System.Delegate"
  member := .exactly ".ctor"
  parameters := some [2]
  parameterTypes := some ["*", "System.String"]
  family := .catchAll
  outcome := .interesting "KnownReflection"

/-- The rule for overloads that take a `MethodInfo`. -/
def takesMethod (p : Pattern) : Rule where
  declaringType := .exactly "System.Delegate"
  member := .matching p
  anyParameterType := some "System.Reflection.MethodInfo"
  family := .catchAll
  outcome := .interesting "ToInvestigate"

theorem forall₂_delegate {p : Pattern} (hp : Pattern.read makers = some p) :
    List.Forall₂ (fun spec r => Rule.ofSpec 1 spec = .ok r) delegate
      [thirdIsText p, secondIsText, takesMethod p] := by
  have hmember : NameTest.ofSpec "member" none (some makers) = .ok (.matching p) := by
    rw [NameTest.ofSpec, hp]
  unfold makers at hmember
  refine .cons ?_ (.cons rfl (.cons ?_ .nil))
  · simp only [Rule.ofSpec, hmember]
    rfl
  · simp only [Rule.ofSpec, hmember]
    rfl

/-! ## What the rules are about -/

/-- A method of `System.Delegate` that is given a `MethodInfo`, and the name of a method as a text where
overloads that look it up take it. -/
structure Overlap (m : Method) : Prop where
  type : m.declaringType = "System.Delegate"
  name : m.name = ".ctor" ∨ m.name = "CreateDelegate"
  method : "System.Reflection.MethodInfo" ∈ m.parameters.map (·.typeName)
  text : (m.parameters.map (·.typeName))[2]? = some "System.String" ∨
    m.name = ".ctor" ∧ m.parameters.length = 2 ∧
      (m.parameters.map (·.typeName))[1]? = some "System.String"

/-- Stars before a type leave open what the parameters before it are. -/
theorem leadingTypesMatch_stars {wanted : String} (hwanted : wanted ≠ "*") (n : Nat)
    (types : List String) :
    Rule.leadingTypesMatch (List.replicate n "*" ++ [wanted]) types = true ↔
      types[n]? = some wanted := by
  induction n generalizing types with
  | zero =>
    cases types with
    | nil => simp [Rule.leadingTypesMatch]
    | cons type types =>
      have hmatch : Rule.leadingTypesMatch [wanted] (type :: types) = (wanted == type) := by
        simp [Rule.leadingTypesMatch, hwanted]
      rw [List.replicate_zero, List.nil_append, hmatch, List.getElem?_cons_zero, beq_iff_eq,
        Option.some_inj, eq_comm]
  | succ n ih =>
    cases types with
    | nil => simp [Rule.leadingTypesMatch, List.replicate_succ]
    | cons type types =>
      rw [List.replicate_succ, List.cons_append, Rule.leadingTypesMatch, List.getElem?_cons_succ,
        ← ih]
      simp

theorem exactly_accepts {wanted name : String} :
    (NameTest.exactly wanted).accepts name = true ↔ name = wanted := by
  rw [NameTest.accepts, beq_iff_eq, eq_comm]

variable {p : Pattern} {m : Method}

theorem secondIsText_accepts : secondIsText.accepts m = true ↔
    m.declaringType = "System.Delegate" ∧ m.name = ".ctor" ∧ m.parameters.length = 2 ∧
      (m.parameters.map (·.typeName))[1]? = some "System.String" := by
  rw [Rule.accepts_iff, secondIsText, exactly_accepts, exactly_accepts,
    ← leadingTypesMatch_stars (by decide)]
  simp only [Option.all_none, Option.all_some, and_true, List.contains_iff_mem, List.mem_singleton]
  rfl

section

variable (hp : ForMakers p)
include hp

theorem thirdIsText_accepts : (thirdIsText p).accepts m = true ↔
    m.declaringType = "System.Delegate" ∧ (m.name = ".ctor" ∨ m.name = "CreateDelegate") ∧
      (m.parameters.map (·.typeName))[2]? = some "System.String" := by
  rw [Rule.accepts_iff, thirdIsText, exactly_accepts, NameTest.accepts, hp m.name,
    ← leadingTypesMatch_stars (by decide)]
  simp only [Option.all_none, Option.all_some, and_true, true_and]
  rfl

theorem takesMethod_accepts : (takesMethod p).accepts m = true ↔
    m.declaringType = "System.Delegate" ∧ (m.name = ".ctor" ∨ m.name = "CreateDelegate") ∧
      "System.Reflection.MethodInfo" ∈ m.parameters.map (·.typeName) := by
  rw [Rule.accepts_iff, takesMethod, exactly_accepts, NameTest.accepts, hp m.name,
    ← List.contains_iff_mem]
  simp only [Option.all_none, Option.all_some, true_and]

/-- A method is in the bucket for texts and in the one for `MethodInfo` if and only if it is given
both. -/
theorem overlap_iff : Overlap m ↔ (takesMethod p).accepts m = true ∧
    ((thirdIsText p).accepts m = true ∨ secondIsText.accepts m = true) := by
  rw [takesMethod_accepts hp, thirdIsText_accepts hp, secondIsText_accepts]
  constructor
  · rintro ⟨htype, hname, hmethod, htext | htext⟩
    · exact ⟨⟨htype, hname, hmethod⟩, Or.inl ⟨htype, hname, htext⟩⟩
    · exact ⟨⟨htype, hname, hmethod⟩, Or.inr ⟨htype, htext⟩⟩
  · rintro ⟨⟨htype, hname, hmethod⟩, ⟨-, -, htext⟩ | ⟨-, htext⟩⟩
    · exact ⟨htype, hname, hmethod, Or.inl htext⟩
    · exact ⟨htype, hname, hmethod, Or.inr htext⟩

end

/-! ## The table -/

/-- What is made of the table: rules about other types, and between them those about
`System.Delegate`. -/
structure Compiled (s : RuleSet) (outlines : List Outline) (p : Pattern) (before after : List Rule) :
    Prop where
  rules : s.rules = before ++ ([thirdIsText p, secondIsText, takesMethod p] ++ after)
  clear : othersClear outlines = true
  fits : ∀ r ∈ before ++ after, ∃ o ∈ outlines, r.Fits o
  makers : ForMakers p

theorem exists_compiled : ∃ s, RuleSet.ofTable .builtin = .ok s ∧
    ∃ outlines p before after, Compiled s outlines p before after := by
  obtain ⟨p, hp, hmakers⟩ := exists_makers
  obtain ⟨outlines, hclear, hothers⟩ := exists_outlines
  -- that a rule makes sense and that it fits an outline is one relation, so that the rules before and
  -- after are split off once
  let R (spec : RuleSpec) (r : Rule) : Prop :=
    Rule.ofSpec 1 spec = .ok r ∧ ∃ o ∈ outlines, r.Fits o
  have hR : Relator.RightUnique R := fun _ _ _ hr hr' => Except.ok.inj (hr.1.symm.trans hr'.1)
  have hexists : ∀ spec ∈ beforeDelegate ++ afterDelegate, ∃ r, R spec r := by
    intro spec hspec
    obtain ⟨o, ho, r, hr, hfits⟩ := hothers spec hspec
    exact ⟨r, hr, o, ho, hfits⟩
  obtain ⟨others, hothers⟩ := exists_forall₂_iff.mpr hexists
  obtain ⟨before, after, hbefore, hafter, rfl⟩ := forall₂_append_left_iff.mp hothers
  refine ⟨{ rules := before ++ ([thirdIsText p, secondIsText, takesMethod p] ++ after),
            unanalyzedReason := RuleTable.builtin.unanalyzedReason },
    RuleSet.ofTable_ok_iff.mpr ⟨_, ?_, rfl⟩, outlines, p, before, after, rfl, hclear, ?_, hmakers⟩
  · rw [rules_eq]
    exact List.rel_append (hbefore.imp fun _ _ => And.left)
      (List.rel_append (forall₂_delegate hp) (hafter.imp fun _ _ => And.left))
  · intro r hr
    obtain ⟨spec, -, hspec⟩ := (mem_forall₂_iff hR hothers).mp hr
    exact hspec.2

namespace Compiled

variable {s : RuleSet} {outlines : List Outline} {p : Pattern} {before after : List Rule} {m : Method}
  {families : List RuleFamily} {r r' : Rule} {x y : Reason} {id : MethodId}
  (h : Compiled s outlines p before after)
include h

/-- No rule about another type is about `System.Delegate`. -/
theorem not_accepts (hr : r ∈ before ++ after) (hm : m.declaringType = "System.Delegate") :
    r.accepts m = false := by
  obtain ⟨o, ho, hfits⟩ := h.fits r hr
  have hapart : Outline.namesApart o.types [delegateStem] = true :=
    List.all_eq_true.mp (Bool.and_eq_true_iff.mp h.clear).2 o ho
  by_contra haccepts
  rw [Bool.not_eq_false] at haccepts
  obtain ⟨s, hs, hcovers⟩ := hfits.type _ (Rule.accepts_iff.mp haccepts).1
  rw [hm] at hcovers
  exact Outline.not_covers_of_namesApart hapart ⟨s, hs, hcovers⟩
    ⟨delegateStem, List.mem_singleton.mpr rfl, Stem.covers_self _⟩

/-- Rules about other types agree. -/
theorem same_reason (hr : r ∈ before ++ after) (hr' : r' ∈ before ++ after)
    (hfamilies : DecideTogether families) (hg : r.Gives families m x) (hg' : r'.Gives families m y) :
    x = y := by
  obtain ⟨o, ho, hfits⟩ := h.fits r hr
  obtain ⟨o', ho', hfits'⟩ := h.fits r' hr'
  exact Outline.agree_of_allClear (Bool.and_eq_true_iff.mp h.clear).1 ho ho' r r' families m x y
    hfits hfits' hfamilies hg hg'

theorem mem_rules : r ∈ s.rules ↔
    r ∈ before ++ after ∨ r = thirdIsText p ∨ r = secondIsText ∨ r = takesMethod p := by
  rw [h.rules]
  simp only [List.mem_append, List.mem_cons, List.not_mem_nil, or_false]
  tauto

/-- What a rule says of a method of `System.Delegate`. -/
theorem reason_of_gives (hm : m.declaringType = "System.Delegate") (hr : r ∈ s.rules)
    (hg : r.Gives families m x) :
    x = "KnownReflection" ∧ ((thirdIsText p).accepts m = true ∨ secondIsText.accepts m = true) ∨
      x = "ToInvestigate" ∧ (takesMethod p).accepts m = true := by
  have haccepts := hg.accepts
  have houtcome := hg.outcome
  rcases h.mem_rules.mp hr with hother | rfl | rfl | rfl
  · rw [h.not_accepts hother hm] at haccepts
    cases haccepts
  · exact Or.inl ⟨(Outcome.interesting.inj houtcome).symm, Or.inl haccepts⟩
  · exact Or.inl ⟨(Outcome.interesting.inj houtcome).symm, Or.inr haccepts⟩
  · exact Or.inr ⟨(Outcome.interesting.inj houtcome).symm, haccepts⟩

/-- A rule that is about a method of another type is one of the others. -/
theorem mem_others (hm : m.declaringType ≠ "System.Delegate") (hr : r ∈ s.rules)
    (haccepts : r.accepts m = true) : r ∈ before ++ after := by
  have htype := (Rule.accepts_iff.mp haccepts).1
  rcases h.mem_rules.mp hr with hother | rfl | rfl | rfl
  · exact hother
  all_goals exact absurd (exactly_accepts.mp htype) hm

/-- Rules that do not agree about a method are for buckets that overlap there. -/
theorem overlap_of_gives (hr : r ∈ s.rules) (hr' : r' ∈ s.rules) (hfamilies : DecideTogether families)
    (hg : r.Gives families m x) (hg' : r'.Gives families m y) (hne : x ≠ y) : Overlap m := by
  by_cases hm : m.declaringType = "System.Delegate"
  · rw [overlap_iff h.makers]
    rcases h.reason_of_gives hm hr hg with ⟨rfl, htext⟩ | ⟨rfl, hmethod⟩ <;>
      rcases h.reason_of_gives hm hr' hg' with ⟨rfl, htext'⟩ | ⟨rfl, hmethod'⟩
    · exact absurd rfl hne
    · exact ⟨hmethod', htext⟩
    · exact ⟨hmethod, htext'⟩
    · exact absurd rfl hne
  · exact absurd (h.same_reason (h.mem_others hm hr hg.accepts) (h.mem_others hm hr' hg'.accepts)
      hfamilies hg hg') hne

/-- Methods of `System.Delegate` are neither safe nor kept out of the buckets. -/
theorem not_hasOutcome (hm : m.declaringType = "System.Delegate") {outcome : Outcome}
    (houtcome : ∀ reason, outcome ≠ .interesting reason) : ¬ s.hasOutcome outcome m = true := by
  rw [RuleSet.hasOutcome_iff]
  rintro ⟨r, hr, haccepts, rfl⟩
  rcases h.mem_rules.mp hr with hother | rfl | rfl | rfl
  · rw [h.not_accepts hother hm] at haccepts
    cases haccepts
  all_goals exact houtcome _ rfl

/-- Only the rules about `System.Delegate` give reasons for its methods. -/
theorem reasonsFor_delegate (hm : m.declaringType = "System.Delegate") :
    s.reasonsFor families m =
      [thirdIsText p, secondIsText, takesMethod p].filterMap (RuleSet.given? families m) := by
  have hsilent : ∀ r ∈ before ++ after, RuleSet.given? families m r = none := by
    intro r hr
    rw [RuleSet.given?, h.not_accepts hr hm, Bool.and_false]
    rfl
  have hbefore : before.filterMap (RuleSet.given? families m) = [] :=
    List.filterMap_eq_nil_iff.mpr fun r hr => hsilent r (List.mem_append_left after hr)
  have hafter : after.filterMap (RuleSet.given? families m) = [] :=
    List.filterMap_eq_nil_iff.mpr fun r hr => hsilent r (List.mem_append_right before hr)
  rw [RuleSet.reasonsFor_eq, h.rules, List.filterMap_append, List.filterMap_append, hbefore, hafter,
    List.nil_append, List.append_nil]

/-- A method in both buckets is given the reason of either, that of the bucket for texts first. -/
theorem agreed_of_overlap (hm : Overlap m) :
    RuleSet.agreed m (s.reasonsFor [.catchAll] m) =
      .error (.conflictingReasons m.key "KnownReflection" "ToInvestigate") := by
  obtain ⟨hmethod, htext⟩ := (overlap_iff h.makers).mp hm
  have hthird : RuleSet.given? [.catchAll] m (thirdIsText p) =
      if (thirdIsText p).accepts m then some "KnownReflection" else none := rfl
  have hsecond : RuleSet.given? [.catchAll] m secondIsText =
      if secondIsText.accepts m then some "KnownReflection" else none := rfl
  have htakes : RuleSet.given? [.catchAll] m (takesMethod p) =
      if (takesMethod p).accepts m then some "ToInvestigate" else none := rfl
  rw [h.reasonsFor_delegate hm.type, List.filterMap_cons, List.filterMap_cons, List.filterMap_cons,
    List.filterMap_nil, hthird, hsecond, htakes, hmethod]
  -- the rules for texts come first, and at least one of them is about the method
  cases haccepts : (thirdIsText p).accepts m with
  | true => cases secondIsText.accepts m <;> rfl
  | false =>
    rw [htext.resolve_left (by rw [haccepts]; exact Bool.false_ne_true)]
    rfl

/-- A method in both buckets is in conflict, unless it could not be analyzed. -/
theorem reasonFor_of_overlap (hm : Overlap m) : s.reasonFor id m =
    if s.unanalyzed.contains id then .ok (some s.unanalyzedReason)
    else .error (.conflictingReasons m.key "KnownReflection" "ToInvestigate") := by
  have hspecific : s.reasonsFor [.annotated, .detectedApi] m = [] := h.reasonsFor_delegate hm.type
  have hsafe : ¬ s.hasOutcome .safe m = true := h.not_hasOutcome hm.type (by simp)
  have hexempt : ¬ s.hasOutcome .exempt m = true := h.not_hasOutcome hm.type (by simp)
  rw [RuleSet.reasonFor, if_neg hsafe, hspecific, RuleSet.agreed, if_neg hexempt,
    h.agreed_of_overlap hm]

/-- Methods in both buckets are in conflict, unless they could not be analyzed, and no others are. -/
theorem reasonFor_error_iff {e : AuditError} : s.reasonFor id m = .error e ↔
    Overlap m ∧ id ∉ s.unanalyzed ∧
      e = .conflictingReasons m.key "KnownReflection" "ToInvestigate" := by
  rw [← List.contains_iff_mem]
  constructor
  · intro he
    obtain ⟨families, hfamilies, x, ⟨r, hr, hg⟩, y, ⟨r', hr', hg'⟩, hne⟩ :=
      RuleSet.nontrivial_of_reasonFor_error he
    have hm := h.overlap_of_gives hr hr' hfamilies hg hg' hne
    rw [h.reasonFor_of_overlap hm] at he
    split at he
    · cases he
    · next hid => exact ⟨hm, hid, (Except.error.inj he).symm⟩
  · rintro ⟨hm, hid, rfl⟩
    rw [h.reasonFor_of_overlap hm, if_neg hid]

/-- Facts do not change what the rules are. -/
theorem withFacts (facts : Facts) : Compiled (s.withFacts facts) outlines p before after :=
  ⟨h.rules, h.clear, h.fits, h.makers⟩

end Compiled

/-- A method of `System.Delegate` that would be given a method, an object and the name of a method. -/
def overloaded : Method where
  key := Method.defaultKey "System.Delegate" "CreateDelegate"
  declaringType := "System.Delegate"
  name := "CreateDelegate"
  parameters := [⟨"System.Reflection.MethodInfo", "m"⟩, ⟨"System.Object", "o"⟩, ⟨"System.String", "s"⟩]

end Builtin

/-- The rules at hand make sense, and contradict themselves about some methods of `System.Delegate`: the
constructors, and the members `CreateDelegate`, that are given a `MethodInfo`, and a text where those
that look up a method by its name take that.  Such a method is in conflict, unless it could not be
analyzed; no other method is, whatever its type, its name and its parameters are. -/
theorem builtin_contradicts_itself (facts : Facts) (program : Program) (id : MethodId) :
    ∃ s, RuleSet.ofTable .builtin = .ok s ∧ ∀ e,
      (s.withFacts facts).classifier.reason? program id = .error e ↔
        ∃ m, program.method? id = some m ∧ Builtin.Overlap m ∧ id ∉ facts.unanalyzedMethods ∧
          e = .conflictingReasons m.key "KnownReflection" "ToInvestigate" := by
  obtain ⟨s, hs, outlines, p, before, after, h⟩ := Builtin.exists_compiled
  refine ⟨s, hs, fun e => ?_⟩
  cases hm : program.method? id with
  | none => simp [RuleSet.reason?_of_none hm]
  | some m =>
    rw [RuleSet.reason?_of_row hm, (h.withFacts facts).reasonFor_error_iff]
    simp [RuleSet.withFacts]

/-- The rules at hand are in conflict about one method in a program of its own. -/
theorem builtin_conflict_overloaded : ∃ s, RuleSet.ofTable .builtin = .ok s ∧
    (s.withFacts {}).classifier.reason? { methods := [Builtin.overloaded] } 0 =
      .error (.conflictingReasons "System.Delegate::CreateDelegate()" "KnownReflection"
        "ToInvestigate") := by
  obtain ⟨s, hs, outlines, p, before, after, h⟩ := Builtin.exists_compiled
  have hoverlap : Builtin.Overlap Builtin.overloaded :=
    ⟨rfl, Or.inr rfl, List.mem_cons_self, Or.inl rfl⟩
  refine ⟨s, hs, ?_⟩
  rw [RuleSet.reason?_of_row rfl, (h.withFacts {}).reasonFor_error_iff]
  exact ⟨hoverlap, List.not_mem_nil, rfl⟩

end CallAudit

import CallAudit.Files.Loading
import CallAudit.Proofs.Rules.Builtin

/-!
# The reason that settings give for methods that could not be analyzed

Settings may say for what reason a method is interesting that could not be analyzed.  That is heard
together with rules that stand in the settings.  Without such rules the table at hand is used as it is,
with a reason of its own, and what the settings say is lost (`configured_reason_heard_iff`).
-/

namespace CallAudit

/-! ## Rules that need no file -/

/-- The table of rules that settings without a path lead to. -/
def RulesSettings.table (r : RulesSettings) : RuleTable :=
  if r.rules.isEmpty then .builtin
  else { unanalyzedReason := r.unanalyzedReason.getD "unanalyzed", rules := r.rules }

/-- Settings without a path lead to the same rules wherever they are read, and to no file. -/
theorem ofSource_of_no_path {settings : Settings} {r : RulesSettings}
    (hrules : settings.rules = some r) (hpath : r.path = none) :
    ∃ context, ∀ (m : Type → Type) [Monad m] (files : FileAccess m) (directory : String),
      RuleSet.ofSource files directory settings.ruleSource =
        pure (Trouble.during context (RuleSet.compile r.table)) := by
  unfold Settings.ruleSource RulesSettings.table
  rw [hrules]
  dsimp only
  rw [hpath]
  dsimp only
  split
  · exact ⟨"Failed to compile built-in rules", fun _ _ _ _ => rfl⟩
  · exact ⟨"Invalid inline rules in trimtrace.toml", fun _ _ _ _ => rfl⟩

theorem during_compile_ok_iff {context : String} {t : RuleTable} {s : RuleSet} :
    Trouble.during context (RuleSet.compile t) = .ok s ↔ RuleSet.ofTable t = .ok s := by
  unfold RuleSet.compile
  cases RuleSet.ofTable t with
  | error fault => simp [Trouble.during, Except.mapError]
  | ok s' => simp [Trouble.during, Except.mapError]

/-! ## Reasons that are written -/

theorem Outcome.reason?_of_ofSpec {i : Nat} {spec : RuleSpec} {outcome : Outcome}
    (h : Outcome.ofSpec i spec = .ok outcome) : outcome.reason? = spec.reason := by
  unfold ofSpec at h
  split at h
  · next hreason _ _ =>
    obtain rfl := Except.ok.inj h
    exact hreason.symm
  · next hreason _ _ =>
    split at h
    · obtain rfl := Except.ok.inj h
      exact hreason.symm
    · cases h
  · next hreason _ _ =>
    split at h
    · obtain rfl := Except.ok.inj h
      exact hreason.symm
    · cases h
  · cases h
  · cases h

/-- A rule that makes sense gives the reason that is written, if one is. -/
theorem Rule.reason?_of_ofSpec {i : Nat} {spec : RuleSpec} {r : Rule}
    (h : Rule.ofSpec i spec = .ok r) : r.outcome.reason? = spec.reason := by
  unfold ofSpec at h
  simp only [bind, Except.bind] at h
  split at h
  · cases h
  split at h
  · cases h
  split at h
  · cases h
  split at h
  · cases h
  · next houtcome =>
    obtain rfl := Except.ok.inj h
    exact Outcome.reason?_of_ofSpec houtcome

/-! ## Tables that make sense -/

namespace RuleSet

variable {t : RuleTable} {s : RuleSet} {facts : Facts} {reason : Reason}

theorem unanalyzedReason_of_ofTable (h : ofTable t = .ok s) :
    s.unanalyzedReason = t.unanalyzedReason := by
  obtain ⟨rules, -, rfl⟩ := ofTable_ok_iff.mp h
  rfl

/-- A table knows the reasons that its rules are written with, and the one for methods that could not be
analyzed. -/
theorem mem_knownReasons_iff (h : ofTable t = .ok s) :
    reason ∈ (s.withFacts facts).classifier.knownReasons ↔
      reason = t.unanalyzedReason ∨ ∃ spec ∈ t.rules, spec.reason = some reason := by
  show reason ∈ sortedDistinct (s.rules.filterMap (·.outcome.reason?) ++ [s.unanalyzedReason]) ↔ _
  rw [mem_sortedDistinct, List.mem_append, List.mem_singleton, unanalyzedReason_of_ofTable h,
    or_comm, List.mem_filterMap]
  refine or_congr_right ⟨?_, ?_⟩
  · rintro ⟨r, hr, hreason⟩
    obtain ⟨spec, hspec, hr⟩ := (mem_rules_iff h).mp hr
    exact ⟨spec, hspec, (Rule.reason?_of_ofSpec hr).symm.trans hreason⟩
  · rintro ⟨spec, hspec, hreason⟩
    obtain ⟨r, hr⟩ := exists_ofTable_iff.mp ⟨s, h⟩ spec hspec
    exact ⟨r, (mem_rules_iff h).mpr ⟨spec, hspec, hr⟩, (Rule.reason?_of_ofSpec hr).trans hreason⟩

/-- A method that could not be analyzed, and about which no more is known, is interesting for the reason
of the table. -/
theorem reason?_of_unanalyzed (h : ofTable t = .ok s) {program : Program} {id : MethodId}
    {m : Method} (hm : program.method? id = some m) (hid : id ∈ facts.unanalyzedMethods)
    (hsafe : ¬ s.HasMatch .safe m) (hspecific : s.reasons [.annotated, .detectedApi] m = ∅) :
    (s.withFacts facts).classifier.reason? program id = .ok (some t.unanalyzedReason) := by
  have hdecides : (s.withFacts facts).Decides id m _ := decides_reason? hm
  rw [hdecides.unanalyzed hsafe hspecific hid]
  show Except.ok (some s.unanalyzedReason) = _
  rw [unanalyzedReason_of_ofTable h]

end RuleSet

/-! ## Settings -/

/-- Without rules that stand in the settings, the reason is the one of the table at hand. -/
theorem RulesSettings.table_unanalyzedReason {r : RulesSettings} {reason : Reason}
    (hreason : r.unanalyzedReason = some reason) :
    r.table.unanalyzedReason =
      if r.rules = [] then RuleTable.builtin.unanalyzedReason else reason := by
  unfold RulesSettings.table
  rw [hreason, Option.getD_some]
  by_cases hempty : r.rules = []
  · rw [if_pos hempty, if_pos (List.isEmpty_iff.mpr hempty)]
  · rw [if_neg hempty, if_neg (mt List.isEmpty_iff.mp hempty)]

/-- The table at hand makes sense, so that only rules that stand in the settings can be wrong. -/
theorem RulesSettings.exists_ofTable_table_iff (r : RulesSettings) :
    (∃ s, RuleSet.ofTable r.table = .ok s) ↔
      ∀ spec ∈ r.rules, ∃ rule, Rule.ofSpec 1 spec = .ok rule := by
  unfold RulesSettings.table
  split
  · next hempty =>
    obtain ⟨s, hs, -⟩ := Builtin.exists_compiled
    rw [List.isEmpty_iff.mp hempty]
    exact ⟨fun _ _ hspec => absurd hspec List.not_mem_nil, fun _ => ⟨s, hs⟩⟩
  · exact RuleSet.exists_ofTable_iff

/-- Rules that no file is named for are found wherever they are looked for, if those that stand in the
settings make sense.  A method that could not be analyzed, and of which they know no more, is then
interesting for the reason of the settings if rules stand there, and otherwise for that of the table at
hand; so the reason of the settings is heard, and known, if and only if rules stand there too, or it is
the one of the table at hand. -/
theorem configured_reason_heard_iff {settings : Settings} {r : RulesSettings} {reason : Reason}
    (hrules : settings.rules = some r) (hpath : r.path = none)
    (hreason : r.unanalyzedReason = some reason) :
    ∃ found : Except Trouble RuleSet,
      (∀ (m : Type → Type) [Monad m] (files : FileAccess m) (directory : String),
        RuleSet.ofSource files directory settings.ruleSource = pure found) ∧
      ((∃ s, found = .ok s) ↔ ∀ spec ∈ r.rules, ∃ rule, Rule.ofSpec 1 spec = .ok rule) ∧
      ∀ s, found = .ok s → ∀ (facts : Facts) (program : Program) (id : MethodId) (row : Method),
        program.method? id = some row → id ∈ facts.unanalyzedMethods →
        ¬ s.HasMatch .safe row → s.reasons [.annotated, .detectedApi] row = ∅ →
        (s.withFacts facts).classifier.reason? program id =
            .ok (some (if r.rules = [] then RuleTable.builtin.unanalyzedReason else reason)) ∧
          ((s.withFacts facts).classifier.reason? program id = .ok (some reason) ∧
              reason ∈ (s.withFacts facts).classifier.knownReasons ↔
            r.rules ≠ [] ∨ reason = RuleTable.builtin.unanalyzedReason) := by
  obtain ⟨context, hsource⟩ := ofSource_of_no_path hrules hpath
  refine ⟨_, hsource, ?_, fun s hs facts program id row hrow hid hsafe hspecific => ?_⟩
  · rw [← r.exists_ofTable_table_iff]
    exact exists_congr fun s => during_compile_ok_iff
  have hs : RuleSet.ofTable r.table = .ok s := during_compile_ok_iff.mp hs
  have hanswer := RuleSet.reason?_of_unanalyzed hs hrow hid hsafe hspecific
  have hknown : r.table.unanalyzedReason ∈ (s.withFacts facts).classifier.knownReasons :=
    (RuleSet.mem_knownReasons_iff hs).mpr (Or.inl rfl)
  rw [RulesSettings.table_unanalyzedReason hreason] at hanswer hknown
  refine ⟨hanswer, ?_⟩
  rw [hanswer]
  by_cases hempty : r.rules = []
  · rw [if_pos hempty] at hknown ⊢
    simp only [Except.ok.injEq, Option.some.injEq, ne_eq, hempty, not_true_eq_false, false_or]
    exact ⟨fun h => h.1.symm, fun h => ⟨h.symm, h ▸ hknown⟩⟩
  · rw [if_neg hempty] at hknown ⊢
    exact ⟨fun _ => Or.inl hempty, fun _ => ⟨rfl, hknown⟩⟩

/-- A method about which neither the table at hand nor the settings below have a rule. -/
def combine : Method where
  key := Method.defaultKey "System.Delegate" "Combine"
  declaringType := "System.Delegate"
  name := "Combine"

/-- Settings with a reason, and with a rule about another type. -/
def settingsWithRule : Settings where
  rules := some {
    unanalyzedReason := some "Unknown"
    rules := [{ declaringType := "System.Activator", member := "CreateInstance",
                family := .detectedApi, reason := "CreateInstance" }] }

/-- What is made of these settings. -/
def rulesOfSettings : RuleSet where
  rules := [{ declaringType := .exactly "System.Activator", member := .exactly "CreateInstance",
              family := .detectedApi, outcome := .interesting "CreateInstance" }]
  unanalyzedReason := "Unknown"

/-- A reason that stands beside a rule is heard. -/
theorem configured_reason_heard_beside_rule :
    (∀ (m : Type → Type) [Monad m] (files : FileAccess m) (directory : String),
      RuleSet.ofSource files directory settingsWithRule.ruleSource = pure (.ok rulesOfSettings)) ∧
    (rulesOfSettings.withFacts { unanalyzedMethods := [0] }).classifier.reason?
        { methods := [combine] } 0 = .ok (some "Unknown") ∧
    "Unknown" ∈ (rulesOfSettings.withFacts { unanalyzedMethods := [0] }).classifier.knownReasons := by
  obtain ⟨found, hsource, -, hheard⟩ :=
    @configured_reason_heard_iff settingsWithRule _ _ rfl rfl rfl
  obtain rfl : Except.ok rulesOfSettings = found :=
    hsource Id ⟨fun _ => false, fun _ => .error .notFound, fun _ _ => .error .notFound⟩ ""
  -- the one rule is about another type
  have haccepts : ∀ rule ∈ rulesOfSettings.rules, rule.accepts combine = false := by decide
  refine ⟨hsource, ((hheard _ rfl { unanalyzedMethods := [0] } { methods := [combine] } 0 combine rfl
    List.mem_cons_self ?_ ?_).2.mpr (Or.inl (List.cons_ne_nil _ _)))⟩
  · rintro ⟨rule, hrule, hmatch, -⟩
    rw [haccepts rule hrule] at hmatch
    cases hmatch
  · refine Set.eq_empty_of_forall_notMem ?_
    rintro reason ⟨rule, hrule, hgives⟩
    have hmatch := hgives.accepts
    rw [haccepts rule hrule] at hmatch
    cases hmatch

/-- A reason that stands in the settings without a rule is lost: the settings are in order, rules are
found, and a method that could not be analyzed is interesting for another reason; the one that stands in
the settings is not even known. -/
theorem configured_reason_not_heard :
    ∃ settings r s, Settings.read "[rules]\nunanalyzed_reason = \"Unknown\"\n" = some settings ∧
      settings.rules = some r ∧ r.path = none ∧ r.unanalyzedReason = some "Unknown" ∧
      (∀ (m : Type → Type) [Monad m] (files : FileAccess m) (directory : String),
        RuleSet.ofSource files directory settings.ruleSource = pure (.ok s)) ∧
      ¬ s.HasMatch .safe combine ∧ s.reasons [.annotated, .detectedApi] combine = ∅ ∧
      (s.withFacts { unanalyzedMethods := [0] }).classifier.reason? { methods := [combine] } 0 =
        .ok (some "LinkerUnanalyzed") ∧
      "Unknown" ∉ (s.withFacts { unanalyzedMethods := [0] }).classifier.knownReasons := by
  obtain ⟨s, hs, outlines, p, before, after, h⟩ := Builtin.exists_compiled
  have hread : Settings.read "[rules]\nunanalyzed_reason = \"Unknown\"\n" =
      some { rules := some { unanalyzedReason := some "Unknown" } } := by
    decide +kernel
  have hcompiled : RuleSet.compile .builtin = .ok s := by rw [RuleSet.compile, hs]; rfl
  have hsafe : ¬ s.HasMatch .safe combine := by
    rw [← RuleSet.hasOutcome_iff]
    exact h.not_hasOutcome rfl (by simp)
  have hspecific : s.reasons [.annotated, .detectedApi] combine = ∅ := by
    refine Set.eq_empty_of_forall_notMem fun reason hmem => ?_
    rw [← RuleSet.mem_reasonsFor, h.reasonsFor_delegate rfl] at hmem
    exact absurd hmem List.not_mem_nil
  refine ⟨_, _, s, hread, rfl, rfl, rfl, fun m _ files directory => ?_, hsafe, hspecific, ?_, ?_⟩
  · show pure (Trouble.during _ (RuleSet.compile .builtin)) = _
    rw [hcompiled]
    rfl
  · exact RuleSet.reason?_of_unanalyzed hs rfl List.mem_cons_self hsafe hspecific
  · rw [RuleSet.mem_knownReasons_iff hs]
    rintro (hunknown | ⟨spec, hspec, hunknown⟩)
    · exact absurd hunknown (by decide)
    · have hwritten : "Unknown" ∉ RuleTable.builtin.rules.filterMap (·.reason) := by decide +kernel
      exact hwritten (List.mem_filterMap.mpr ⟨spec, hspec, hunknown⟩)

end CallAudit

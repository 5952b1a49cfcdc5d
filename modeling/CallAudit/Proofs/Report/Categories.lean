import CallAudit.Proofs.Analysis.Chains
import CallAudit.Proofs.Text.Cut

/-!
# What a category rule sees

The lines of a chain are a header, the frames of its nodes and the labels of its hops
(`Basis.mem_frames`).  A rule accepts a chain by any of them, so that the category is the one by frames
alone exactly as far as the rule that comes first accepts by frames alone (`category_by_frames_iff`).
-/

namespace CallAudit

/-! ## Lines of a chain -/

namespace Basis

variable {b : Basis} {nodes : List Node} {line : String}

/-- The label lines of a route. -/
def labels (b : Basis) (nodes : List Node) : List String :=
  (nodes.zip nodes.tail).filterMap fun hop => (b.hopLabel? hop.2 hop.1).map ("-- " ++ ·)

/-- A label is the text of a kind of dependency. -/
theorem exists_kind_of_mem_labels (h : line ∈ b.labels nodes) :
    ∃ (kind : EdgeKind) (text : String), kind.hopLabel? = some text ∧ line = "-- " ++ text := by
  -- a hop is labelled by the first of its kinds that has a label, unless one is a direct call
  obtain ⟨hop, -, htext⟩ := List.mem_filterMap.mp h
  obtain ⟨text, hlabel, rfl⟩ := Option.map_eq_some_iff.mp htext
  unfold hopLabel? at hlabel
  dsimp only at hlabel
  split at hlabel
  · cases hlabel
  · obtain ⟨kind, -, hkind⟩ := List.exists_of_findSome?_eq_some hlabel
    exact ⟨kind, text, hkind, rfl⟩

/-- The lines for a route are frames of its nodes and labels of its hops. -/
theorem mem_frames : line ∈ b.frames nodes ↔
    (∃ n ∈ nodes, b.frame n = line) ∨ line ∈ b.labels nodes := by
  -- the cases are those of the wording: no node, the last one, and one with a hop after it
  induction nodes with
  | nil => simp [frames, labels]
  | cons n nodes ih =>
    cases nodes with
    | nil => simp [frames, labels, eq_comm]
    | cons next route =>
      have hlabels : b.labels (n :: next :: route) =
          ((b.hopLabel? next n).map ("-- " ++ ·)).toList ++ b.labels (next :: route) := by
        unfold labels
        rw [List.tail_cons, List.zip_cons_cons, List.filterMap_cons]
        cases b.hopLabel? next n <;> rfl
      have hframes : b.frames (n :: next :: route) = b.frame n ::
          (((b.hopLabel? next n).map ("-- " ++ ·)).toList ++ b.frames (next :: route)) := by
        rw [frames]
        cases b.hopLabel? next n <;> rfl
      rw [hlabels, hframes, List.exists_mem_cons_iff, List.mem_cons, List.mem_append, ih,
        List.mem_append, or_assoc, @eq_comm _ line, or_left_comm (a := line ∈ Option.toList _)]

end Basis

/-- Whether a rule has texts, and every one of them occurs in the frame of some node of a chain. -/
def CategoryRule.fits (r : CategoryRule) (b : Basis) (ch : Chain) : Bool :=
  !r.framesContaining.isEmpty &&
    r.framesContaining.all fun needle => ch.nodes.any fun n => Text.occursIn needle (b.frame n)

/-- The category of a chain by its frames: that of the first rule that fits, or failing that of the node
in which the chain ends. -/
def Category.byFrames (b : Basis) (rules : List CategoryRule) (ch : Chain) : String :=
  ((rules.find? (·.fits b ch)).map CategoryRule.name).getD
    (ofDestination b.program ch.destination?)

theorem Category.ofChain_eq (program : Program) (rules : List CategoryRule) (ch : Chain) :
    ofChain program rules ch = ((rules.find? (·.accepts ch)).map CategoryRule.name).getD
      (ofDestination program ch.destination?) := by
  unfold ofChain
  cases rules.find? (·.accepts ch) <;> rfl

/-- A rule chosen by a weaker test is the one chosen by the stronger test if and only if it passes that
too. -/
theorem find?_eq_find?_iff {α : Type} {p q : α → Bool} {xs : List α}
    (h : ∀ x, q x = true → p x = true) :
    xs.find? p = xs.find? q ↔ ∀ x, xs.find? p = some x → q x = true := by
  constructor
  · intro heq x hx
    rw [heq] at hx
    exact List.find?_some hx
  · intro hfirst
    induction xs with
    | nil => rfl
    | cons x xs ih =>
      rw [List.find?_cons, List.find?_cons]
      rw [List.find?_cons] at hfirst
      cases hp : p x with
      | true =>
        rw [hp] at hfirst
        rw [hfirst x rfl]
      | false =>
        -- what fails the weaker test fails the stronger one
        have hq : q x = false := Bool.eq_false_iff.mpr fun hq => by simp [h x hq] at hp
        rw [hp] at hfirst
        rw [hq]
        exact ih hfirst

section

variable {b : Basis} {r : SearchResult} {d : Nat} {ch : Chain} {rule : CategoryRule}
  {needle : String}

/-- What occurs in a line of a chain occurs in a frame, in the header or in a label. -/
theorem Basis.occursIn_line_iff (h : b.chain r d = .ok ch) :
    (∃ line ∈ ch.lines, needle.toList <:+: line.toList) ↔
      (∃ n ∈ ch.nodes, needle.toList <:+: (b.frame n).toList) ∨
        needle.toList <:+: (header ch.reason).toList ∨
        ∃ line ∈ b.labels ch.nodes, needle.toList <:+: line.toList := by
  obtain ⟨-, -, -, -, hlines⟩ := chain_ok h
  rw [hlines, List.exists_mem_cons_iff]
  simp only [mem_frames]
  constructor
  · rintro (hheader | ⟨line, ⟨n, hn, rfl⟩ | hlabel, hoccurs⟩)
    · exact Or.inr (Or.inl hheader)
    · exact Or.inl ⟨n, hn, hoccurs⟩
    · exact Or.inr (Or.inr ⟨line, hlabel, hoccurs⟩)
  · rintro (⟨n, hn, hoccurs⟩ | hheader | ⟨line, hlabel, hoccurs⟩)
    · exact Or.inr ⟨_, Or.inl ⟨n, hn, rfl⟩, hoccurs⟩
    · exact Or.inl hheader
    · exact Or.inr ⟨line, Or.inr hlabel, hoccurs⟩

namespace CategoryRule

theorem accepts_iff : rule.accepts ch = true ↔ rule.framesContaining ≠ [] ∧
    ∀ needle ∈ rule.framesContaining, ∃ line ∈ ch.lines, needle.toList <:+: line.toList := by
  rw [accepts, Bool.and_eq_true, Bool.not_eq_true', List.isEmpty_eq_false_iff, List.all_eq_true]
  simp only [List.any_eq_true, Text.occursIn_iff]

theorem fits_iff : rule.fits b ch = true ↔ rule.framesContaining ≠ [] ∧
    ∀ needle ∈ rule.framesContaining, ∃ n ∈ ch.nodes,
      needle.toList <:+: (b.frame n).toList := by
  rw [fits, Bool.and_eq_true, Bool.not_eq_true', List.isEmpty_eq_false_iff, List.all_eq_true]
  simp only [List.any_eq_true, Text.occursIn_iff]

theorem accepts_of_fits (h : b.chain r d = .ok ch) (hfits : rule.fits b ch = true) :
    rule.accepts ch = true := by
  rw [fits_iff] at hfits
  rw [accepts_iff]
  exact ⟨hfits.1, fun needle hneedle =>
    (Basis.occursIn_line_iff h).mpr (Or.inl (hfits.2 needle hneedle))⟩

/-- A rule whose texts occur in neither the header nor a label accepts by frames alone. -/
theorem fits_of_accepts (h : b.chain r d = .ok ch) (haccepts : rule.accepts ch = true)
    (hframes : ∀ needle ∈ rule.framesContaining,
      ¬needle.toList <:+: (Basis.header ch.reason).toList ∧
        ∀ line ∈ b.labels ch.nodes, ¬needle.toList <:+: line.toList) :
    rule.fits b ch = true := by
  rw [accepts_iff] at haccepts
  rw [fits_iff]
  refine ⟨haccepts.1, fun needle hneedle => ?_⟩
  obtain ⟨hheader, hlabels⟩ := hframes needle hneedle
  rcases (Basis.occursIn_line_iff h).mp (haccepts.2 needle hneedle) with hframe | hother | hother
  · exact hframe
  · exact absurd hother hheader
  · obtain ⟨line, hline, hoccurs⟩ := hother
    exact absurd hoccurs (hlabels line hline)

end CategoryRule

end

/-- A rule looks for its texts in the frames of a chain, but in the header and the labels as well.  So the
rule that is applied is the first one that fits the frames if and only if it does fit them, and then
the category is the one by frames; this is the case if no rule has a text that occurs in the header or
in a label. -/
theorem category_by_frames_iff {b : Basis} {r : SearchResult} {d : Nat} {ch : Chain}
    (h : b.chain r d = .ok ch) :
    (∀ rule : CategoryRule, rule.accepts ch = true ↔ rule.framesContaining ≠ [] ∧
      ∀ needle ∈ rule.framesContaining,
        (∃ n ∈ ch.nodes, needle.toList <:+: (b.frame n).toList) ∨
          needle.toList <:+: (Basis.header ch.reason).toList ∨
          ∃ line ∈ b.labels ch.nodes, needle.toList <:+: line.toList) ∧
    (∀ rule : CategoryRule, rule.fits b ch = true ↔ rule.framesContaining ≠ [] ∧
      ∀ needle ∈ rule.framesContaining, ∃ n ∈ ch.nodes,
        needle.toList <:+: (b.frame n).toList) ∧
    (∀ line ∈ b.labels ch.nodes, ∃ (kind : EdgeKind) (text : String),
      kind.hopLabel? = some text ∧ line = "-- " ++ text) ∧
    ∀ rules : List CategoryRule,
      (rules.find? (·.accepts ch) = rules.find? (·.fits b ch) ↔
        ∀ rule, rules.find? (·.accepts ch) = some rule → rule.fits b ch = true) ∧
      (rules.find? (·.accepts ch) = rules.find? (·.fits b ch) →
        Category.ofChain b.program rules ch = Category.byFrames b rules ch) ∧
      ((∀ rule ∈ rules, ∀ needle ∈ rule.framesContaining,
          ¬needle.toList <:+: (Basis.header ch.reason).toList ∧
            ∀ line ∈ b.labels ch.nodes, ¬needle.toList <:+: line.toList) →
        rules.find? (·.accepts ch) = rules.find? (·.fits b ch)) := by
  refine ⟨fun rule => ?_, fun rule => CategoryRule.fits_iff,
    fun line hline => Basis.exists_kind_of_mem_labels hline, fun rules => ?_⟩
  · simp only [CategoryRule.accepts_iff, Basis.occursIn_line_iff h]
  · have hfirst : rules.find? (·.accepts ch) = rules.find? (·.fits b ch) ↔
        ∀ rule, rules.find? (·.accepts ch) = some rule → rule.fits b ch = true :=
      find?_eq_find?_iff fun _ => CategoryRule.accepts_of_fits h
    refine ⟨hfirst, fun hsame => ?_, fun hframes => hfirst.mpr fun rule hrule => ?_⟩
    · rw [Category.ofChain_eq, Category.byFrames, hsame]
    · have haccepts := List.find?_some hrule
      exact CategoryRule.fits_of_accepts h haccepts
        (hframes rule (List.mem_of_find?_eq_some hrule))

/-- A virtual call to an interesting method. -/
def Basis.virtualCall : Basis where
  program := {
    methods := [.named "App.Program" "Main", .named "App.Api" "Get"]
    types := [.named "App.Program", .named "App.Api"] }
  graph := {
    edges := [⟨.method 0, .method 1, .virtualCallToVirtual⟩]
    nodes := [.method 0, .method 1] }
  snapshot := {
    nodes := #[.method 0, .method 1]
    verdicts := #[{ entry := true }, { reason := some "KnownReflection" }] }

/-- What the search from the interesting method found. -/
def SearchResult.oneHop : SearchResult where
  prev := #[1, 1]
  dist := #[some 1, some 0]
  destinations := [0]
  source := 1

/-- The chain that was found, in words. -/
def Chain.virtualCall : Chain where
  nodes := [.method 1, .method 0]
  lines := ["---------- (KnownReflection)", "App.Api::Get() -> System.Void", "-- virtual call",
    "App.Program::Main() -> System.Void"]
  reason := some "KnownReflection"

/-- The text of the first rule is in no line, that of the second in a frame. -/
theorem category_by_frames_iff_virtual_call :
    Basis.virtualCall.chain .oneHop 0 = .ok .virtualCall ∧
      Category.byFrames .virtualCall [⟨"hidden", ["Hidden"]⟩, ⟨"start", ["Program::Main"]⟩]
        .virtualCall = "start" ∧
      Category.ofChain Basis.virtualCall.program
        [⟨"hidden", ["Hidden"]⟩, ⟨"start", ["Program::Main"]⟩] .virtualCall = "start" := by
  have hchain : Basis.virtualCall.chain .oneHop 0 = .ok .virtualCall := by decide
  have hframes : Category.byFrames .virtualCall
      [⟨"hidden", ["Hidden"]⟩, ⟨"start", ["Program::Main"]⟩] .virtualCall = "start" := by decide
  have hrules := (category_by_frames_iff hchain).2.2.2
    [⟨"hidden", ["Hidden"]⟩, ⟨"start", ["Program::Main"]⟩]
  refine ⟨hchain, hframes, ?_⟩
  rw [← hframes]
  refine hrules.2.1 (hrules.2.2 ?_)
  simp only [← Text.occursIn_iff]
  decide

/-- A rule accepts the chain by its reason, and another one by the label of its hop, although the text
that either looks for is in no frame. -/
theorem category_not_by_frames :
    Basis.virtualCall.chain .oneHop 0 = .ok .virtualCall ∧
      Category.byFrames .virtualCall [⟨"reflection", ["KnownReflection"]⟩] .virtualCall = "App" ∧
      Category.ofChain Basis.virtualCall.program [⟨"reflection", ["KnownReflection"]⟩]
        .virtualCall = "reflection" ∧
      Category.byFrames .virtualCall [⟨"dispatch", ["virtual call"]⟩] .virtualCall = "App" ∧
      Category.ofChain Basis.virtualCall.program [⟨"dispatch", ["virtual call"]⟩]
        .virtualCall = "dispatch" :=
  ⟨by decide, by decide, by decide, by decide, by decide⟩

end CallAudit

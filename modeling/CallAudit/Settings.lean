import CallAudit.Analysis.Options
import CallAudit.Rules.Builtin

/-!
# Settings

Settings are written in TOML, in sections that may all be missing: what the output looks like, what
the search may do, categories, and where the rules come from.
-/

namespace CallAudit

/-- The form in which chains are written. -/
inductive OutputFormat where
  | text
  | json
deriving DecidableEq, Repr, Inhabited

def OutputFormat.ofName? : String → Option OutputFormat
  | "text" => some text
  | "json" => some json
  | _ => none

structure OutputSettings where
  format : Option OutputFormat := none
  grouping : Option Grouping := none
deriving DecidableEq, Repr, Inhabited

structure SearchSettings where
  parallel : Option Bool := none
  ignoreVirtualCallers : Option Bool := none
  stopAtUntrackedStaticConstructors : Option Bool := none
  suppress : List SuppressedCall := []
deriving DecidableEq, Repr, Inhabited

structure RulesSettings where
  /-- The file that holds the rules. -/
  path : Option String := none
  unanalyzedReason : Option String := none
  /-- Rules that stand in the settings. -/
  rules : List RuleSpec := []
deriving DecidableEq, Repr, Inhabited

structure Settings where
  output : Option OutputSettings := none
  search : Option SearchSettings := none
  category : List CategoryRule := []
  rules : Option RulesSettings := none
deriving DecidableEq, Repr, Inhabited

/-! ## Reading -/

def CategoryRule.ofToml? (v : Toml) : Option CategoryRule := do
  let (_, [name, framesContaining]) ← v.fields? ["name", "frames_containing"] false | none
  some {
    name := ← Toml.required Toml.text? name
    framesContaining := ← Toml.optional [] (Toml.list? Toml.text?) framesContaining }

def SuppressedCall.ofToml? (v : Toml) : Option SuppressedCall := do
  let (_, [caller, callee]) ← v.fields? ["caller", "callee"] false | none
  some {
    caller := ← Toml.required Toml.text? caller
    callee := ← Toml.required Toml.text? callee }

def OutputSettings.ofToml? (v : Toml) : Option OutputSettings := do
  let (inArray, [format, grouping]) ← v.fields? ["format", "grouping"] true | none
  some {
    format := ← Toml.omissible inArray (Toml.choice? OutputFormat.ofName?) format
    grouping := ← Toml.omissible inArray (Toml.choice? Grouping.ofName?) grouping }

def SearchSettings.ofToml? (v : Toml) : Option SearchSettings := do
  let (inArray, [parallel, ignoreVirtualCallers, stopAtUntracked, suppress]) ← v.fields?
    ["parallel", "ignore_virtual_callers", "stop_at_untracked_static_constructors", "suppress"] true
    | none
  let flag := Toml.omissible inArray Toml.bool?
  some {
    parallel := ← flag parallel
    ignoreVirtualCallers := ← flag ignoreVirtualCallers
    stopAtUntrackedStaticConstructors := ← flag stopAtUntracked
    suppress := ← Toml.optional [] (Toml.list? SuppressedCall.ofToml?) suppress }

def RulesSettings.ofToml? (v : Toml) : Option RulesSettings := do
  let (inArray, [path, unanalyzedReason, rules]) ←
    v.fields? ["path", "unanalyzed_reason", "rule"] true | none
  some {
    path := ← Toml.omissible inArray Toml.text? path
    unanalyzedReason := ← Toml.omissible inArray Toml.text? unanalyzedReason
    rules := ← Toml.optional [] (Toml.list? RuleSpec.ofToml?) rules }

namespace Settings

def ofToml? (v : Toml) : Option Settings := do
  let (inArray, [output, search, category, rules]) ←
    v.fields? ["output", "search", "category", "rules"] true | none
  some {
    output := ← Toml.omissible inArray OutputSettings.ofToml? output
    search := ← Toml.omissible inArray SearchSettings.ofToml? search
    category := ← Toml.optional [] (Toml.list? CategoryRule.ofToml?) category
    rules := ← Toml.omissible inArray RulesSettings.ofToml? rules }

/-- Reads settings from their text. -/
def read (s : String) : Option Settings :=
  (Toml.read s).bind ofToml?

/-! ## Meaning -/

/-- The options that settings ask for; what they leave open is as it is without settings. -/
def analysisOptions (s : Settings) : AnalysisOptions :=
  let output := s.output.getD {}
  let search := s.search.getD {}
  { grouping := output.grouping.getD .none
    json := output.format == some .json
    parallel := search.parallel.getD false
    ignoreVirtualCallers := search.ignoreVirtualCallers.getD false
    stopAtUntrackedStaticConstructors := search.stopAtUntrackedStaticConstructors.getD false
    categoryRules := s.category
    suppressedCalls := search.suppress }

end Settings

/-- Where rules come from. -/
inductive RuleSource where
  | builtin
  | file (path : String)
  | inline (table : RuleTable)
deriving DecidableEq, Repr, Inhabited

/-- Where settings say the rules come from: a file, the settings themselves, or else the table at
hand, which has its own reason for methods that could not be analyzed. -/
def Settings.ruleSource (s : Settings) : RuleSource :=
  match s.rules with
  | none => .builtin
  | some r =>
      match r.path with
      | some path => .file path
      | none =>
          if r.rules.isEmpty then .builtin
          else .inline { unanalyzedReason := r.unanalyzedReason.getD "unanalyzed", rules := r.rules }

end CallAudit

import CallAudit.Analysis.Run
import CallAudit.CommandLine.Arguments
import CallAudit.Drawing
import CallAudit.Files.Loading

/-!
# The command

The command loads settings, facts and rules, prepares the graph, and then either draws it or searches
it. It ends with status 1 if it found a chain, with 0 if there is none, and with 2 if it failed.
-/

namespace CallAudit.CommandLine

/-- How a run ended. -/
inductive Outcome where
  /-- The command line makes no sense. -/
  | usage
  | failed (t : Trouble)
  | finished (status : Nat) (output errors : String)
deriving DecidableEq, Repr, Inhabited

/-- Settings, and the directory they see files from. -/
structure Configuration where
  settings : Option Settings := none
  directory : String := ""
deriving DecidableEq, Repr, Inhabited

/-- The options that settings and command line ask for together; the command line has the last word on
the grouping. -/
def options (args : Arguments) (settings : Option Settings) : AnalysisOptions :=
  let o := (settings.map Settings.analysisOptions).getD {}
  { o with
    json := o.json || args.json
    grouping := args.group.getD o.grouping
    parallel := o.parallel || args.parallel
    ignoreVirtualCallers := o.ignoreVirtualCallers || args.ignoreVirtualCallers
    stopAtUntrackedStaticConstructors :=
      o.stopAtUntrackedStaticConstructors || args.stopAtUntrackedStaticConstructors }

variable {m : Type → Type} [Monad m] (files : FileAccess m)

/-- The settings the command line names, or those that lie next to the facts. -/
def configuration (args : Arguments) : ExceptT Trouble m Configuration := do
  match args.config with
  | some path =>
      let settings ← ExceptT.mk (Settings.loadFile files path)
      return { settings := some settings, directory := (Path.directory? path).getD "" }
  | none =>
      let directory := (Path.directory? args.facts).getD ""
      let settings ← ExceptT.mk (Settings.loadFrom files directory)
      return { settings, directory }

/-- The rules the command line names, or those that the settings name, or those at hand. -/
def ruleSet (args : Arguments) (c : Configuration) : ExceptT Trouble m RuleSet :=
  match args.rules, c.settings with
  | some path, _ => ExceptT.mk do
      return Trouble.during ("Failed to load rules from " ++ path) (← RuleSet.load files path)
  | none, some settings => ExceptT.mk (RuleSet.ofSource files c.directory settings.ruleSource)
  | none, none => ExceptT.mk (RuleSet.ofSource files c.directory .builtin)

/-- Writes a text to a file. -/
def writeFile (context path content : String) : ExceptT Trouble m Unit := do
  match ← files.write path content with
  | .ok () => return ()
  | .error fault => throw ⟨context ++ path, .plain fault.message⟩

/-- Draws the graph. -/
def draw (args : Arguments) (drawing : String) : ExceptT Trouble m Outcome := do
  match args.dotFile with
  | some path =>
      writeFile files "Failed to write DOT graph to " path drawing
      return .finished 0 "" ""
  | none => return .finished 0 drawing ""

/-- Searches the graph. A file for the chains is there before the search begins. -/
def search (args : Arguments) (analyse : Sink → Except AuditError Analysis × Sink) :
    ExceptT Trouble m Outcome := do
  if let some path := args.output then writeFile files "Failed to create " path ""
  let (outcome, sink) := analyse {}
  if let some path := args.output then writeFile files "Failed to create " path sink.written
  let analysis ← ExceptT.mk (pure (Trouble.during "Analysis failed" outcome))
  let summary := analysis.summary
  let status := if summary.chains = 0 then 0 else 1
  let output := if args.output.isSome then "" else sink.written
  return .finished status output (if args.summaryJson then summary.jsonText else summary.text)

/-- Does what the arguments ask for. -/
def perform (args : Arguments) : ExceptT Trouble m Outcome := do
  let c ← configuration files args
  let ⟨program, facts⟩ ← ExceptT.mk do
    return Trouble.during ("Failed to load facts from " ++ args.facts)
      (← Recording.load files args.facts)
  let classifier := ((← ruleSet files args c).withFacts facts).classifier
  let prepared ← ExceptT.mk (pure
    (Trouble.during "Failed to prepare dependency graph" (Prepared.of classifier program facts)))
  if args.dot || args.dotFile.isSome then draw files args (Drawing.text program prepared)
  else
    search files args
      (Analysis.runPrepared (options args c.settings) program facts classifier prepared)

/-- Runs the command. -/
def run (args : List String) : m Outcome := do
  match Arguments.read args with
  | none => return .usage
  | some args =>
      match ← (perform files args).run with
      | .ok outcome => return outcome
      | .error t => return .failed t

end CallAudit.CommandLine

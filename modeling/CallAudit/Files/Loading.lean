import CallAudit.Facts.Recording
import CallAudit.Files.Access
import CallAudit.Files.Path
import CallAudit.Rules.RuleSet
import CallAudit.Settings

/-!
# Loading files

Facts, rules and settings from the files that hold them.
-/

namespace CallAudit

/-- Why something that was being done failed. -/
inductive Cause where
  | audit (e : AuditError)
  | plain (text : String)
deriving DecidableEq, Repr, Inhabited

/-- A failure, with what was being done. -/
structure Trouble where
  context : String
  cause : Cause
deriving DecidableEq, Repr, Inhabited

namespace Trouble

def message (t : Trouble) : String :=
  match t.cause with
  | .audit e => t.context ++ ": " ++ e.message
  | .plain text => t.context ++ ": " ++ text

/-- Says what was being done when an audit stopped. -/
def during (context : String) : Except AuditError α → Except Trouble α
  | .ok a => .ok a
  | .error e => .error ⟨context, .audit e⟩

end Trouble

variable {m : Type → Type} [Monad m] (files : FileAccess m)

/-- Loads the document of facts at a path. -/
def Recording.load (path : String) : m (Except AuditError Recording) := do
  match ← files.readText path with
  | .error fault => return .error (.io path fault.message)
  | .ok text =>
      match Recording.read text with
      | some r => return .ok r
      | none => return .error (.facts path "not a fact document")

namespace RuleSet

/-- Makes sense of the rules of a table. -/
def compile (table : RuleTable) : Except AuditError RuleSet :=
  (RuleSet.ofTable table).mapError .rule

/-- Loads the table of rules at a path. -/
def load (path : String) : m (Except AuditError RuleSet) := do
  match ← files.readText path with
  | .error fault => return .error (.io path fault.message)
  | .ok text =>
      match RuleTable.read text with
      | some table => return compile table
      | none => return .error (.config path "not a rule table")

/-- Loads the rules from where they come from. The path of a file is seen from a directory. -/
def ofSource (directory : String) : RuleSource → m (Except Trouble RuleSet)
  | .builtin => return Trouble.during "Failed to compile built-in rules" (compile .builtin)
  | .inline table =>
      return Trouble.during "Invalid inline rules in trimtrace.toml" (compile table)
  | .file path => do
      let path := Path.within directory path
      return Trouble.during ("Failed to load rules from " ++ path) (← load files path)

end RuleSet

namespace Settings

/-- The name of the file that settings are looked for in. -/
def fileName : String := "trimtrace.toml"

/-- Loads the settings at a path. -/
def loadFile (path : String) : m (Except Trouble Settings) := do
  match ← files.readText path with
  | .error fault => return .error ⟨"Failed to read " ++ path, .plain fault.message⟩
  | .ok text =>
      match Settings.read text with
      | some s => return .ok s
      | none => return .error ⟨"Invalid " ++ path, .plain "not settings"⟩

/-- Loads the settings of a directory, if it has any. -/
def loadFrom (directory : String) : m (Except Trouble (Option Settings)) := do
  let path := Path.within directory fileName
  if ← files.exists? path then return (← loadFile files path).map some
  else return .ok none

end Settings

end CallAudit

import CallAudit.Report.Grouping
import CallAudit.Text.Cut

/-!
# Arguments

What stands on the command line. Every option may be given once; the value of an option stands after
an equals sign or is the next argument, and then does not start with a dash. After two dashes there
are no more options.
-/

namespace CallAudit

/-- What the command line asks for. -/
structure Arguments where
  facts : String
  rules : Option String := none
  config : Option String := none
  json : Bool := false
  group : Option Grouping := none
  output : Option String := none
  dot : Bool := false
  dotFile : Option String := none
  parallel : Bool := false
  ignoreVirtualCallers : Bool := false
  stopAtUntrackedStaticConstructors : Bool := false
  summaryJson : Bool := false
  logJson : Bool := false
deriving DecidableEq, Repr, Inhabited

namespace Arguments

/-- Options that are there or not. -/
def flagNames : List String :=
  ["json", "dot", "parallel", "ignore-virtual-callers", "stop-at-untracked-static-constructors",
    "summary-json", "log-json"]

/-- Options with a value. -/
def optionNames : List String :=
  ["rules", "config", "group", "output", "dot-file"]

/-- The arguments as they are given: flags, options with their values, and the rest. -/
structure Given where
  flags : List String := []
  options : List (String × String) := []
  values : List String := []
deriving DecidableEq, Repr, Inhabited

namespace Given

def addFlag (g : Given) (name : String) : Option Given :=
  if g.flags.contains name then none else some { g with flags := name :: g.flags }

def addOption (g : Given) (name value : String) : Option Given :=
  if g.options.any (·.1 == name) then none
  else some { g with options := (name, value) :: g.options }

def addValue (g : Given) (value : String) : Given :=
  { g with values := g.values ++ [value] }

end Given

/-- Whether an argument can only be an option. A dash alone is a value. -/
def looksLikeOption (arg : String) : Bool :=
  arg.startsWith "-" && arg != "-"

/-- The name of a long option and the value after its equals sign, if there is one. -/
def splitOption? (arg : String) : Option (String × Option String) :=
  (Cut.stripLead? ['-', '-'] arg.toList).map fun cs =>
    match Cut.splitFirst? ['='] cs with
    | some (name, value) => (String.ofList name, some (String.ofList value))
    | none => (String.ofList cs, none)

/-- Sorts arguments. -/
def sort : Given → List String → Option Given
  | g, [] => some g
  | g, "--" :: rest => some (rest.foldl Given.addValue g)
  | g, arg :: rest =>
      if !looksLikeOption arg then sort (g.addValue arg) rest
      else
        match splitOption? arg with
        | none => none
        | some (name, attached) =>
            if flagNames.contains name then
              if attached.isSome then none else (g.addFlag name).bind (sort · rest)
            else if optionNames.contains name then
              match attached, rest with
              | some value, rest => (g.addOption name value).bind (sort · rest)
              | none, [] => none
              | none, value :: rest =>
                  if looksLikeOption value then none
                  else (g.addOption name value).bind (sort · rest)
            else none

/-- A path must not be empty. -/
def path? (s : String) : Option String :=
  if s.isEmpty then none else some s

/-- An option that may be missing, and else must have a proper value. -/
def Given.option? (g : Given) (name : String) (read : String → Option α) : Option (Option α) :=
  match g.options.lookup name with
  | none => some none
  | some value => (read value).map some

/-- What sorted arguments ask for. -/
def ofGiven? (g : Given) : Option Arguments := do
  let [facts] := g.values | none
  some {
    facts := ← path? facts
    rules := ← g.option? "rules" path?
    config := ← g.option? "config" path?
    json := g.flags.contains "json"
    group := ← g.option? "group" fun name => (Grouping.parse name).toOption
    output := ← g.option? "output" some
    dot := g.flags.contains "dot"
    dotFile := ← g.option? "dot-file" some
    parallel := g.flags.contains "parallel"
    ignoreVirtualCallers := g.flags.contains "ignore-virtual-callers"
    stopAtUntrackedStaticConstructors := g.flags.contains "stop-at-untracked-static-constructors"
    summaryJson := g.flags.contains "summary-json"
    logJson := g.flags.contains "log-json" }

/-- Reads the command line. -/
def read (args : List String) : Option Arguments :=
  (sort {} args).bind ofGiven?

end Arguments

end CallAudit

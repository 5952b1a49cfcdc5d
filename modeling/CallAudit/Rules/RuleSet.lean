import CallAudit.Classifier.Basic
import CallAudit.Facts.Basic
import CallAudit.Rules.Rule

/-!
# Classification by rules

The most specific word about a method counts. A method marked safe is never interesting; else the
annotations and detected APIs decide together; else a method that could not be analyzed is
interesting for that; else the broad buckets decide, unless a rule keeps the method out of them.
Where rules decide together they must agree on the reason.
-/

namespace CallAudit

/-- Rules that make sense, with what the facts say about entry points and gaps in the analysis. -/
structure RuleSet where
  rules : List Rule := []
  unanalyzedReason : Reason := "unanalyzed"
  /-- The entry surface, if the facts have one. -/
  entries : Option (List MethodId) := none
  unanalyzed : List MethodId := []
deriving DecidableEq, Repr, Inhabited

namespace RuleSet

/-- Makes sense of the rules of a table, in order. -/
def ofTable (table : RuleTable) : Except RuleFault RuleSet := do
  let rules ← (table.rules.zipIdx 1).mapM fun (spec, index) => Rule.ofSpec index spec
  return { rules, unanalyzedReason := table.unanalyzedReason }

/-- Takes the entry surface and the methods that could not be analyzed from the facts. -/
def withFacts (s : RuleSet) (facts : Facts) : RuleSet :=
  { s with entries := facts.entryMethods, unanalyzed := facts.unanalyzedMethods }

/-- The reasons that the rules of some families give a method, in order. -/
def reasonsFor (s : RuleSet) (families : List RuleFamily) (m : Method) : List Reason :=
  (s.rules.filter fun r => families.contains r.family && r.accepts m).filterMap (·.outcome.reason?)

/-- The one reason in a list; different ones are a conflict between the first and the first that
differs from it. -/
def agreed (m : Method) : List Reason → Answer
  | [] => .ok none
  | first :: rest =>
      match rest.find? (· != first) with
      | some second => .error (.conflictingReasons m.key first second)
      | none => .ok (some first)

/-- Whether some rule with this outcome is about a method. -/
def hasOutcome (s : RuleSet) (outcome : Outcome) (m : Method) : Bool :=
  s.rules.any fun r => r.outcome == outcome && r.accepts m

/-- Why a method is interesting. -/
def reasonFor (s : RuleSet) (id : MethodId) (m : Method) : Answer :=
  if s.hasOutcome .safe m then .ok none
  else
    match agreed m (s.reasonsFor [.annotated, .detectedApi] m) with
    | .error e => .error e
    | .ok (some reason) => .ok (some reason)
    | .ok none =>
        if s.unanalyzed.contains id then .ok (some s.unanalyzedReason)
        else if s.hasOutcome .exempt m then .ok none
        else agreed m (s.reasonsFor [.catchAll] m)

/-- Whether a method is an entry point. Without an entry surface, every public method of a public type
is one. -/
def isEntry (s : RuleSet) (program : Program) (id : MethodId) : Bool :=
  match s.entries with
  | some entries => entries.contains id
  | none =>
      (program.method? id).any (·.modifiers.isPublic) && (program.declaringType? id).any (·.isPublic)

def knownReasons (s : RuleSet) : List Reason :=
  sortedDistinct (s.rules.filterMap (·.outcome.reason?) ++ [s.unanalyzedReason])

def classifier (s : RuleSet) : Classifier where
  isEntry := s.isEntry
  reason? program id :=
    match program.method? id with
    | some m => s.reasonFor id m
    | none => .ok none
  isSafe program id := (program.method? id).any (s.hasOutcome .safe)
  knownReasons := s.knownReasons

end RuleSet

end CallAudit

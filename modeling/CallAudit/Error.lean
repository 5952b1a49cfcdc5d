/-!
# What can go wrong

Each failure of an audit is named by its cause; the words for it are in one place,
`AuditError.message`.
-/

namespace CallAudit

/-- Why a rule of a rule table makes no sense. Rules are counted from one. -/
inductive RuleFault where
  /-- An exact text and a pattern for the same thing. -/
  | exactAndPattern (what : String)
  | invalidPattern (what : String) (pattern : String)
  | matchesEveryMethod (rule : Nat)
  | safeNotAnnotated (rule : Nat)
  | exemptNotCatchAll (rule : Nat)
  | noOutcome (rule : Nat)
  | severalOutcomes (rule : Nat)
  | other (text : String)
deriving DecidableEq, Repr, Inhabited

/-- What the analysis must never see. -/
inductive Violation where
  /-- Constructor dependencies were asked for a second time. -/
  | constructorEdgesAddedTwice
  | destinationOutOfRange (destination : Nat)
  | destinationNotReached (destination source : Nat)
  /-- Following parents from a destination does not lead to the source. -/
  | brokenParentChain (destination source : Nat)
  | hopCountMismatch (destination hops distance : Nat)
  | other (text : String)
deriving DecidableEq, Repr, Inhabited

/-- Why an audit stops. -/
inductive AuditError where
  | io (path text : String)
  | facts (path text : String)
  | config (path text : String)
  | rule (fault : RuleFault)
  /-- Two rules give one method different reasons. -/
  | conflictingReasons (method first second : String)
  | invariant (violation : Violation)
  | report (text : String)
  /-- The place the report goes to refused a write. -/
  | sink (text : String)
deriving DecidableEq, Repr, Inhabited

def RuleFault.message : RuleFault → String
  | exactAndPattern what => s!"rule sets both {what} and {what}_pattern"
  | invalidPattern what pattern => s!"invalid {what}_pattern '{pattern}'"
  | matchesEveryMethod i =>
      s!"rule #{i} matches every method; give a declaring type or member"
  | safeNotAnnotated i => s!"rule #{i}: only annotation rules may mark methods safe"
  | exemptNotCatchAll i => s!"rule #{i}: only catch-all rules may be exempt"
  | noOutcome i => s!"rule #{i} needs a reason, safe = true or exempt = true"
  | severalOutcomes i => s!"rule #{i} sets more than one of reason, safe and exempt"
  | other text => text

def Violation.message : Violation → String
  | constructorEdgesAddedTwice => "constructor dependency edges were already added"
  | destinationOutOfRange d => s!"destination {d} is out of range"
  | destinationNotReached d s => s!"destination {d} was not reached from source {s}"
  | brokenParentChain d s => s!"parent chain from {d} does not end at source {s}"
  | hopCountMismatch d hops distance => s!"path to {d} has {hops} hops but distance {distance}"
  | other text => text

namespace AuditError

/-- The failure in words. -/
def message : AuditError → String
  | io path text => s!"I/O error at {path}: {text}"
  | facts path text => s!"Fact file error at {path}: {text}"
  | config path text => s!"Config error at {path}: {text}"
  | rule fault => s!"Rule error: {fault.message}"
  | conflictingReasons method first second =>
      s!"Conflicting reasons for {method}: '{first}' and '{second}'"
  | invariant violation => s!"Invariant violated: {violation.message}"
  | report text => s!"Report error: {text}"
  | sink text => s!"Write to report sink failed: {text}"

/-- Whether a run may go on after the failure. -/
def isRecoverable : AuditError → Bool
  | config _ _ => true
  | _ => false

/-- What is left to say when a result speaks of a number that no node has. -/
def reporterLost : AuditError := report "report consumer thread panicked"

/-- The file the failure is about. -/
def path? : AuditError → Option String
  | io path _ | facts path _ | config path _ => some path
  | _ => none

end AuditError

end CallAudit

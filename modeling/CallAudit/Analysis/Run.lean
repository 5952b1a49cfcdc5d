import CallAudit.Analysis.Options
import CallAudit.Analysis.Prepared
import CallAudit.Report.Run
import CallAudit.Search.BreadthFirst

/-!
# Running an analysis

Every interesting method is searched for the entry points that lead to it, against the direction of
the dependencies, and every chain found is reported.
-/

namespace CallAudit

/-- What a finished analysis leaves. -/
structure Analysis where
  summary : Summary
  stats : GraphStats
deriving DecidableEq, Repr, Inhabited

namespace Analysis

variable (options : AnalysisOptions) (program : Program) (facts : Facts)

/-- Whether a node is a static constructor that no field access leads to. -/
def isUntrackedStaticConstructor : Node → Bool
  | .method m => program.isStaticConstructor m && !facts.fieldAccessDependencies.any (·.2 == m)
  | .type _ => false

/-- Whether chains may end at a number. -/
def isDestination (s : Snapshot) (i : Nat) : Bool :=
  s.isEntry i ||
    options.stopAtUntrackedStaticConstructors &&
      (s.node? i).any (isUntrackedStaticConstructor program facts)

/-- Whether a number stands for a virtual method. -/
def isVirtualMethod (s : Snapshot) (i : Nat) : Bool :=
  ((s.node? i).bind Node.method?).any program.isVirtual

/-- The suppressed calls in the direction of the search: from callee to caller. A call of which either
method is not in the snapshot needs no suppression. -/
def suppressedPairs (s : Snapshot) : List (Nat × Nat) :=
  let index? (key : String) := (program.methodId? key).bind fun m => s.index? (.method m)
  options.suppressedCalls.filterMap fun call => do
    let caller ← index? call.caller
    let callee ← index? call.callee
    some (callee, caller)

/-- What the search may do. It runs from interesting methods to entry points, never through a safe
method or another interesting one. -/
def constraints (s : Snapshot) : Constraints :=
  let suppressed := suppressedPairs options program s
  { isSource := s.isInteresting
    isDestination := isDestination options program facts s
    isBarred := s.isSafe
    isDeadEnd := fun i => options.ignoreVirtualCallers && isVirtualMethod program s i
    isForbidden := fun u v => suppressed.contains (u, v) }

/-- The results of the search. -/
def results (s : Snapshot) : List SearchResult :=
  searchAll s.callers (constraints options program facts s)

/-- Searches a prepared graph and writes every chain to a sink. -/
def runPrepared (c : Classifier) (p : Prepared) (sink : Sink) :
    Except AuditError Analysis × Sink :=
  let b : Basis := { program, graph := p.graph, snapshot := p.snapshot }
  let messages := (results options program facts p.snapshot).map Message.result ++ [.done]
  let ledger := Ledger.empty p.snapshot.size options.grouping
  let writer : Writer := { sink, json := options.json, grouping := options.grouping }
  match Report.run b options.categoryRules messages none ledger writer with
  | (.error e, w) => (.error e, w.sink)
  | (.ok ledger, w) =>
      (.ok { summary := ledger.summarize program p.snapshot c.knownReasons, stats := p.stats },
        w.sink)

/-- Prepares the graph, searches it and writes every chain to a sink. -/
def run (c : Classifier) (sink : Sink) : Except AuditError Analysis × Sink :=
  match Prepared.of c program facts with
  | .error e => (.error e, sink)
  | .ok p => runPrepared options program facts c p sink

end Analysis

end CallAudit

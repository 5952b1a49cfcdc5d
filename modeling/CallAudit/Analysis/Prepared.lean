import CallAudit.Dependency.Build
import CallAudit.Dependency.Construction
import CallAudit.Reachability

/-!
# Preparing the graph

Before the search the graph is reduced: calls that dispatch resolved and calls whose use of
reflection is understood go, constructor dependencies come, and nodes that reach nothing interesting
go. Both passes that ask the classifier share one memory, so that it is asked about a method once.
-/

namespace CallAudit

/-- What the reduction did to the graph. -/
structure GraphStats where
  initialNodes : Nat := 0
  initialEdges : Nat := 0
  virtualEdgesRemoved : Nat := 0
  resolvedCallsRemoved : Nat := 0
  constructorEdgesAdded : Nat := 0
  prunedNodes : Nat := 0
  finalNodes : Nat := 0
  finalEdges : Nat := 0
deriving DecidableEq, Repr, Inhabited

/-- The reduced graph and its snapshot. -/
structure Prepared where
  graph : Graph
  snapshot : Snapshot
  stats : GraphStats := {}
deriving DecidableEq, Repr, Inhabited

namespace Prepared

/-- The graph without the calls that dispatch or understood reflection make needless. -/
def withoutNeedlessCalls (program : Program) (facts : Facts) : Graph × GraphStats :=
  let built := Graph.build program facts
  let (virtualEdgesRemoved, g) := built.removeVirtualCalls
  let (resolvedCallsRemoved, g) := g.removeCalls facts.resolvedReflectionCalls
  (g, {
    initialNodes := built.nodes.length
    initialEdges := built.edges.length
    virtualEdgesRemoved, resolvedCallsRemoved })

/-- The graph before pruning, with its snapshot. -/
def unpruned (c : Classifier) (program : Program) (facts : Facts) (ask : Inquiry σ) (memory : σ) :
    Except AuditError Prepared × σ :=
  let (g, stats) := withoutNeedlessCalls program facts
  match g.addConstructorEdges program ask memory with
  | (.error e, _, memory) => (.error e, memory)
  | (.ok constructorEdgesAdded, g, memory) =>
      match Snapshot.take c program ask g memory with
      | (.error e, memory) => (.error e, memory)
      | (.ok snapshot, memory) =>
          (.ok { graph := g, snapshot, stats := { stats with constructorEdgesAdded } }, memory)

/-- Takes away the nodes that reach nothing interesting. -/
def prune (p : Prepared) : Prepared :=
  let doomed := p.snapshot.pruneSet.filterMap p.snapshot.node?
  let graph := if doomed.isEmpty then p.graph else (p.graph.removeNodes doomed).2
  let snapshot := if doomed.isEmpty then p.snapshot else p.snapshot.retake graph
  { graph, snapshot
    stats := { p.stats with
      prunedNodes := doomed.length
      finalNodes := snapshot.size
      finalEdges := snapshot.edgeCount } }

/-- Prepares the graph, asking in a given way. -/
def build (c : Classifier) (program : Program) (facts : Facts) (ask : Inquiry σ) (memory : σ) :
    Except AuditError Prepared × σ :=
  match unpruned c program facts ask memory with
  | (.error e, memory) => (.error e, memory)
  | (.ok p, memory) => (.ok p.prune, memory)

/-- Prepares the graph, asking about no method twice. -/
def of (c : Classifier) (program : Program) (facts : Facts) : Except AuditError Prepared :=
  (build c program facts (Inquiry.remembering c program) []).1

end Prepared

end CallAudit

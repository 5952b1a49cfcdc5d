import CallAudit.Json.Writer
import CallAudit.Report.Grouping
import CallAudit.Search.Result
import CallAudit.Snapshot

/-!
# Chains

A chain is a route from an interesting method to an entry point, put into words: a header with the
reason, a frame for every node, and a label between two frames where the way from one to the other is
not a plain call.
-/

namespace CallAudit

/-- A route in words. -/
structure Chain where
  /-- The nodes of the route, the interesting one first. -/
  nodes : List Node
  lines : List String
  reason : Option Reason := none
deriving DecidableEq, Repr, Inhabited

namespace Chain

def source? (c : Chain) : Option Node := c.nodes.head?

def destination? (c : Chain) : Option Node := c.nodes.getLast?

/-- The node a chain is gathered under. -/
def groupKey? (c : Chain) : Grouping → Option Node
  | .none => none
  | .callee => c.source?
  | .caller => c.destination?

/-- The lines as a text, each with a line break after it. -/
def text (c : Chain) : String :=
  String.join (c.lines.map (· ++ "\n"))

/-- The lines as a JSON array. -/
def json (c : Chain) : Json :=
  .ofTexts c.lines

end Chain

/-- What the numbers in a search result stand for. -/
structure Basis where
  program : Program
  graph : Graph
  snapshot : Snapshot

namespace Basis

/-- The line for a node. -/
def frame (b : Basis) : Node → String
  | .method m => b.program.display (.method m)
  | .type t => "-- (type) -- " ++ b.program.display (.type t)

/-- What there is to say about the way from a node to one that depends on it. A plain call among the
edges leaves nothing to say. -/
def hopLabel? (b : Basis) (dependent dependency : Node) : Option String :=
  let kinds := b.graph.kindsBetween dependent dependency
  if kinds.any EdgeKind.isDirectCall then none else kinds.findSome? EdgeKind.hopLabel?

/-- The frames of a route with the labels between them. -/
def frames (b : Basis) : List Node → List String
  | [] => []
  | [n] => [b.frame n]
  | n :: next :: route =>
      let label := (b.hopLabel? next n).toList.map ("-- " ++ ·)
      b.frame n :: (label ++ b.frames (next :: route))

/-- The first line of a chain. -/
def header (reason : Option Reason) : String :=
  "---------- (" ++ reason.getD "???" ++ ")"

/-- The chain to a destination of a search result. -/
def chain (b : Basis) (result : SearchResult) (destination : Nat) : Except AuditError Chain := do
  let route ← result.route destination
  match route.mapM b.snapshot.node? with
  | none => throw .reporterLost
  | some nodes =>
      let reason := (b.snapshot.verdict result.source).reason
      return { nodes, reason, lines := header reason :: b.frames nodes }

end Basis

end CallAudit

import CallAudit.Distinct
import CallAudit.Dependency.Kind

/-!
# The dependency graph

A graph is a distinct list of edges in order of arrival, and the distinct list of the nodes they
touch. Edges are added one by one and taken away by a criterion; a node lives exactly as long as
some edge touches it.
-/

namespace CallAudit

/-- Edges and the nodes they touch, with what the constructor pass needs to remember. -/
structure Graph where
  edges : List Edge := []
  nodes : List Node := []
  /-- The methods that a dispatching call was resolved to when the graph was built. -/
  virtualTargets : List MethodId := []
  /-- Whether constructor dependencies were asked for before. -/
  constructorPassDone : Bool := false
deriving DecidableEq, Repr, Inhabited

/-- The distinct ends of a list of edges, source before target. -/
def endpoints (edges : List Edge) : List Node :=
  Distinct.ofList (edges.flatMap fun e => [e.source, e.target])

namespace Graph

/-! ## Adding -/

/-- Adds an edge that is new, and its ends if they are. -/
def addEdge (g : Graph) (e : Edge) : Graph :=
  if e ∈ g.edges then g
  else
    { g with
      edges := g.edges ++ [e]
      nodes := Distinct.insertAll g.nodes [e.source, e.target] }

def addEdges (g : Graph) (edges : List Edge) : Graph :=
  edges.foldl addEdge g

/-- Remembers a method that a dispatching call was resolved to. -/
def addVirtualTarget (g : Graph) (m : MethodId) : Graph :=
  { g with virtualTargets := Distinct.insert g.virtualTargets m }

/-! ## Taking away -/

/-- Keeps the edges that pass a test, and tells how many did not. -/
def keepEdges (g : Graph) (keep : Edge → Bool) : Nat × Graph :=
  let kept := g.edges.filter keep
  let removed := g.edges.length - kept.length
  if removed = 0 then (0, g)
  else (removed, { g with edges := kept, nodes := endpoints kept })

/-- Takes away every call that dispatch resolved. -/
def removeVirtualCalls (g : Graph) : Nat × Graph :=
  g.keepEdges (·.kind != .virtualCallToVirtual)

/-- Whether an edge is a call, of whatever kind, from one of the given callers to its callee. -/
def isCallAmong (calls : List (MethodId × MethodId)) (e : Edge) : Bool :=
  e.kind.isCall &&
    match e.source, e.target with
    | .method caller, .method callee => calls.contains (caller, callee)
    | _, _ => false

/-- Takes away the calls between the given pairs of methods. -/
def removeCalls (g : Graph) (calls : List (MethodId × MethodId)) : Nat × Graph :=
  g.keepEdges fun e => !isCallAmong calls e

/-- Takes away the given nodes, with every edge that touches one of them. -/
def removeNodes (g : Graph) (doomed : List Node) : Nat × Graph :=
  g.keepEdges fun e => !doomed.contains e.source && !doomed.contains e.target

/-! ## Looking -/

def containsNode (g : Graph) (n : Node) : Bool :=
  g.nodes.contains n

def containsEdge (g : Graph) (e : Edge) : Bool :=
  g.edges.contains e

/-- The kinds of the edges from `source` to `target`, in order of arrival. -/
def kindsBetween (g : Graph) (source target : Node) : List EdgeKind :=
  (g.edges.filter fun e => e.source == source && e.target == target).map (·.kind)

/-- The edges that touch a node. -/
def touching (g : Graph) (n : Node) : List Edge :=
  g.edges.filter (·.touches n)

/-- One edge for every pair of joined nodes: the first to arrive. -/
def simpleEdges (g : Graph) : List Edge :=
  g.edges.foldl
    (fun kept e =>
      if kept.any fun k => k.source == e.source && k.target == e.target then kept
      else kept ++ [e])
    []

end Graph

end CallAudit

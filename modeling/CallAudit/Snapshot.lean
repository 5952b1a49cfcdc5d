import CallAudit.Classifier.Basic
import CallAudit.Dependency.Graph

/-!
# Snapshots

A snapshot numbers the nodes of a graph in graph order and keeps, per number, the neighbours in both
directions and what the classifier said. It goes stale as soon as the graph changes.
-/

namespace CallAudit

/-- What the classifier said about a node. Nothing is said about types. -/
structure Verdict where
  entry : Bool := false
  safe : Bool := false
  /-- Why the node is interesting, if it is. -/
  reason : Option Reason := none
deriving DecidableEq, Repr, Inhabited

/-- Numbered nodes with their verdicts and their neighbours, by number. -/
structure Snapshot where
  nodes : Array Node := #[]
  verdicts : Array Verdict := #[]
  /-- What each node depends on. -/
  callees : Array (List Nat) := #[]
  /-- What depends on each node. -/
  callers : Array (List Nat) := #[]
deriving DecidableEq, Repr, Inhabited

namespace Snapshot

/-! ## Looking -/

def size (s : Snapshot) : Nat := s.nodes.size

def node? (s : Snapshot) (i : Nat) : Option Node := s.nodes[i]?

/-- The number of a node. -/
def index? (s : Snapshot) (n : Node) : Option Nat := s.nodes.idxOf? n

def verdict (s : Snapshot) (i : Nat) : Verdict := s.verdicts[i]?.getD {}

def isInteresting (s : Snapshot) (i : Nat) : Bool := (s.verdict i).reason.isSome

def isEntry (s : Snapshot) (i : Nat) : Bool := (s.verdict i).entry

def isSafe (s : Snapshot) (i : Nat) : Bool := (s.verdict i).safe

/-- The numbers, in order, that pass a test. -/
def indices (s : Snapshot) (test : Nat → Bool) : List Nat :=
  (List.range s.size).filter test

def interesting (s : Snapshot) : List Nat := s.indices s.isInteresting

def entries (s : Snapshot) : List Nat := s.indices s.isEntry

/-- How many ordered pairs of nodes are joined. -/
def edgeCount (s : Snapshot) : Nat :=
  (s.callees.map List.length).foldl (· + ·) 0

/-! ## Taking -/

/-- The joined pairs of a graph by number, in order of the first edge between them. -/
def joinedPairs (g : Graph) (nodes : Array Node) : List (Nat × Nat) :=
  Distinct.ofList (g.edges.filterMap fun e =>
    match nodes.idxOf? e.source, nodes.idxOf? e.target with
    | some source, some target => some (source, target)
    | _, _ => none)

/-- The second members of the pairs that start with each number below `count`. -/
def neighbours (count : Nat) (pairs : List (Nat × Nat)) : Array (List Nat) :=
  Array.ofFn fun (i : Fin count) => (pairs.filter (·.1 == i.val)).map Prod.snd

/-- A snapshot of a graph with given verdicts. -/
def ofVerdicts (g : Graph) (verdicts : List Verdict) : Snapshot :=
  let nodes := g.nodes.toArray
  let pairs := joinedPairs g nodes
  { nodes
    verdicts := verdicts.toArray
    callees := neighbours nodes.size pairs
    callers := neighbours nodes.size (pairs.map Prod.swap) }

/-- A snapshot without nodes of a program, from what each number depends on and a verdict for it. -/
def ofCallees (callees : List (List Nat)) (verdict : Nat → Verdict) : Snapshot :=
  let pairs := callees.zipIdx.flatMap fun (targets, source) => targets.map fun t => (source, t)
  { nodes := (Array.range callees.length).map Node.method
    verdicts := (Array.range callees.length).map verdict
    callees := callees.toArray
    callers := neighbours callees.length (pairs.map Prod.swap) }

/-- Asks about every method among the nodes, in order. The first failure ends it. -/
def judge (c : Classifier) (program : Program) (ask : Inquiry σ) :
    List Node → σ → Except AuditError (List Verdict) × σ
  | [], memory => (.ok [], memory)
  | .type _ :: nodes, memory =>
      match judge c program ask nodes memory with
      | (.ok verdicts, memory) => (.ok ({} :: verdicts), memory)
      | (.error e, memory) => (.error e, memory)
  | .method m :: nodes, memory =>
      match ask m memory with
      | (.error e, memory) => (.error e, memory)
      | (.ok reason, memory) =>
          match judge c program ask nodes memory with
          | (.ok verdicts, memory) =>
              (.ok ({ entry := c.isEntry program m, safe := c.isSafe program m, reason } ::
                verdicts), memory)
          | (.error e, memory) => (.error e, memory)

/-- Takes a snapshot of a graph, asking about every method in it. -/
def take (c : Classifier) (program : Program) (ask : Inquiry σ) (g : Graph) (memory : σ) :
    Except AuditError Snapshot × σ :=
  match judge c program ask g.nodes memory with
  | (.ok verdicts, memory) => (.ok (ofVerdicts g verdicts), memory)
  | (.error e, memory) => (.error e, memory)

/-- Takes a snapshot of a graph that has shrunk since, without asking again: every node keeps the
verdict it had, and a node that is new has none. -/
def retake (old : Snapshot) (g : Graph) : Snapshot :=
  ofVerdicts g (g.nodes.map fun n => ((old.index? n).map old.verdict).getD {})

end Snapshot

end CallAudit

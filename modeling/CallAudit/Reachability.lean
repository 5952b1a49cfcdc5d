import CallAudit.Snapshot

/-!
# What can be reached

The closure of a set of roots under neighbours, and its use: a node that reaches nothing interesting
stands on no chain and can be pruned.
-/

namespace CallAudit

namespace Closure

variable {α : Type} [DecidableEq α]

/-- Visits nodes breadth first. Every round takes one node off the queue; a node is queued when it is
first seen. -/
def visit (neighbours : α → List α) : (fuel : Nat) → (queue seen : List α) → List α
  | 0, _, seen => seen
  | _, [], seen => seen
  | fuel + 1, node :: queue, seen =>
      let new := Distinct.ofList ((neighbours node).filter (· ∉ seen))
      visit neighbours fuel (queue ++ new) (seen ++ new)

/-- Everything that can be reached from the roots that satisfy `contains`, these included. A node met
on the way need not satisfy it. `everything` lists every node that can be met. -/
def reachable (contains : α → Bool) (neighbours : α → List α) (everything roots : List α) : List α :=
  let start := Distinct.ofList (roots.filter contains)
  visit neighbours (start.length + everything.length) start start

/-- The neighbours that rows of an adjacency list give a node. -/
def rowOf (rows : List (α × List α)) (node : α) : List α :=
  (rows.lookup node).getD []

/-- Everything that can be reached from the roots that have a row. -/
def reachableInRows (rows : List (α × List α)) (roots : List α) : List α :=
  reachable (fun a => (rows.lookup a).isSome) (rowOf rows) (rows.flatMap Prod.snd) roots

end Closure

namespace Snapshot

/-- The nodes that are interesting or depend, however indirectly, on an interesting one. -/
def reaching (s : Snapshot) : List Nat :=
  Closure.reachable (· < s.size) (fun i => s.callers[i]?.getD []) (List.range s.size)
    s.interesting

/-- A mark for each number: whether its node is interesting or reaches an interesting one. -/
def reachMarks (s : Snapshot) : Array Bool :=
  let reaching := s.reaching
  (Array.range s.size).map fun i => reaching.contains i

/-- Whether a node is interesting or reaches an interesting one. -/
def reachesInteresting (s : Snapshot) (i : Nat) : Bool :=
  s.reachMarks[i]?.getD false

/-- The nodes that reach nothing interesting, in order. -/
def pruneSet (s : Snapshot) : List Nat :=
  let reaching := s.reaching
  s.indices fun i => !reaching.contains i

end Snapshot

end CallAudit

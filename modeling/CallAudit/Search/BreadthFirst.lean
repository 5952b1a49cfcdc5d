import CallAudit.Search.Result

/-!
# Constrained breadth-first search

From one source, over numbered nodes, the search finds a shortest way to every destination that it
may reach. The constraints stop it in different ways: an edge may be forbidden, a node may be found
but neither reported nor expanded, or found and reported but not expanded.
-/

namespace CallAudit

/-- Where searches start and end, and what they may not do. -/
structure Constraints where
  isSource : Nat → Bool
  isDestination : Nat → Bool
  /-- Found, but neither reported nor expanded. -/
  isBarred : Nat → Bool := fun _ => false
  /-- Not expanded, unless it is the source of the search. -/
  isDeadEnd : Nat → Bool := fun _ => false
  /-- Edges, in the direction of the search, that are never crossed. -/
  isForbidden : Nat → Nat → Bool := fun _ _ => false
  /-- Whether other sources are barred. -/
  stopsAtSources : Bool := true
  /-- Whether the search goes on after the first destination. -/
  findsAll : Bool := true

namespace Constraints

/-- Whether a node, once found, is neither reported nor expanded. -/
def blocks (c : Constraints) (v : Nat) : Bool :=
  c.stopsAtSources && c.isSource v || c.isBarred v

end Constraints

namespace Search

/-- A search under way. -/
structure State where
  prev : Array Nat
  dist : Array (Option Nat)
  /-- Destinations found so far, in order. -/
  destinations : List Nat
  /-- Nodes to expand, in order. -/
  queue : List Nat
  /-- Whether a destination ended the search. -/
  stopped : Bool := false
deriving DecidableEq, Repr

/-- The state in which only the source is found. -/
def start (count source : Nat) : State where
  prev := Array.range count
  dist := (Array.replicate count none).setIfInBounds source (some 0)
  destinations := []
  queue := [source]

/-- Whether the search has yet to find a node. A number out of range is never found. -/
def State.isNew (s : State) (v : Nat) : Bool :=
  s.dist[v]? == some none

/-- Notes that `v` was found from `u`. -/
def State.find (s : State) (u v : Nat) : State :=
  { s with
    prev := s.prev.setIfInBounds v u
    dist := s.dist.setIfInBounds v ((s.dist[u]?.join).map (· + 1)) }

/-- Looks at one neighbour `v` of the node `u` being expanded. -/
def step (c : Constraints) (u : Nat) (s : State) (v : Nat) : State :=
  if s.stopped || c.isForbidden u v || !s.isNew v then s
  else
    let s := s.find u v
    if c.blocks v then s
    else if c.isDestination v then
      { s with destinations := s.destinations ++ [v], stopped := !c.findsAll }
    else { s with queue := s.queue ++ [v] }

/-- Takes nodes off the queue and expands them. A node enters the queue when it is first found, so
there are no more rounds than nodes. -/
def rounds (neighbours : Array (List Nat)) (c : Constraints) (source : Nat) :
    (fuel : Nat) → State → State
  | 0, s => s
  | fuel + 1, s =>
      if s.stopped then s
      else
        match s.queue with
        | [] => s
        | u :: queue =>
            let s := { s with queue }
            if u ≠ source ∧ c.isDeadEnd u then rounds neighbours c source fuel s
            else rounds neighbours c source fuel ((neighbours[u]?.getD []).foldl (step c u) s)

end Search

/-- Searches from one source. A source that is a destination is all there is to find. -/
def search (neighbours : Array (List Nat)) (c : Constraints) (source : Nat) : SearchResult :=
  let start := Search.start neighbours.size source
  if c.isDestination source then
    { prev := start.prev, dist := start.dist, destinations := [source], source }
  else
    let s := Search.rounds neighbours c source neighbours.size start
    { prev := s.prev, dist := s.dist, destinations := s.destinations, source }

/-- Searches from every source, in order. -/
def searchAll (neighbours : Array (List Nat)) (c : Constraints) : List SearchResult :=
  ((List.range neighbours.size).filter c.isSource).map (search neighbours c)

end CallAudit

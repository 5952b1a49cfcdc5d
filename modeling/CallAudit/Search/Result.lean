import CallAudit.Error

/-!
# Search results and routes

A search leaves behind, per node number, the parent it was found from and its distance. Following
parents back from a node gives a shortest route; a result that was not left by a search may be
broken, and then the route says how.
-/

namespace CallAudit

/-- What a search from one source found. -/
structure SearchResult where
  /-- Per number, the neighbour it was found from; the source and what was not found are their own
  parents. -/
  prev : Array Nat
  /-- Per number, the hops from the source, if it was found. -/
  dist : Array (Option Nat)
  /-- The destinations, in order of discovery. -/
  destinations : List Nat
  source : Nat
deriving DecidableEq, Repr, Inhabited

/-- How a distance is written down that there is none of: the largest number of 32 bits. -/
def unreachedMark : Nat := Nat.pow 2 32 - 1

/-- A written distance. -/
def distanceOfMark (n : Nat) : Option Nat :=
  if n = unreachedMark then none else some n

/-- A distance as it is written. -/
def markOfDistance (d : Option Nat) : Nat :=
  d.getD unreachedMark

namespace SearchResult

/-- The hops to a number that was found. -/
def distance? (r : SearchResult) (i : Nat) : Option Nat := r.dist[i]?.join

/-- Follows parents from `current`, whose way to the destination is `walked`, until the source. The
way is broken at a number that is its own parent, and when no fuel is left; past the last number there
is no parent to follow. -/
def walkBack (r : SearchResult) (destination : Nat) :
    (fuel current : Nat) → (walked : List Nat) → Except AuditError (List Nat)
  | 0, current, walked =>
      if current = r.source then .ok (current :: walked)
      else if current < r.prev.size then
        .error (.invariant (.brokenParentChain destination r.source))
      else .error .reporterLost
  | fuel + 1, current, walked =>
      if current = r.source then .ok (current :: walked)
      else
        match r.prev[current]? with
        | none => .error .reporterLost
        | some parent =>
            if parent = current then .error (.invariant (.brokenParentChain destination r.source))
            else walkBack r destination fuel parent (current :: walked)

/-- The route from the source to a destination, both included. -/
def route (r : SearchResult) (destination : Nat) : Except AuditError (List Nat) :=
  match r.dist[destination]? with
  | none => .error (.invariant (.destinationOutOfRange destination))
  | some none => .error (.invariant (.destinationNotReached destination r.source))
  | some (some distance) => do
      let path ← walkBack r destination r.prev.size destination []
      if path.length - 1 = distance then return path
      else throw (.invariant (.hopCountMismatch destination (path.length - 1) distance))

end SearchResult

end CallAudit

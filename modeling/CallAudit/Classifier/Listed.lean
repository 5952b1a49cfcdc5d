import CallAudit.Classifier.Basic

/-!
# Classification by lists

The plainest classifier: every answer is listed.
-/

namespace CallAudit

/-- The methods of each sort. A method listed twice as interesting has the later reason. -/
structure Listing where
  entries : List MethodId := []
  interesting : List (MethodId × Reason) := []
  safe : List MethodId := []
deriving DecidableEq, Repr, Inhabited

namespace Listing

/-- Lists a method as interesting, in place of any reason it had. -/
def addInteresting (l : Listing) (m : MethodId) (reason : Reason) : Listing :=
  { l with interesting := (m, reason) :: l.interesting.filter (·.1 != m) }

def classifier (l : Listing) : Classifier where
  isEntry _ m := l.entries.contains m
  reason? _ m := .ok (l.interesting.lookup m)
  isSafe _ m := l.safe.contains m
  knownReasons := sortedDistinct (l.interesting.map Prod.snd)

end Listing

end CallAudit

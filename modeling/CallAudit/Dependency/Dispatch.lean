import CallAudit.Facts.Basic

/-!
# Resolving dispatch

A dispatching call may run any method that overrides its callee, directly or through other
overrides. Methods of interfaces carry the search on but never run themselves.
-/

namespace CallAudit.Dispatch

/-- The methods that override one directly, in order of recording. -/
def overridesOf (facts : Facts) (base : MethodId) : List MethodId :=
  (facts.overrides.filter (·.1 == base)).map Prod.snd

/-- Collects, breadth first, what can be reached by overriding. The callee itself is passed over.
Every round takes one method off the queue. -/
def collect (facts : Facts) (callee : MethodId) :
    (fuel : Nat) → (queue seen : List MethodId) → List MethodId
  | 0, _, seen => seen
  | _, [], seen => seen
  | fuel + 1, m :: queue, seen =>
      if m = callee ∨ m ∈ seen then collect facts callee fuel queue seen
      else collect facts callee fuel (queue ++ overridesOf facts m) (seen ++ [m])

/-- The methods a dispatching call to `callee` may run. The callee is among them only if nothing
overrides it or it is recorded as overriding itself. Every override enters the queue at most once, so
there are no more rounds than overrides. -/
def targets (program : Program) (facts : Facts) (callee : MethodId) : List MethodId :=
  match overridesOf facts callee with
  | [] => [callee]
  | direct =>
      let start := if (callee, callee) ∈ facts.overrides then [callee] else []
      (collect facts callee facts.overrides.length direct start).filter fun m =>
        !program.isInterfaceMethod m

end CallAudit.Dispatch

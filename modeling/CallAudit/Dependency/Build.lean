import CallAudit.Dependency.Graph
import CallAudit.Dependency.Dispatch

/-!
# Building the graph from facts

Calls come first, then static constructors, field accesses and type references. A dispatching call
to a method that is not virtual is as good as direct; one to a method of an interface says nothing
about what runs and is left out.
-/

namespace CallAudit.Graph

def addDirectCalls (g : Graph) (calls : List (MethodId × MethodId)) : Graph :=
  g.addEdges (calls.map fun (caller, callee) => ⟨.method caller, .method callee, .directCall⟩)

/-- Adds an edge to every method a dispatching call may run. -/
def addDispatch (g : Graph) (caller : MethodId) (targets : List MethodId) : Graph :=
  targets.foldl
    (fun g target =>
      (g.addEdge ⟨.method caller, .method target, .virtualCallToVirtual⟩).addVirtualTarget target)
    g

/-- Adds what one dispatching call stands for. -/
def addVirtualCall (program : Program) (facts : Facts) (g : Graph)
    (call : MethodId × MethodId) : Graph :=
  let (caller, callee) := call
  if !program.isVirtual callee then
    g.addEdge ⟨.method caller, .method callee, .virtualCallToNonVirtual⟩
  else if program.isInterfaceMethod callee then g
  else g.addDispatch caller (Dispatch.targets program facts callee)

def addStaticConstructors (g : Graph) (pairs : List (TypeId × MethodId)) : Graph :=
  g.addEdges (pairs.map fun (type, constructor) =>
    ⟨.type type, .method constructor, .staticConstructorDependency⟩)

def addFieldAccesses (g : Graph) (pairs : List (MethodId × MethodId)) : Graph :=
  g.addEdges (pairs.map fun (accessor, constructor) =>
    ⟨.method accessor, .method constructor, .staticFieldAccessDependency⟩)

def addTypeReferences (g : Graph) (pairs : List (MethodId × TypeId)) : Graph :=
  g.addEdges (pairs.map fun (method, type) => ⟨.method method, .type type, .typeDependency⟩)

/-- The graph that the facts about a program call for. -/
def build (program : Program) (facts : Facts) : Graph :=
  let g := ({} : Graph).addDirectCalls facts.directCalls
  let g := facts.virtualCalls.foldl (addVirtualCall program facts) g
  let g := g.addStaticConstructors facts.staticConstructorDependencies
  let g := g.addFieldAccesses facts.fieldAccessDependencies
  g.addTypeReferences facts.typeDependencies

end CallAudit.Graph

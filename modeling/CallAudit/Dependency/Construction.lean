import CallAudit.Classifier.Basic
import CallAudit.Dependency.Graph

/-!
# Constructor dependencies

An interesting method that is only ever called through dispatch runs because some object of its type
was made. The constructor pass says so: every constructor of the declaring type that is in the graph
comes to depend on the method. The pass may be made once.
-/

namespace CallAudit.Graph

/-- Whether some call without dispatch reaches a method. -/
def isDirectlyCalled (g : Graph) (m : MethodId) : Bool :=
  g.edges.any fun e => e.kind.isDirectCall && e.target == .method m

/-- Whether objects of the declaring type are what makes a method run: it belongs to them, is not
itself a constructor, and no call names it without dispatch. -/
def needsConstruction (program : Program) (g : Graph) (m : MethodId) : Bool :=
  (program.method? m).any fun row =>
    !row.modifiers.isStatic && !row.modifiers.isConstructor && !g.isDirectlyCalled m

/-- The dependencies of a type's constructors on one of its methods. -/
def constructorEdges (program : Program) (g : Graph) (m : MethodId) : List Edge :=
  match program.method? m with
  | none => []
  | some row =>
      ((program.constructorsOf row.declaringType).filter fun c => g.containsNode (.method c)).map
        fun c => ⟨.method c, .method m, .constructorDependency⟩

/-- The dependencies to add for a list of methods. The first question that fails ends the pass. -/
def newConstructorEdges (program : Program) (g : Graph) (ask : Inquiry σ) :
    List MethodId → σ → Except AuditError (List Edge) × σ
  | [], memory => (.ok [], memory)
  | m :: ms, memory =>
      if needsConstruction program g m then
        match ask m memory with
        | (.error e, memory) => (.error e, memory)
        | (.ok none, memory) => newConstructorEdges program g ask ms memory
        | (.ok (some _), memory) =>
            match newConstructorEdges program g ask ms memory with
            | (.ok edges, memory) => (.ok (constructorEdges program g m ++ edges), memory)
            | (.error e, memory) => (.error e, memory)
      else newConstructorEdges program g ask ms memory

/-- Makes the constructor pass, and tells how many edges it added. A pass that fails adds none, and
counts as made. -/
def addConstructorEdges (program : Program) (ask : Inquiry σ) (g : Graph) (memory : σ) :
    Except AuditError Nat × Graph × σ :=
  if g.constructorPassDone then
    (.error (.invariant .constructorEdgesAddedTwice), g, memory)
  else
    let g := { g with constructorPassDone := true }
    match newConstructorEdges program g ask g.virtualTargets memory with
    | (.error e, memory) => (.error e, g, memory)
    | (.ok edges, memory) =>
        let grown := g.addEdges edges
        (.ok (grown.edges.length - g.edges.length), grown, memory)

end CallAudit.Graph

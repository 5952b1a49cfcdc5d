import CallAudit.Program.Basic

/-!
# Kinds of dependencies

An edge says that one node depends on another, and why. Overriding is not a kind: it is used up when
virtual calls are resolved.
-/

namespace CallAudit

/-- Why one node depends on another. -/
inductive EdgeKind where
  | directCall
  /-- A dispatching call to a method that cannot be overridden. -/
  | virtualCallToNonVirtual
  /-- A dispatching call, resolved to one of the methods that may run. -/
  | virtualCallToVirtual
  /-- From a constructor to a method that objects of the type may run. -/
  | constructorDependency
  /-- From a type to its static constructor. -/
  | staticConstructorDependency
  /-- From the method that touches a static field to the static constructor. -/
  | staticFieldAccessDependency
  /-- From a method to a type it mentions. -/
  | typeDependency
deriving DecidableEq, Repr, Inhabited

namespace EdgeKind

/-- The kinds that a call instruction gives rise to. -/
def isCall : EdgeKind → Bool
  | directCall | virtualCallToNonVirtual | virtualCallToVirtual => true
  | _ => false

/-- The calls that reach their target without dispatch. -/
def isDirectCall : EdgeKind → Bool
  | directCall | virtualCallToNonVirtual => true
  | _ => false

/-- What a chain says between two frames; a call without dispatch needs no word. -/
def hopLabel? : EdgeKind → Option String
  | directCall | virtualCallToNonVirtual => none
  | virtualCallToVirtual => some "virtual call"
  | constructorDependency => some "constructor dependency"
  | staticConstructorDependency => some "static constructor kept for type"
  | staticFieldAccessDependency => some "static field access"
  | typeDependency => some "type reference"

/-- The kind in words. -/
def display : EdgeKind → String
  | directCall => "direct call"
  | virtualCallToNonVirtual => "virtual call to non-virtual"
  | virtualCallToVirtual => "virtual call"
  | constructorDependency => "constructor dependency"
  | staticConstructorDependency => "static constructor dependency"
  | staticFieldAccessDependency => "static field access"
  | typeDependency => "type dependency"

theorem isCall_of_isDirectCall {k : EdgeKind} (h : k.isDirectCall) : k.isCall := by
  cases k <;> simp_all [isCall, isDirectCall]

/-- Exactly the calls without dispatch go unlabelled. -/
theorem hopLabel?_eq_none_iff {k : EdgeKind} : k.hopLabel? = none ↔ k.isDirectCall := by
  cases k <;> simp [hopLabel?, isDirectCall]

end EdgeKind

/-- `source` depends on `target`. -/
structure Edge where
  source : Node
  target : Node
  kind : EdgeKind
deriving DecidableEq, Repr, Inhabited

/-- Whether a node is an end of an edge. -/
def Edge.touches (e : Edge) (n : Node) : Bool :=
  e.source == n || e.target == n

end CallAudit

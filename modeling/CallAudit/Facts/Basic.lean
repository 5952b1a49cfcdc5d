import CallAudit.Distinct
import CallAudit.Program.Names

/-!
# Facts about a program

The tuples of a fact document over places in the tables. Every list is distinct and in order of
arrival.
-/

namespace CallAudit

/-- Everything recorded about how the elements of a program depend on each other. -/
structure Facts where
  directCalls : List (MethodId × MethodId) := []
  virtualCalls : List (MethodId × MethodId) := []
  /-- Base, then overriding method. -/
  overrides : List (MethodId × MethodId) := []
  /-- Type, then static constructor. -/
  staticConstructorDependencies : List (TypeId × MethodId) := []
  /-- Accessing method, then static constructor. -/
  fieldAccessDependencies : List (MethodId × MethodId) := []
  /-- Method, then type. -/
  typeDependencies : List (MethodId × TypeId) := []
  /-- The entry surface, if one was recorded. -/
  entryMethods : Option (List MethodId) := none
  unanalyzedMethods : List MethodId := []
  /-- Caller, then the reflection method it calls in a way that is understood. -/
  resolvedReflectionCalls : List (MethodId × MethodId) := []
deriving DecidableEq, Repr, Inhabited

namespace Facts

open Distinct (insert)

def addDirectCall (f : Facts) (caller callee : MethodId) : Facts :=
  { f with directCalls := insert f.directCalls (caller, callee) }

def addVirtualCall (f : Facts) (caller callee : MethodId) : Facts :=
  { f with virtualCalls := insert f.virtualCalls (caller, callee) }

def addOverride (f : Facts) (base overriding : MethodId) : Facts :=
  { f with overrides := insert f.overrides (base, overriding) }

def addStaticConstructor (f : Facts) (type : TypeId) (constructor : MethodId) : Facts :=
  { f with
    staticConstructorDependencies := insert f.staticConstructorDependencies (type, constructor) }

def addFieldAccess (f : Facts) (accessor constructor : MethodId) : Facts :=
  { f with fieldAccessDependencies := insert f.fieldAccessDependencies (accessor, constructor) }

def addTypeReference (f : Facts) (method : MethodId) (type : TypeId) : Facts :=
  { f with typeDependencies := insert f.typeDependencies (method, type) }

/-- Adds an entry method; the first one starts the entry surface. -/
def addEntry (f : Facts) (method : MethodId) : Facts :=
  { f with entryMethods := some (insert (f.entryMethods.getD []) method) }

def addUnanalyzed (f : Facts) (method : MethodId) : Facts :=
  { f with unanalyzedMethods := insert f.unanalyzedMethods method }

def addResolvedReflectionCall (f : Facts) (caller callee : MethodId) : Facts :=
  { f with resolvedReflectionCalls := insert f.resolvedReflectionCalls (caller, callee) }

/-- How many tuples relate two elements. Resolved reflection calls only qualify calls that are
counted already. -/
def tupleCount (f : Facts) : Nat :=
  f.directCalls.length + f.virtualCalls.length + f.overrides.length +
    f.staticConstructorDependencies.length + f.fieldAccessDependencies.length +
    f.typeDependencies.length

end Facts

end CallAudit

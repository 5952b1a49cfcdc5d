import CallAudit.Facts.Basic
import CallAudit.Facts.Document

/-!
# Recording facts

A recording grows a program and the facts about it side by side. A document is recorded by entering
its types, its methods and then its tuples, list by list. An endpoint that nothing describes becomes
a placeholder; a tuple with an empty endpoint relates nothing and adds no fact.
-/

namespace CallAudit

/-- A program and what is known about it so far. -/
structure Recording where
  program : Program := {}
  facts : Facts := {}
deriving DecidableEq, Repr, Inhabited

namespace Recording

def addMethod (r : Recording) (row : Method) : MethodId × Recording :=
  let (id, program) := r.program.addMethod row
  (id, { r with program })

def addType (r : Recording) (row : TypeRow) : TypeId × Recording :=
  let (id, program) := r.program.addType row
  (id, { r with program })

/-! ## Endpoints -/

/-- The method an endpoint names; an empty endpoint names none. -/
def resolveMethod (r : Recording) (key : String) : Option MethodId × Recording :=
  if key.isEmpty then (none, r)
  else
    let (id, program) := r.program.ensureMethod key
    (some id, { r with program })

/-- The type an endpoint names; an empty endpoint names none. -/
def resolveType (r : Recording) (fullName : String) : Option TypeId × Recording :=
  if fullName.isEmpty then (none, r)
  else
    let (id, program) := r.program.ensureType fullName
    (some id, { r with program })

/-! ## Tuples -/

/-- How a list of tuples is recorded: what its two endpoints name, and the fact they make. -/
structure TupleSort where
  resolveLeft : Recording → String → Option Nat × Recording := resolveMethod
  resolveRight : Recording → String → Option Nat × Recording := resolveMethod
  add : Facts → Nat → Nat → Facts

/-- Records one tuple. Both endpoints are resolved, left before right, even if one of them turns out
to be empty. -/
def addTuple (sort : TupleSort) (r : Recording) (tuple : Tuple) : Recording :=
  let (left, r) := sort.resolveLeft r tuple.1
  let (right, r) := sort.resolveRight r tuple.2
  match left, right with
  | some a, some b => { r with facts := sort.add r.facts a b }
  | _, _ => r

def addTuples (sort : TupleSort) (r : Recording) (tuples : List Tuple) : Recording :=
  tuples.foldl (addTuple sort) r

/-- Records one method under `add`, unless the key is empty. -/
def addMarked (add : Facts → MethodId → Facts) (r : Recording) (key : String) : Recording :=
  match r.resolveMethod key with
  | (some id, r) => { r with facts := add r.facts id }
  | (none, r) => r

end Recording

/-! ## Documents -/

/-- The row a type record describes: what it leaves open follows from the name. -/
def TypeRecord.row (t : TypeRecord) : TypeRow :=
  { TypeRow.named t.fullName with
    «namespace» := t.namespace.getD (TypeRow.namespaceOf t.fullName)
    enclosing := t.enclosing.or (TypeRow.enclosingOf t.fullName)
    isInterface := t.isInterface
    isPublic := t.isPublic }

/-- The row a method record describes: it returns nothing and has its default key unless told
otherwise. -/
def MethodRecord.row (m : MethodRecord) : Method :=
  { Method.named m.declaringType m.name with
    key := m.key.getD (Method.defaultKey m.declaringType m.name)
    parameters := m.parameters
    returnType := m.returnType.getD "System.Void"
    modifiers := m.modifiers }

namespace Recording

/-- Enters the descriptions of a document. -/
def describe (r : Recording) (d : FactDocument) : Recording :=
  let r := d.types.foldl (fun r t => (r.addType t.row).2) r
  d.methods.foldl (fun r m => (r.addMethod m.row).2) r

/-- Records the seven lists of tuples of a document. -/
def relate (r : Recording) (d : FactDocument) : Recording :=
  let r := r.addTuples { add := Facts.addDirectCall } d.directCalls
  let r := r.addTuples { add := Facts.addVirtualCall } d.virtualCalls
  let r := r.addTuples { add := Facts.addOverride } d.overrides
  let r := r.addTuples { resolveLeft := resolveType, add := Facts.addStaticConstructor }
    d.staticConstructorDependencies
  let r := r.addTuples { add := Facts.addFieldAccess } d.fieldAccessDependencies
  let r := r.addTuples { resolveRight := resolveType, add := Facts.addTypeReference }
    d.typeDependencies
  r.addTuples { add := Facts.addResolvedReflectionCall } d.resolvedReflectionCalls

/-- Records the entry surface and the methods that could not be analyzed. An entry surface is there
as soon as the document has one, even if it is empty. -/
def mark (r : Recording) (d : FactDocument) : Recording :=
  let r :=
    match d.entryMethods with
    | some keys =>
        keys.foldl (addMarked Facts.addEntry)
          { r with facts := { r.facts with entryMethods := some (r.facts.entryMethods.getD []) } }
    | none => r
  d.unanalyzedMethods.foldl (addMarked Facts.addUnanalyzed) r

/-- Records a whole document from nothing. -/
def ofDocument (d : FactDocument) : Recording :=
  (((({} : Recording).describe d).relate d).mark d)

/-- Records the document a text holds. -/
def read (s : String) : Option Recording :=
  (FactDocument.read s).map ofDocument

end Recording

end CallAudit

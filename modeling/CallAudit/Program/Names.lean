import CallAudit.Program.Table

/-!
# Names seen through the tables

What a program knows about a method or a type by way of its name: the declaring type, the types
around it, its namespace, and the text that reports show for it.
-/

namespace CallAudit.Program

/-- The type a method is declared on, if it was ever entered. -/
def declaringType? (p : Program) (id : MethodId) : Option TypeRow :=
  (p.method? id).bind fun m => p.typeNamed? m.declaringType

def isVirtual (p : Program) (id : MethodId) : Bool :=
  (p.method? id).any (·.modifiers.isVirtual)

/-- Whether a method is declared on an interface. -/
def isInterfaceMethod (p : Program) (id : MethodId) : Bool :=
  (p.declaringType? id).any (·.isInterface)

def isStaticConstructor (p : Program) (id : MethodId) : Bool :=
  (p.method? id).any Method.isStaticConstructor

/-- The places of the instance constructors declared on a type, in table order. -/
def constructorsOf (p : Program) (declaringType : String) : List MethodId :=
  (p.methods.zipIdx.filter fun (m, _) =>
    m.isInstanceConstructor && m.declaringType == declaringType).map Prod.snd

/-- The type that encloses the one of this name. -/
def enclosing? (p : Program) (fullName : String) : Option String :=
  (p.typeNamed? fullName).bind (·.enclosing)

/-- Follows enclosing types outwards for at most `steps` steps. -/
def outward (p : Program) : (steps : Nat) → (fullName : String) → String
  | 0, name => name
  | steps + 1, name =>
      match p.enclosing? name with
      | some outer => p.outward steps outer
      | none => name

/-- The outermost type around a type. An acyclic chain of enclosing types visits every row at most
once, so one step more than there are rows reaches its end. -/
def outermostType (p : Program) (fullName : String) : String :=
  p.outward (p.types.length + 1) fullName

/-- The namespace of the outermost type around a type, unless it is empty or unknown. -/
def outermostNamespace? (p : Program) (fullName : String) : Option String :=
  (p.typeNamed? (p.outermostType fullName)).bind fun row =>
    if row.namespace.isEmpty then none else some row.namespace

/-- How a report marks a name that nothing describes. -/
def undescribed (name : String) : String := "(???) " ++ name

/-- The text a report shows for a node. -/
def display (p : Program) : Node → String
  | .method id =>
      match p.method? id with
      | some m => if m.described then m.signature else undescribed m.key
      | none => undescribed ""
  | .type id =>
      match p.type? id with
      | some t => if t.described then t.fullName else undescribed t.fullName
      | none => undescribed ""

/-- The type names that have instance constructors, each with their places in table order. -/
def constructorIndex (p : Program) : List (String × List MethodId) :=
  let names := (p.methods.filter Method.isInstanceConstructor).map (·.declaringType)
  names.eraseDups.map fun name => (name, p.constructorsOf name)

end CallAudit.Program

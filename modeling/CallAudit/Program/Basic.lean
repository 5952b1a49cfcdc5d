import CallAudit.Text.Cut

/-!
# Methods, types and the nodes of a program

A program is two tables, one of methods and one of types. A row is found by its text (a method by its
key, a type by its full name) and is otherwise referred to by its place in the table.
-/

namespace CallAudit

/-- The place of a method in the method table. -/
abbrev MethodId := Nat

/-- The place of a type in the type table. -/
abbrev TypeId := Nat

/-- A program element that dependencies connect. -/
inductive Node where
  | method (id : MethodId)
  | type (id : TypeId)
deriving DecidableEq, Repr, Inhabited

namespace Node

def method? : Node → Option MethodId
  | method id => some id
  | type _ => none

def type? : Node → Option TypeId
  | method _ => none
  | type id => some id

/-- Methods come before types; each sort is ordered by place. -/
def le : Node → Node → Bool
  | method a, method b => a ≤ b
  | method _, type _ => true
  | type _, method _ => false
  | type a, type b => a ≤ b

end Node

/-- What the analysis needs to know about how a method is declared. -/
structure Modifiers where
  isVirtual : Bool := false
  isAbstract : Bool := false
  isStatic : Bool := false
  isConstructor : Bool := false
  isPublic : Bool := false
deriving DecidableEq, Repr, Inhabited

/-- A single declared modifier. -/
inductive Modifier where
  | «virtual» | «abstract» | «static» | «constructor» | «public»
deriving DecidableEq, Repr

/-- Adds one modifier; an abstract method is virtual as well. -/
def Modifiers.with (m : Modifiers) : Modifier → Modifiers
  | .virtual => { m with isVirtual := true }
  | .abstract => { m with isVirtual := true, isAbstract := true }
  | .static => { m with isStatic := true }
  | .constructor => { m with isConstructor := true }
  | .public => { m with isPublic := true }

/-- A parameter of a signature; the name may be empty. -/
structure Parameter where
  typeName : String
  name : String := ""
deriving DecidableEq, Repr, Inhabited

/-- A parameter as a signature shows it: its type, then its name if it has one. -/
def Parameter.render (p : Parameter) : String :=
  if p.name.isEmpty then p.typeName else p.typeName ++ " " ++ p.name

/-- A row of the method table. A row that is not `described` is a placeholder for a method that was
only referred to. -/
structure Method where
  key : String
  declaringType : String
  name : String
  parameters : List Parameter := []
  returnType : String := "System.Void"
  modifiers : Modifiers := {}
  described : Bool := true
deriving DecidableEq, Repr, Inhabited

namespace Method

/-- The key of a method that was given none. -/
def defaultKey (declaringType name : String) : String :=
  declaringType ++ "::" ++ name ++ "()"

/-- A described method without parameters, under its default key. -/
def named (declaringType name : String) : Method where
  key := defaultKey declaringType name
  declaringType := declaringType
  name := name

def isStaticConstructor (m : Method) : Bool :=
  m.modifiers.isConstructor && m.modifiers.isStatic

def isInstanceConstructor (m : Method) : Bool :=
  m.modifiers.isConstructor && !m.modifiers.isStatic

/-- `Declaring.Type::Name(T a, U b) -> Result`. -/
def signature (m : Method) : String :=
  m.declaringType ++ "::" ++ m.name ++ "(" ++
    ", ".intercalate (m.parameters.map Parameter.render) ++ ") -> " ++ m.returnType

/-- The placeholder for a key that nothing describes. A key of the form `Prefix Type::Name(…` gives
away its declaring type and its name; any other key is all name. -/
def placeholder (key : String) : Method :=
  let (declaringType, name) :=
    match Text.splitFirst? "::" key with
    | some (before, after) => (Text.afterLast ' ' before, Text.beforeFirst '(' after)
    | none => ("", key)
  { key, declaringType, name, returnType := "", described := false }

/-- Puts a description where a placeholder stands, and leaves a described row alone. -/
def completedBy (old new : Method) : Method :=
  if !old.described && new.described then new else old

end Method

/-- A row of the type table. -/
structure TypeRow where
  fullName : String
  «namespace» : String
  /-- The type this one is nested in. -/
  enclosing : Option String := none
  isInterface : Bool := false
  isPublic : Bool := false
  described : Bool := true
deriving DecidableEq, Repr, Inhabited

namespace TypeRow

/-- The namespace a full name spells out: that of the outermost of the types it is nested in. -/
def namespaceOf (fullName : String) : String :=
  (Text.beforeLast? '.' (Text.beforeFirst '/' fullName)).getD ""

/-- The enclosing type a full name spells out. -/
def enclosingOf (fullName : String) : Option String :=
  Text.beforeLast? '/' fullName

/-- A described type whose namespace and enclosing type follow from its name. -/
def named (fullName : String) : TypeRow where
  fullName := fullName
  «namespace» := namespaceOf fullName
  enclosing := enclosingOf fullName

/-- The placeholder for a type that nothing describes. -/
def placeholder (fullName : String) : TypeRow :=
  { named fullName with described := false }

/-- Puts a description where a placeholder stands, and leaves a described row alone. -/
def completedBy (old new : TypeRow) : TypeRow :=
  if !old.described && new.described then new else old

end TypeRow

end CallAudit

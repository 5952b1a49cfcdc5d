import CallAudit.Program.Basic

/-!
# The tables of a program

Rows are only ever appended or completed: a place, once given to a key, belongs to it for good. A
row is replaced at most once, when a description arrives for a placeholder.
-/

namespace CallAudit

/-- The method table and the type table. -/
structure Program where
  methods : List Method := []
  types : List TypeRow := []
deriving DecidableEq, Repr, Inhabited

namespace Program

/-! ## Looking up -/

def methodId? (p : Program) (key : String) : Option MethodId :=
  p.methods.findIdx? (·.key == key)

def typeId? (p : Program) (fullName : String) : Option TypeId :=
  p.types.findIdx? (·.fullName == fullName)

def method? (p : Program) (id : MethodId) : Option Method :=
  p.methods[id]?

def type? (p : Program) (id : TypeId) : Option TypeRow :=
  p.types[id]?

def typeNamed? (p : Program) (fullName : String) : Option TypeRow :=
  p.types.find? (·.fullName == fullName)

/-! ## Interning -/

/-- Enters a type. The first description for a name stands. -/
def addType (p : Program) (row : TypeRow) : TypeId × Program :=
  match p.typeId? row.fullName with
  | some id => (id, { p with types := p.types.modify id (·.completedBy row) })
  | none => (p.types.length, { p with types := p.types ++ [row] })

/-- The place of a type, entered as a placeholder if it is unknown. -/
def ensureType (p : Program) (fullName : String) : TypeId × Program :=
  match p.typeId? fullName with
  | some id => (id, p)
  | none => p.addType (TypeRow.placeholder fullName)

/-- Enters the declaring type of a method, unless the method has none. -/
def ensureDeclaringType (p : Program) (declaringType : String) : Program :=
  if declaringType.isEmpty then p else (p.ensureType declaringType).2

/-- Enters a method and its declaring type. The first description for a key stands. -/
def addMethod (p : Program) (row : Method) : MethodId × Program :=
  let p := p.ensureDeclaringType row.declaringType
  match p.methodId? row.key with
  | some id => (id, { p with methods := p.methods.modify id (·.completedBy row) })
  | none => (p.methods.length, { p with methods := p.methods ++ [row] })

/-- The place of a method, entered as a placeholder if it is unknown. -/
def ensureMethod (p : Program) (key : String) : MethodId × Program :=
  match p.methodId? key with
  | some id => (id, p)
  | none => p.addMethod (Method.placeholder key)

end Program

end CallAudit

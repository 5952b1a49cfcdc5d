import CallAudit.Program.Basic
import CallAudit.Json.Record
import CallAudit.Json.Reader
import CallAudit.Json.Writer

/-!
# Fact documents

A fact document is what a metadata reader leaves behind: descriptions of methods and types, and
tuples that relate them by key. Here is its shape and its JSON form; what it means for a program is
the business of `CallAudit.Facts.Recording`.
-/

namespace CallAudit

/-- A method as a document describes it. -/
structure MethodRecord where
  key : Option String := none
  declaringType : String
  name : String
  parameters : List Parameter := []
  returnType : Option String := none
  modifiers : Modifiers := {}
deriving DecidableEq, Repr, Inhabited

/-- A type as a document describes it. -/
structure TypeRecord where
  fullName : String
  «namespace» : Option String := none
  enclosing : Option String := none
  isInterface : Bool := false
  isPublic : Bool := false
deriving DecidableEq, Repr, Inhabited

/-- Two endpoints, by key or by type name. -/
abbrev Tuple := String × String

/-- A whole document. -/
structure FactDocument where
  methods : List MethodRecord := []
  types : List TypeRecord := []
  directCalls : List Tuple := []
  virtualCalls : List Tuple := []
  /-- Base, then overriding method. -/
  overrides : List Tuple := []
  /-- Type, then static constructor. -/
  staticConstructorDependencies : List Tuple := []
  /-- Accessing method, then static constructor. -/
  fieldAccessDependencies : List Tuple := []
  /-- Method, then type. -/
  typeDependencies : List Tuple := []
  /-- The entry surface, if the reader recorded one. -/
  entryMethods : Option (List String) := none
  unanalyzedMethods : List String := []
  /-- Caller, then the reflection method it calls in a way that is understood. -/
  resolvedReflectionCalls : List Tuple := []
deriving DecidableEq, Repr, Inhabited

/-! ## Members that are kept while a method is read -/

namespace Json

mutual

/-- Whether a value can be kept without knowing what it is for: its texts are spelt in full and its
numbers fit a double. -/
def isKeepable : Json → Bool
  | number written => fitsDouble written
  | text value => value.isSome
  | array items => areKeepable items
  | object members => areKeepableMembers members
  | _ => true

def areKeepable : List Json → Bool
  | [] => true
  | v :: vs => v.isKeepable && areKeepable vs

def areKeepableMembers : List (Spelt × Json) → Bool
  | [] => true
  | (name, v) :: ms => name.isSome && v.isKeepable && areKeepableMembers ms

end

end Json

/-- How deep a value may nest that stands as an unknown member of a method. -/
def keptDepth : Nat := 124

/-! ## Reading -/

namespace Parameter

def fieldNames : List String := ["type", "name"]

def ofJson? (v : Json) : Option Parameter := do
  let [typeName, name] ← v.fields? fieldNames | none
  some {
    typeName := ← Json.required Json.text? typeName
    name := ← Json.optional "" Json.text? name }

def toJson (p : Parameter) : Json :=
  .ofMembers [("type", .ofText p.typeName), ("name", .ofText p.name)]

end Parameter

namespace MethodRecord

def fieldNames : List String := ["key", "declaring_type", "name", "parameters", "return_type"]

def modifierNames : List String :=
  ["is_virtual", "is_abstract", "is_static", "is_constructor", "is_public"]

/-- Whether the members that a method does not know can be kept. -/
def keepsRest : Json → Bool
  | .object members =>
      members.all fun (name, value) =>
        name.any (fieldNames ++ modifierNames).contains ||
          value.isKeepable && value.depth ≤ keptDepth
  | _ => true

/-- The modifiers among the members of a method. -/
def modifiersOfJson? (v : Json) : Option Modifiers := do
  let [isVirtual, isAbstract, isStatic, isConstructor, isPublic] ← v.members? modifierNames | none
  let flag := Json.optional false Json.bool?
  some {
    isVirtual := ← flag isVirtual
    isAbstract := ← flag isAbstract
    isStatic := ← flag isStatic
    isConstructor := ← flag isConstructor
    isPublic := ← flag isPublic }

/-- A method is written as an object only, since its modifiers stand among its other members. -/
def ofJson? (v : Json) : Option MethodRecord := do
  let [key, declaringType, name, parameters, returnType] ← v.members? fieldNames | none
  guard (keepsRest v)
  some {
    key := ← Json.optional none (Json.nullable Json.text?) key
    declaringType := ← Json.required Json.text? declaringType
    name := ← Json.required Json.text? name
    parameters := ← Json.optional [] (Json.list? Parameter.ofJson?) parameters
    returnType := ← Json.optional none (Json.nullable Json.text?) returnType
    modifiers := ← modifiersOfJson? v }

def toJson (m : MethodRecord) : Json :=
  .ofMembers [
    ("key", .ofText? m.key),
    ("declaring_type", .ofText m.declaringType),
    ("name", .ofText m.name),
    ("parameters", .array (m.parameters.map Parameter.toJson)),
    ("return_type", .ofText? m.returnType),
    ("is_virtual", .bool m.modifiers.isVirtual),
    ("is_abstract", .bool m.modifiers.isAbstract),
    ("is_static", .bool m.modifiers.isStatic),
    ("is_constructor", .bool m.modifiers.isConstructor),
    ("is_public", .bool m.modifiers.isPublic)]

end MethodRecord

namespace TypeRecord

def fieldNames : List String := ["full_name", "namespace", "enclosing", "is_interface", "is_public"]

def ofJson? (v : Json) : Option TypeRecord := do
  let [fullName, ns, enclosing, isInterface, isPublic] ← v.fields? fieldNames | none
  some {
    fullName := ← Json.required Json.text? fullName
    «namespace» := ← Json.optional none (Json.nullable Json.text?) ns
    enclosing := ← Json.optional none (Json.nullable Json.text?) enclosing
    isInterface := ← Json.optional false Json.bool? isInterface
    isPublic := ← Json.optional false Json.bool? isPublic }

def toJson (t : TypeRecord) : Json :=
  .ofMembers [
    ("full_name", .ofText t.fullName),
    ("namespace", .ofText? t.namespace),
    ("enclosing", .ofText? t.enclosing),
    ("is_interface", .bool t.isInterface),
    ("is_public", .bool t.isPublic)]

end TypeRecord

namespace FactDocument

def fieldNames : List String :=
  ["methods", "types", "direct_calls", "virtual_calls", "overrides",
    "static_constructor_dependencies", "field_access_dependencies", "type_dependencies",
    "entry_methods", "unanalyzed_methods", "resolved_reflection_calls"]

def ofJson? (v : Json) : Option FactDocument := do
  let [methods, types, directCalls, virtualCalls, overrides, staticConstructors, fieldAccesses,
    typeDependencies, entryMethods, unanalyzedMethods, resolvedCalls] ← v.fields? fieldNames | none
  let tuples := Json.optional [] (Json.list? Json.pair?)
  some {
    methods := ← Json.optional [] (Json.list? MethodRecord.ofJson?) methods
    types := ← Json.optional [] (Json.list? TypeRecord.ofJson?) types
    directCalls := ← tuples directCalls
    virtualCalls := ← tuples virtualCalls
    overrides := ← tuples overrides
    staticConstructorDependencies := ← tuples staticConstructors
    fieldAccessDependencies := ← tuples fieldAccesses
    typeDependencies := ← tuples typeDependencies
    entryMethods := ← Json.optional none (Json.nullable (Json.list? Json.text?)) entryMethods
    unanalyzedMethods := ← Json.optional [] (Json.list? Json.text?) unanalyzedMethods
    resolvedReflectionCalls := ← tuples resolvedCalls }

/-- Reads a document from its text. -/
def read (s : String) : Option FactDocument :=
  (Json.read s).bind ofJson?

/-! ## Writing -/

/-- A list of tuples as arrays of two texts. -/
def tuplesToJson (tuples : List Tuple) : Json :=
  .array (tuples.map fun (a, b) => .ofTexts [a, b])

def toJson (d : FactDocument) : Json :=
  .ofMembers [
    ("methods", .array (d.methods.map MethodRecord.toJson)),
    ("types", .array (d.types.map TypeRecord.toJson)),
    ("direct_calls", tuplesToJson d.directCalls),
    ("virtual_calls", tuplesToJson d.virtualCalls),
    ("overrides", tuplesToJson d.overrides),
    ("static_constructor_dependencies", tuplesToJson d.staticConstructorDependencies),
    ("field_access_dependencies", tuplesToJson d.fieldAccessDependencies),
    ("type_dependencies", tuplesToJson d.typeDependencies),
    ("entry_methods", (d.entryMethods.map Json.ofTexts).getD .null),
    ("unanalyzed_methods", .ofTexts d.unanalyzedMethods),
    ("resolved_reflection_calls", tuplesToJson d.resolvedReflectionCalls)]

/-- Writes a document without blanks. -/
def write (d : FactDocument) : String :=
  d.toJson.compactText

end FactDocument

end CallAudit

import CallAudit.Json.Value

/-!
# Records in JSON

A record is written as an object, whose order does not matter, or as an array of its fields in
declared order, from which fields at the end may be missing.
-/

namespace CallAudit.Json

/-- The one member of this name, if there is one; a second one is a fault. -/
def member? (name : String) (members : List (Spelt × Json)) : Option (Option Json) :=
  match members.filter (·.1 == some name) with
  | [] => some none
  | [(_, value)] => some (some value)
  | _ => none

/-- The values of the named members of an object. Members of other names are passed over, but their
names must be spelt in full. -/
def members? (names : List String) : Json → Option (List (Option Json))
  | object members =>
      if members.all (·.1.isSome) then names.mapM (member? · members) else none
  | _ => none

/-- The values of the fields of a record in either form. -/
def fields? (names : List String) : Json → Option (List (Option Json))
  | array items =>
      if items.length ≤ names.length then
        some (items.map some ++ List.replicate (names.length - items.length) none)
      else none
  | value => members? names value

/-- A field that must be there. -/
def required (read : Json → Option α) (field : Option Json) : Option α :=
  field.bind read

/-- A field with a default. -/
def optional (default : α) (read : Json → Option α) : Option Json → Option α
  | some value => read value
  | none => some default

/-- A value that may be `null`. -/
def nullable (read : Json → Option α) : Json → Option (Option α)
  | null => some none
  | value => (read value).map some

/-- An array whose items can all be read. -/
def list? (read : Json → Option α) (value : Json) : Option (List α) :=
  value.items?.bind (·.mapM read)

/-- An array of exactly two texts. -/
def pair? : Json → Option (String × String)
  | array [a, b] => do some (← a.text?, ← b.text?)
  | _ => none

end CallAudit.Json

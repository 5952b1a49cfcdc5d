/-!
# TOML values
-/

namespace CallAudit

/-- A TOML value. Of numbers with a fraction, dates and times it only matters that they are neither
texts, integers nor truth values. -/
inductive Toml where
  | text (value : String)
  | integer (value : Int)
  | bool (value : Bool)
  | float
  | moment
  | array (items : List Toml)
  | table (entries : List (String × Toml))
deriving Repr, Inhabited, BEq

namespace Toml

def text? : Toml → Option String
  | text value => some value
  | _ => none

def bool? : Toml → Option Bool
  | bool value => some value
  | _ => none

def nat? : Toml → Option Nat
  | integer value => value.toNat?
  | _ => none

def list? (read : Toml → Option α) : Toml → Option (List α)
  | array items => items.mapM read
  | _ => none

/-! ## Records -/

/-- The values of the fields of a record, and whether it is written as an array. As a table, a record
that is `closed` has no other keys. As an array, it lists its fields in declared order; what follows
them is not looked at. -/
def fields? (names : List String) (closed : Bool) : Toml → Option (Bool × List (Option Toml))
  | table entries =>
      if closed && !entries.all (fun (key, _) => names.contains key) then none
      else some (false, names.map fun name => entries.lookup name)
  | array items =>
      let given := (items.take names.length).map some
      some (true, given ++ List.replicate (names.length - given.length) none)
  | _ => none

/-- A field that must be there. -/
def required (read : Toml → Option α) (field : Option Toml) : Option α :=
  field.bind read

/-- A field with a default. -/
def optional (default : α) (read : Toml → Option α) : Option Toml → Option α
  | some value => read value
  | none => some default

/-- A field that a table may leave out and an array may not. -/
def omissible (inArray : Bool) (read : Toml → Option α) : Option Toml → Option (Option α)
  | some value => (read value).map some
  | none => if inArray then none else some none

/-- A choice among names: the name alone, or as the only key of a table with nothing under it. -/
def choice? (ofName? : String → Option α) : Toml → Option α
  | text name => ofName? name
  | table [(name, table [])] => ofName? name
  | table [(name, array [])] => ofName? name
  | _ => none

end Toml

end CallAudit

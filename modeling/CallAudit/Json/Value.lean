/-!
# JSON values

A JSON document as a tree. Members keep their order and may repeat, since the grammar lets them.
-/

namespace CallAudit

/-- The text that a string literal spells, or `none` when its escapes leave half of a surrogate
pair, so that no text is spelt. -/
abbrev Spelt := Option String

/-- A JSON value. A number is kept as it is written. -/
inductive Json where
  | null
  | bool (value : Bool)
  | number (written : String)
  | text (value : Spelt)
  | array (items : List Json)
  | object (members : List (Spelt × Json))
deriving Repr, Inhabited, BEq

namespace Json

/-- A string value. -/
def ofText (s : String) : Json := text (some s)

/-- A string value, or `null`. -/
def ofText? : Option String → Json
  | some s => ofText s
  | none => null

/-- A number value. -/
def ofNat (n : Nat) : Json := number (toString n)

/-- An array of string values. -/
def ofTexts (lines : List String) : Json := array (lines.map ofText)

/-- An object without half-spelt member names. -/
def ofMembers (members : List (String × Json)) : Json :=
  object (members.map fun (name, value) => (some name, value))

def text? : Json → Option String
  | text value => value
  | _ => none

def bool? : Json → Option Bool
  | bool value => some value
  | _ => none

def items? : Json → Option (List Json)
  | array items => some items
  | _ => none

/-! ## How deep a value nests -/

mutual

/-- How many arrays and objects stand around the innermost value. -/
def depth : Json → Nat
  | array items => depthOfItems items + 1
  | object members => depthOfMembers members + 1
  | _ => 0

def depthOfItems : List Json → Nat
  | [] => 0
  | v :: vs => max v.depth (depthOfItems vs)

def depthOfMembers : List (Spelt × Json) → Nat
  | [] => 0
  | (_, v) :: ms => max v.depth (depthOfMembers ms)

end

end Json

end CallAudit

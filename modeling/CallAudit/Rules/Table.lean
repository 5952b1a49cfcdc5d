import CallAudit.Toml.Reader

/-!
# Rule tables

A rule says which methods it is about and what follows for them. A table of rules is written in
TOML. Whether its rules make sense is not asked here: `CallAudit.Rules.Rule` does that.
-/

namespace CallAudit

/-- How specific a rule is. -/
inductive RuleFamily where
  /-- A reason given by hand, or the word that a method is safe. -/
  | annotated
  /-- An API known for what it does. -/
  | detectedApi
  /-- A broad bucket, for methods about which nothing more specific is known. -/
  | catchAll
deriving DecidableEq, Repr, Inhabited

namespace RuleFamily

def name : RuleFamily → String
  | annotated => "annotation"
  | detectedApi => "detected-api"
  | catchAll => "catch-all"

def ofName? : String → Option RuleFamily
  | "annotation" => some annotated
  | "detected-api" => some detectedApi
  | "catch-all" => some catchAll
  | _ => none

@[simp] theorem ofName?_name (f : RuleFamily) : ofName? f.name = some f := by
  cases f <;> rfl

end RuleFamily

/-- A rule as it is written. -/
structure RuleSpec where
  declaringType : Option String := none
  declaringTypePattern : Option String := none
  member : Option String := none
  memberPattern : Option String := none
  /-- The numbers of parameters a method may have. -/
  parameters : Option (List Nat) := none
  /-- The types of the first parameters, in order; a star stands for any type. -/
  parameterTypes : Option (List String) := none
  /-- The type of some parameter, wherever it stands. -/
  anyParameterType : Option String := none
  family : RuleFamily
  reason : Option String := none
  safe : Bool := false
  /-- Keeps methods out of every broad bucket. -/
  exempt : Bool := false
deriving DecidableEq, Repr, Inhabited

/-- A table of rules as it is written. -/
structure RuleTable where
  /-- Why a method is interesting that could not be analyzed. -/
  unanalyzedReason : String := "unanalyzed"
  rules : List RuleSpec := []
deriving DecidableEq, Repr, Inhabited

namespace RuleSpec

def fieldNames : List String :=
  ["declaring_type", "declaring_type_pattern", "member", "member_pattern", "parameters",
    "parameter_types", "any_parameter_type", "family", "reason", "safe", "exempt"]

def ofToml? (v : Toml) : Option RuleSpec := do
  let (inArray, [declaringType, declaringTypePattern, member, memberPattern, parameters,
    parameterTypes, anyParameterType, family, reason, safe, exempt]) ← v.fields? fieldNames true
    | none
  let textOf := Toml.omissible inArray Toml.text?
  some {
    declaringType := ← textOf declaringType
    declaringTypePattern := ← textOf declaringTypePattern
    member := ← textOf member
    memberPattern := ← textOf memberPattern
    parameters := ← Toml.omissible inArray (Toml.list? Toml.nat?) parameters
    parameterTypes := ← Toml.omissible inArray (Toml.list? Toml.text?) parameterTypes
    anyParameterType := ← textOf anyParameterType
    family := ← Toml.required (Toml.choice? RuleFamily.ofName?) family
    reason := ← textOf reason
    safe := ← Toml.optional false Toml.bool? safe
    exempt := ← Toml.optional false Toml.bool? exempt }

end RuleSpec

namespace RuleTable

def fieldNames : List String := ["unanalyzed_reason", "rule"]

def ofToml? (v : Toml) : Option RuleTable := do
  let (_, [unanalyzedReason, rules]) ← v.fields? fieldNames true | none
  some {
    unanalyzedReason := ← Toml.optional "unanalyzed" Toml.text? unanalyzedReason
    rules := ← Toml.optional [] (Toml.list? RuleSpec.ofToml?) rules }

/-- Reads a table from its text. -/
def read (s : String) : Option RuleTable :=
  (Toml.read s).bind ofToml?

end RuleTable

end CallAudit

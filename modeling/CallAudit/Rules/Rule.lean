import CallAudit.Rules.Table
import CallAudit.Error
import CallAudit.Pattern.Reader
import CallAudit.Pattern.Search
import CallAudit.Program.Basic

/-!
# Rules that make sense

A rule makes sense if it names a type or a member, says each of the two in one way only, and has one
outcome that its family may have. `Rule.ofSpec` tells what is wrong with one that does not.
-/

namespace CallAudit

/-- What a rule asks of a name. -/
inductive NameTest where
  | any
  | exactly (name : String)
  | matching (pattern : Pattern)
deriving DecidableEq, Repr, Inhabited

namespace NameTest

def accepts : NameTest → String → Bool
  | any, _ => true
  | exactly wanted, name => wanted == name
  | matching pattern, name => pattern.occursIn name

/-- The test that a rule writes as an exact name or as a pattern for it. -/
def ofSpec (what : String) : (exact pattern : Option String) → Except RuleFault NameTest
  | some _, some _ => .error (.exactAndPattern what)
  | some name, none => .ok (exactly name)
  | none, some written =>
      match Pattern.read written with
      | some pattern => .ok (matching pattern)
      | none => .error (.invalidPattern what written)
  | none, none => .ok any

end NameTest

/-- What follows for the methods a rule is about. -/
inductive Outcome where
  | interesting (reason : String)
  /-- Never interesting, and no chain leads through them. -/
  | safe
  /-- In no broad bucket. -/
  | exempt
deriving DecidableEq, Repr, Inhabited

namespace Outcome

def reason? : Outcome → Option String
  | interesting reason => some reason
  | _ => none

/-- The outcome of a rule, which has exactly one. -/
def ofSpec (index : Nat) (spec : RuleSpec) : Except RuleFault Outcome :=
  match spec.reason, spec.safe, spec.exempt with
  | some reason, false, false => .ok (interesting reason)
  | none, true, false =>
      if spec.family = .annotated then .ok safe else .error (.safeNotAnnotated index)
  | none, false, true =>
      if spec.family = .catchAll then .ok exempt else .error (.exemptNotCatchAll index)
  | none, false, false => .error (.noOutcome index)
  | _, _, _ => .error (.severalOutcomes index)

end Outcome

/-- A rule that makes sense. -/
structure Rule where
  declaringType : NameTest
  member : NameTest
  parameters : Option (List Nat) := none
  parameterTypes : Option (List String) := none
  anyParameterType : Option String := none
  family : RuleFamily
  outcome : Outcome
deriving DecidableEq, Repr, Inhabited

namespace Rule

/-- Makes sense of a rule, given its place in the table counted from one. -/
def ofSpec (index : Nat) (spec : RuleSpec) : Except RuleFault Rule := do
  let declaringType ←
    NameTest.ofSpec "declaring_type" spec.declaringType spec.declaringTypePattern
  let member ← NameTest.ofSpec "member" spec.member spec.memberPattern
  if declaringType = .any ∧ member = .any then throw (.matchesEveryMethod index)
  let outcome ← Outcome.ofSpec index spec
  return {
    declaringType, member, outcome
    parameters := spec.parameters
    parameterTypes := spec.parameterTypes
    anyParameterType := spec.anyParameterType
    family := spec.family }

/-- Whether the types of the first parameters are the wanted ones. There must be as many. -/
def leadingTypesMatch : (wanted given : List String) → Bool
  | [], _ => true
  | _ :: _, [] => false
  | want :: wanted, type :: given => (want == "*" || want == type) && leadingTypesMatch wanted given

/-- Whether a rule is about a method. -/
def accepts (r : Rule) (m : Method) : Bool :=
  let types := m.parameters.map (·.typeName)
  r.declaringType.accepts m.declaringType && r.member.accepts m.name &&
    r.parameters.all (·.contains types.length) &&
    r.parameterTypes.all (leadingTypesMatch · types) &&
    r.anyParameterType.all types.contains

end Rule

end CallAudit

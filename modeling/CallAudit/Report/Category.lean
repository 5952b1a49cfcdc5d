import CallAudit.Report.Chain

/-!
# Categories of chains

A chain is in the category of the first rule that accepts it. If none does, its category is the
namespace it ends in, or failing that the type.
-/

namespace CallAudit

/-- A category for chains in whose lines certain texts occur. -/
structure CategoryRule where
  name : String
  framesContaining : List String := []
deriving DecidableEq, Repr, Inhabited

/-- Whether every one of the texts occurs in some line. A rule without texts accepts nothing. -/
def CategoryRule.accepts (r : CategoryRule) (c : Chain) : Bool :=
  !r.framesContaining.isEmpty &&
    r.framesContaining.all fun needle => c.lines.any (Text.occursIn needle)

namespace Category

/-- The category of a chain about whose end nothing is known. -/
def resolutionFailure : String := "resolution failure"

/-- The category of what a type declares: its own namespace, or that of the outermost type around it,
or its name. -/
def ofType (program : Program) (declaringType : String) : String :=
  match program.typeNamed? declaringType with
  | some row =>
      if row.namespace.isEmpty then
        (program.outermostNamespace? declaringType).getD declaringType
      else row.namespace
  | none => (program.outermostNamespace? declaringType).getD declaringType

/-- The category of a chain that ends at this node. -/
def ofDestination (program : Program) : Option Node → String
  | some (.method m) =>
      match program.method? m with
      | some row =>
          if row.described && !row.declaringType.isEmpty then ofType program row.declaringType
          else resolutionFailure
      | none => resolutionFailure
  | _ => resolutionFailure

/-- The category of a chain. -/
def ofChain (program : Program) (rules : List CategoryRule) (c : Chain) : String :=
  match rules.find? (·.accepts c) with
  | some rule => rule.name
  | none => ofDestination program c.destination?

end Category

end CallAudit

import CallAudit.Report.Category

/-!
# Options of an analysis
-/

namespace CallAudit

/-- A call that no chain may cross, by the keys of its methods. -/
structure SuppressedCall where
  caller : String
  callee : String
deriving DecidableEq, Repr, Inhabited

/-- What can be chosen about an analysis. -/
structure AnalysisOptions where
  grouping : Grouping := .none
  /-- Whether chains are written in JSON. -/
  json : Bool := false
  /-- Whether results may arrive in any order. -/
  parallel : Bool := false
  /-- Whether chains do not go on to callers of virtual methods. -/
  ignoreVirtualCallers : Bool := false
  /-- Whether chains also end at static constructors that no field access explains. -/
  stopAtUntrackedStaticConstructors : Bool := false
  categoryRules : List CategoryRule := []
  suppressedCalls : List SuppressedCall := []
deriving DecidableEq, Repr, Inhabited

end CallAudit

import CallAudit.Json.Writer

/-!
# Summaries

The numbers at the end of a run, and their two written forms.
-/

namespace CallAudit

/-- How often something was counted. -/
structure Count where
  name : String
  count : Nat
deriving DecidableEq, Repr, Inhabited

/-- How many types of a namespace chains end in, and how many there are. -/
structure NamespaceHits where
  «namespace» : String
  hitTypes : Nat
  totalTypes : Nat
deriving DecidableEq, Repr, Inhabited

/-- What a run comes to. -/
structure Summary where
  methods : Nat
  entryMethods : Nat
  interestingMethods : Nat
  chains : Nat
  chainsPerCategory : List Count
  chainsPerReason : List Count
  methodsPerReason : List Count
  namespaces : List NamespaceHits
  /-- The interesting methods that no chain starts from or ends at. -/
  unreported : List String
deriving DecidableEq, Repr, Inhabited

namespace Summary

/-! ## In words -/

/-- One line for each count of chains or methods. -/
def countLines (what : String) (counts : List Count) : List String :=
  counts.map fun c => s!"{c.count} {what} are {c.name}"

def rule : String := "----------"

def lines (s : Summary) : List String :=
  [s!"found {s.methods} methods",
    s!"found {s.entryMethods} entry methods",
    s!"found {s.interestingMethods} \"interesting\" methods",
    "-------------",
    s!"found {s.chains} chains"] ++
  countLines "chains" s.chainsPerCategory ++
  [rule, s!"summary: found {s.chains} chains"] ++
  countLines "chains" s.chainsPerReason ++
  [rule] ++
  s.namespaces.map (fun n => s!"{n.namespace}: {n.hitTypes} / {n.totalTypes}") ++
  [rule, s!"summary: found {s.interestingMethods} interesting methods"] ++
  countLines "methods" s.methodsPerReason ++
  (if s.unreported.isEmpty then []
  else [s!"{s.unreported.length} interesting methods were never reported"])

/-- The summary in words, a line for each number. -/
def text (s : Summary) : String :=
  "\n".intercalate s.lines ++ "\n"

/-! ## In JSON -/

def countsToJson (counts : List Count) : Json :=
  .array (counts.map fun c => .ofMembers [("name", .ofText c.name), ("count", .ofNat c.count)])

def namespacesToJson (hits : List NamespaceHits) : Json :=
  .array (hits.map fun n => .ofMembers [
    ("namespace", .ofText n.namespace),
    ("hit_types", .ofNat n.hitTypes),
    ("total_types", .ofNat n.totalTypes)])

def toJson (s : Summary) : Json :=
  .ofMembers [
    ("methods", .ofNat s.methods),
    ("entry_methods", .ofNat s.entryMethods),
    ("interesting_methods", .ofNat s.interestingMethods),
    ("chains", .ofNat s.chains),
    ("chains_per_category", countsToJson s.chainsPerCategory),
    ("chains_per_reason", countsToJson s.chainsPerReason),
    ("methods_per_reason", countsToJson s.methodsPerReason),
    ("namespaces", namespacesToJson s.namespaces),
    ("unreported_interesting", .ofTexts s.unreported)]

/-- The summary as JSON, with a line break at the end. -/
def jsonText (s : Summary) : String :=
  s.toJson.prettyText ++ "\n"

end Summary

end CallAudit

import CallAudit.Keyed
import CallAudit.Report.Chain
import CallAudit.Report.Summary

/-!
# The ledger of a report

Every chain that is reported is entered in a ledger, which keeps tallies of them and, where chains are
grouped, the chains. The summary of a run is drawn up from the ledger.
-/

namespace CallAudit

/-- What has been reported so far. -/
structure Ledger where
  grouping : Grouping := .none
  chainCount : Nat := 0
  perCategory : List (String × Nat) := []
  perReason : List (Reason × Nat) := []
  /-- By outermost namespace, the declaring types that chains end in. -/
  hitTypes : List (String × List String) := []
  groups : List (Node × List Chain) := []
  /-- By number, whether a chain starts or ends there. -/
  reported : Array Bool := #[]
deriving DecidableEq, Repr, Inhabited

namespace Ledger

/-- An empty ledger for so many numbered nodes. -/
def empty (size : Nat) (grouping : Grouping) : Ledger where
  grouping := grouping
  reported := Array.replicate size false

/-! ## Recording -/

/-- Notes the type in which a chain ends, under its outermost namespace. -/
def hit (program : Program) (hitTypes : List (String × List String)) :
    Option Node → List (String × List String)
  | some (.method m) =>
      match program.method? m with
      | some row =>
          match program.outermostNamespace? row.declaringType with
          | some ns => Keyed.change ns [] (Distinct.insert · row.declaringType) hitTypes
          | none => hitTypes
      | none => hitTypes
  | _ => hitTypes

/-- Adds a chain to the group it belongs to, if it belongs to one. -/
def gather (groups : List (Node × List Chain)) (c : Chain) :
    Option Node → List (Node × List Chain)
  | some key => Keyed.change key [] (· ++ [c]) groups
  | none => groups

/-- Enters a chain between two numbers. -/
def record (l : Ledger) (program : Program) (c : Chain) (category : String)
    (source destination : Nat) : Ledger :=
  { l with
    chainCount := l.chainCount + 1
    perCategory := Keyed.tally category l.perCategory
    perReason := match c.reason with
      | some reason => Keyed.tally reason l.perReason
      | none => l.perReason
    hitTypes := hit program l.hitTypes c.destination?
    groups := gather l.groups c (c.groupKey? l.grouping)
    reported := (l.reported.setIfInBounds source true).setIfInBounds destination true }

def isReported (l : Ledger) (i : Nat) : Bool :=
  l.reported[i]?.getD false

/-- Takes the groups out of the ledger, the largest first; among groups of one size the one that was
started first comes first. -/
def takeGroups (l : Ledger) : List (Node × List Chain) × Ledger :=
  (l.groups.mergeSort fun a b => b.2.length ≤ a.2.length, { l with groups := [] })

/-! ## Drawing up the summary -/

/-- Counts in descending order, ties in order of first occurrence, and after them a zero for every
known name that was not counted. -/
def sortedCounts (counts : List (String × Nat)) (known : List String) : List Count :=
  let sorted := counts.mergeSort fun a b => b.2 ≤ a.2
  let missing := known.filter fun name => !(Keyed.keys counts).contains name
  sorted.map (fun (name, count) => ⟨name, count⟩) ++ missing.map fun name => ⟨name, 0⟩

/-- The methods among the nodes of a snapshot. -/
def methodsOf (program : Program) (s : Snapshot) : List Method :=
  (s.nodes.toList.filterMap Node.method?).filterMap program.method?

/-- By outermost namespace, how many declaring types the methods of a snapshot have. -/
def totalTypes (program : Program) (s : Snapshot) : List (String × Nat) :=
  let types := Distinct.ofList ((methodsOf program s).map (·.declaringType))
  (types.filter (!·.isEmpty)).foldl
    (fun counts type =>
      match program.outermostNamespace? type with
      | some ns => Keyed.tally ns counts
      | none => counts)
    []

/-- The namespaces that were hit, in descending order of hits, and after them the others by name. -/
def namespaceHits (hitTypes : List (String × List String)) (totals : List (String × Nat)) :
    List NamespaceHits :=
  let hits := hitTypes.map fun (ns, types) =>
    NamespaceHits.mk ns types.length ((totals.lookup ns).getD 0)
  let others := totals.filter fun (ns, _) => !(Keyed.keys hitTypes).contains ns
  (hits.mergeSort fun a b => b.hitTypes ≤ a.hitTypes) ++
    (others.mergeSort fun a b => a.1 ≤ b.1).map fun (ns, total) => ⟨ns, 0, total⟩

/-- How many interesting methods there are for each reason. -/
def methodsPerReason (s : Snapshot) : List (Reason × Nat) :=
  (s.interesting.filterMap fun i => (s.verdict i).reason).foldl
    (fun counts reason => Keyed.tally reason counts) []

/-- What a run comes to. -/
def summarize (l : Ledger) (program : Program) (s : Snapshot) (known : List Reason) : Summary where
  methods := (methodsOf program s).length
  entryMethods := s.entries.length
  interestingMethods := s.interesting.length
  chains := l.chainCount
  chainsPerCategory := sortedCounts l.perCategory []
  chainsPerReason := sortedCounts l.perReason known
  methodsPerReason := sortedCounts (methodsPerReason s) known
  namespaces := namespaceHits l.hitTypes (totalTypes program s)
  unreported := (s.interesting.filter fun i => !l.isReported i).filterMap fun i =>
    (s.node? i).map program.display

end Ledger

end CallAudit

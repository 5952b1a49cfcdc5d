import CallAudit.Report.Category
import CallAudit.Report.Ledger
import CallAudit.Report.Writer

/-!
# Reporting results

Results of searches are reported in the order in which they arrive: every chain is put into words,
given a category, written and entered in the ledger. Grouped chains are written after the last result.
The first failure ends the report.
-/

namespace CallAudit

/-- What the search tells the report. -/
inductive Message where
  | result (r : SearchResult)
  /-- There are no more results. -/
  | done
deriving DecidableEq, Repr, Inhabited

/-- The results before the word that there are no more. -/
def Message.results : List Message → List SearchResult
  | [] => []
  | .done :: _ => []
  | .result r :: messages => r :: results messages

namespace Report

variable (b : Basis) (rules : List CategoryRule)

/-- Writes a chain, unless chains wait for their groups to be complete. -/
def writeNow (w : Writer) (c : Chain) : Except AuditError Unit × Writer :=
  if w.grouping == .none then w.writeChain c else (.ok (), w)

/-- Reports the chains of a result to some of its destinations. -/
def chains (result : SearchResult) :
    List Nat → Ledger → Writer → Except AuditError Ledger × Writer
  | [], ledger, w => (.ok ledger, w)
  | destination :: rest, ledger, w =>
      match b.chain result destination with
      | .error e => (.error e, w)
      | .ok c =>
          let category := Category.ofChain b.program rules c
          match writeNow w c with
          | (.error e, w) => (.error e, w)
          | (.ok (), w) =>
              chains result rest (ledger.record b.program c category result.source destination) w

/-- Reports every chain of every result. -/
def results : List SearchResult → Ledger → Writer → Except AuditError Ledger × Writer
  | [], ledger, w => (.ok ledger, w)
  | result :: rest, ledger, w =>
      match chains b rules result result.destinations ledger w with
      | (.error e, w) => (.error e, w)
      | (.ok ledger, w) => results rest ledger w

/-- Takes the groups out of the ledger and writes them, if chains are grouped. -/
def writeGathered (ledger : Ledger) (w : Writer) : Except AuditError Ledger × Writer :=
  if w.grouping == .none then (.ok ledger, w)
  else
    let (gathered, ledger) := ledger.takeGroups
    match w.writeGroups b.program.display gathered with
    | (.error e, w) => (.error e, w)
    | (.ok (), w) => (.ok ledger, w)

/-- Writes what waits for the end of the report. -/
def finish (ledger : Ledger) (w : Writer) : Except AuditError Ledger × Writer :=
  match writeGathered b ledger w with
  | (.error e, w) => (.error e, w)
  | (.ok ledger, w) =>
      match w.finish with
      | (.error e, w) => (.error e, w)
      | (.ok (), w) => (.ok ledger, w)

/-- Reports what the messages tell. -/
def consume (messages : List Message) (ledger : Ledger) (w : Writer) :
    Except AuditError Ledger × Writer :=
  match results b rules (Message.results messages) ledger w with
  | (.error e, w) => (.error e, w)
  | (.ok ledger, w) => finish b ledger w

/-- The outcome of a report whose search may have failed. The failure of the search comes first,
unless the report itself was lost. -/
def run (messages : List Message) (failure : Option AuditError) (ledger : Ledger) (w : Writer) :
    Except AuditError Ledger × Writer :=
  match consume b rules messages ledger w, failure with
  | (.error (.report text), w), _ => (.error (.report text), w)
  | (_, w), some e => (.error e, w)
  | (outcome, w), none => (outcome, w)

end Report

end CallAudit

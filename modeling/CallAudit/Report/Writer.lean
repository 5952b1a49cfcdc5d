import CallAudit.Report.Chain
import CallAudit.Report.Sink

/-!
# Writing chains

Ungrouped chains are written as they come, in JSON as the items of one array. Grouped chains are
written at once, in JSON as the members of one object. What there is to write is a list of strokes,
which does not depend on the sink; writing performs the strokes one by one until the sink rejects a
piece.
-/

namespace CallAudit

/-- A step of writing. -/
inductive Stroke where
  | piece (text : String)
  /-- From here on the output counts as begun. -/
  | begun
  /-- Whether the next item is the first of its array. -/
  | nextIsFirst (value : Bool)
deriving DecidableEq, Repr, Inhabited

/-- A sink with the form of what is written to it, and how far writing has come. -/
structure Writer where
  sink : Sink := {}
  json : Bool := false
  grouping : Grouping := .none
  hasBegun : Bool := false
  isFirst : Bool := true
deriving DecidableEq, Repr, Inhabited

namespace Writer

/-- Performs strokes until the sink rejects a piece. -/
def perform : List Stroke → Writer → Except AuditError Unit × Writer
  | [], w => (.ok (), w)
  | .piece text :: strokes, w =>
      match w.sink.write text with
      | some sink => perform strokes { w with sink }
      | none => (.error Sink.full, w)
  | .begun :: strokes, w => perform strokes { w with hasBegun := true }
  | .nextIsFirst value :: strokes, w => perform strokes { w with isFirst := value }

/-! ## What there is to write -/

/-- Whether chains are the items of one array. -/
def isStream (w : Writer) : Bool :=
  w.json && w.grouping == .none

/-- The strokes before everything else. -/
def opening (w : Writer) : List Stroke :=
  if w.hasBegun then [] else .begun :: if w.isStream then [.piece "[\n"] else []

/-- The strokes of one chain. A text has an empty line after it, an item of an array a comma before it
unless it is the first. -/
def item (json isFirst : Bool) (c : Chain) : List Stroke :=
  if json then
    (if isFirst then [] else [.piece ",\n"]) ++ [.nextIsFirst false, .piece c.json.prettyText]
  else [.piece c.text, .piece "\n"]

/-- The strokes of the chains of a group. -/
def items (json : Bool) : List Chain → List Stroke
  | [] => []
  | c :: cs => item json true c ++ cs.flatMap (item json false)

/-- The strokes that come before the chains of a group. -/
def groupHead (json isFirst : Bool) (name : String) : List Stroke :=
  if json then
    (if isFirst then [] else [.piece ",\n"]) ++
      [.piece (String.ofList (Json.quote name)), .piece ": [\n"]
  else
    [.piece "---\n", .piece "--- chains for group: ", .piece name, .piece "\n", .piece "---\n"]

/-- The strokes of one group. -/
def group (json isFirst : Bool) (name : String) (chains : List Chain) : List Stroke :=
  groupHead json isFirst name ++ .nextIsFirst true :: items json chains ++
    if json then [.piece "\n]"] else []

/-- The strokes of all groups, under the texts for their nodes. -/
def groups (json : Bool) (display : Node → String) : List (Node × List Chain) → List Stroke
  | [] => []
  | (key, chains) :: rest =>
      group json true (display key) chains ++
        rest.flatMap fun (key, chains) => group json false (display key) chains

/-- The strokes after everything else. -/
def closing (w : Writer) : List Stroke :=
  if w.isStream then w.opening ++ (if w.isFirst then [] else [.piece "\n"]) ++ [.piece "]\n"]
  else []

/-! ## Writing it -/

/-- Writes a chain. -/
def writeChain (w : Writer) (c : Chain) : Except AuditError Unit × Writer :=
  w.perform (w.opening ++ item w.json w.isFirst c)

/-- Writes all groups. -/
def writeGroups (w : Writer) (display : Node → String) (gathered : List (Node × List Chain)) :
    Except AuditError Unit × Writer :=
  let body := groups w.json display gathered
  w.perform (w.opening ++
    if w.json then .piece "\x7b\n" :: body ++ [.piece "\n", .piece "\x7d\n"] else body)

/-- Writes what is left to write. -/
def finish (w : Writer) : Except AuditError Unit × Writer :=
  w.perform w.closing

end Writer

end CallAudit

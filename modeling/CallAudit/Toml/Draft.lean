import CallAudit.Toml.Value

/-!
# Tables under construction

A TOML document adds to its tables line by line, and which additions are allowed depends on how a
table came about. A table may be opened by a header once, may be extended by dotted keys only if
dotted keys made it, and no key may be given twice.
-/

namespace CallAudit.Toml

/-- How a table came about. -/
inductive TableOrigin where
  /-- Only as part of the way to another table. -/
  | passedThrough
  /-- By a dotted key. -/
  | dotted
  /-- By a header, or as the table everything stands in. -/
  | opened
deriving DecidableEq, Repr, Inhabited

/-- Part of a document under construction. -/
inductive Draft where
  | value (v : Toml)
  | table (origin : TableOrigin) (entries : List (String × Draft))
  /-- Tables opened by headers in double brackets. -/
  | tables (all : List (List (String × Draft)))
deriving Repr, Inhabited

/-- The entries of a table under construction. -/
abbrev Entries := List (String × Draft)

namespace Draft

mutual

/-- The value that a draft amounts to. -/
def finished : Draft → Toml
  | value v => v
  | table _ entries => .table (finishedEntries entries)
  | tables all => .array (finishedTables all)

def finishedEntries : Entries → List (String × Toml)
  | [] => []
  | (key, d) :: entries => (key, d.finished) :: finishedEntries entries

def finishedTables : List Entries → List Toml
  | [] => []
  | entries :: all => .table (finishedEntries entries) :: finishedTables all

end

end Draft

namespace Entries

/-- Puts a draft in the place of the one under a key, or at the end. -/
def put (entries : Entries) (key : String) (d : Draft) : Entries :=
  if (entries.lookup key).isSome then
    entries.map fun (k, old) => if k == key then (k, d) else (k, old)
  else entries ++ [(key, d)]

/-- Changes the table at the end of a path, given how it came about. What is missing on the way is
made. The way leads through the last of several tables, and never through a value; the way of a
dotted key does not lead through a table that a header opened. -/
def within (byDots : Bool) (change : TableOrigin → Entries → Option Entries) :
    (path : List String) → TableOrigin → Entries → Option Entries
  | [], origin, entries => change origin entries
  | key :: path, _, entries =>
      match entries.lookup key with
      | none =>
          let origin := if byDots then TableOrigin.dotted else .passedThrough
          (within byDots change path origin []).map fun inner =>
            entries.put key (.table origin inner)
      | some (.table origin inner) =>
          if byDots && origin == .opened then none
          else
            (within byDots change path origin inner).map fun inner =>
              entries.put key (.table origin inner)
      | some (.tables all) =>
          match all.getLast? with
          | none => none
          | some last =>
              (within byDots change path .opened last).map fun last =>
                entries.put key (.tables (all.dropLast ++ [last]))
      | some (.value _) => none

/-- Gives a value to a dotted key. -/
def assign (entries : Entries) (path : List String) (key : String) (v : Toml) : Option Entries :=
  within true
    (fun origin inner =>
      if !path.isEmpty && origin != .dotted then none
      else if (inner.lookup key).isSome then none
      else some (inner ++ [(key, .value v)]))
    path .opened entries

/-- Opens a table by its header. -/
def openTable (entries : Entries) (path : List String) (key : String) : Option Entries :=
  within false
    (fun _ inner =>
      match inner.lookup key with
      | none => some (inner.put key (.table .opened []))
      | some (.table .passedThrough old) => some (inner.put key (.table .opened old))
      | some _ => none)
    path .opened entries

/-- Opens one more of several tables by its header. -/
def openTables (entries : Entries) (path : List String) (key : String) : Option Entries :=
  within false
    (fun _ inner =>
      match inner.lookup key with
      | none => some (inner.put key (.tables [[]]))
      | some (.tables all) => some (inner.put key (.tables (all ++ [[]])))
      | some _ => none)
    path .opened entries

end Entries

end CallAudit.Toml

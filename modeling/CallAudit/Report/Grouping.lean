/-!
# How chains are grouped
-/

namespace CallAudit

/-- What the chains of a report are gathered under. -/
inductive Grouping where
  /-- Chains are written one by one as they are found. -/
  | none
  /-- Under the interesting method a chain starts from. -/
  | callee
  /-- Under the entry point a chain ends at. -/
  | caller
deriving DecidableEq, Repr, Inhabited

namespace Grouping

def name : Grouping → String
  | none => "none"
  | callee => "callee"
  | caller => "caller"

/-- The grouping of this name, in exactly this spelling. -/
def ofName? : String → Option Grouping
  | "none" => some none
  | "callee" => some callee
  | "caller" => some caller
  | _ => Option.none

/-- Lower-cases the letters `A` to `Z` and no others. -/
def foldCase (text : String) : String :=
  String.ofList (text.toList.map Char.toLower)

/-- Reads a grouping as a user types it; a word that names none is described in words. -/
def parse (text : String) : Except String Grouping :=
  match ofName? (foldCase text) with
  | some g => .ok g
  | Option.none =>
      .error s!"unknown grouping '{foldCase text}' (expected none, callee or caller)"

@[simp] theorem ofName?_name (g : Grouping) : ofName? g.name = some g := by
  cases g <;> rfl

end Grouping

end CallAudit

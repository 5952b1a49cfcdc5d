import CallAudit.Text.Cut

/-!
# Paths

A path is a text whose parts are separated by slashes. Empty parts and single dots name nothing.
Taking a path apart loses nothing (`joinParts_parts`).
-/

namespace CallAudit.Path

/-- The parts between the slashes. -/
def parts : List Char → List (List Char)
  | [] => [[]]
  | c :: cs =>
      if c = '/' then [] :: parts cs
      else
        match parts cs with
        | [] => [[c]]
        | first :: rest => (c :: first) :: rest

/-- Puts slashes between parts. -/
def joinParts (ps : List (List Char)) : List Char :=
  ['/'].intercalate ps

theorem parts_ne_nil (cs : List Char) : parts cs ≠ [] := by
  cases cs with
  | nil => simp [parts]
  | cons c cs =>
    by_cases h : c = '/'
    · simp [parts, h]
    · cases hp : parts cs <;> simp [parts, h, hp]

theorem joinParts_parts (cs : List Char) : joinParts (parts cs) = cs := by
  induction cs with
  | nil => rfl
  | cons c cs ih =>
    cases hp : parts cs with
    | nil => exact absurd hp (parts_ne_nil cs)
    | cons first rest =>
      rw [hp] at ih
      by_cases h : c = '/'
      · simpa [parts, h, hp, joinParts, List.intercalate] using ih
      · have step : parts (c :: cs) = (c :: first) :: rest := by simp [parts, h, hp]
        rw [step]
        cases rest with
        | nil => simpa [joinParts] using ih
        | cons second rest => simpa [joinParts, List.intercalate] using ih

/-- Whether a part names nothing. -/
def isIdle (part : List Char) : Bool :=
  part == [] || part == ['.']

/-- The root or the dot a path starts with, and the rest. -/
def splitStart : List Char → List Char × List Char
  | '/' :: rest => (['/'], rest)
  | ['.'] => (['.'], [])
  | '.' :: '/' :: rest => (['.'], '/' :: rest)
  | cs => ([], cs)

/-- Takes idle parts off the end of a reversed list of parts. -/
def dropIdle (reversed : List (List Char)) : List (List Char) :=
  reversed.dropWhile isIdle

/-- The directory that what a path names lies in. -/
def directory? (path : String) : Option String :=
  let (start, rest) := splitStart path.toList
  match dropIdle (parts rest).reverse with
  | _ :: outer => some (String.ofList (start ++ joinParts (dropIdle outer).reverse))
  | [] => if start = ['.'] then some "" else none

/-- A path seen from a directory; a path that starts at the root is left alone. -/
def within (directory path : String) : String :=
  if path.startsWith "/" || directory.isEmpty then path
  else if directory.endsWith "/" then directory ++ path
  else directory ++ "/" ++ path

end CallAudit.Path

import CallAudit.Pattern.Syntax

/-!
# Flags and escapes

How letters are to be taken, and what a sign after a backslash stands for.
-/

namespace CallAudit.Pattern

/-! ## Flags -/

/-- How the letters of a pattern are to be taken. -/
structure Flags where
  ignoreCase : Bool := false
  /-- `^` and `$` stand for ends of lines. -/
  multiLine : Bool := false
  /-- `.` stands for line breaks as well. -/
  dotAll : Bool := false
deriving DecidableEq, Repr, Inhabited

/-- Sets the flag of a letter. Swapping lazy and greedy, or asking for all scripts, changes nothing
here. -/
def Flags.set (f : Flags) (on : Bool) : Char → Option Flags
  | 'i' => some { f with ignoreCase := on }
  | 'm' => some { f with multiLine := on }
  | 's' => some { f with dotAll := on }
  | 'U' => some f
  | 'u' => if on then some f else none
  | _ => none

/-- Reads the letters of a flag group up to `)` or `:`. A letter may stand once, and a minus once with
a letter after it. -/
def readFlags : List Char → (on : Bool) → (seen : List Char) → Flags → Option (Flags × List Char)
  | [], _, _, _ => none
  | c :: rest, on, seen, f =>
      if c = ')' ∨ c = ':' then
        if seen.isEmpty ∨ seen.head? = some '-' then none else some (f, c :: rest)
      else if c ∈ seen then none
      else if c = '-' then readFlags rest false (c :: seen) f
      else
        match f.set on c with
        | some f => readFlags rest on (c :: seen) f
        | none => none

/-! ## Escapes -/

/-- What an escape stands for. -/
inductive Escaped where
  | literal (c : Char)
  | set (s : CharSet)
  | assertion (a : Assertion)
deriving DecidableEq, Repr

/-- The value of a hexadecimal digit of either case. -/
def hexDigitValue? (c : Char) : Option Nat :=
  if '0' ≤ c ∧ c ≤ '9' then some (c.toNat - '0'.toNat)
  else if 'a' ≤ c ∧ c ≤ 'f' then some (c.toNat - 'a'.toNat + 10)
  else if 'A' ≤ c ∧ c ≤ 'F' then some (c.toNat - 'A'.toNat + 10)
  else none

/-- The character that hexadecimal digits write. -/
def hexChar? (digits : List Char) : Option Char :=
  if digits.isEmpty then none
  else
    match digits.mapM hexDigitValue? with
    | none => none
    | some values =>
        let code := values.foldl (fun n v => min (n * 16 + v) 0x110000) 0
        if code.isValidChar then some (Char.ofNat code) else none

/-- A character by number: a fixed count of digits, or any count in braces. -/
def readHex (count : Nat) (rest : List Char) : Option (Escaped × List Char) :=
  match rest with
  | '\x7b' :: inner =>
      let digits := inner.takeWhile (· != '\x7d')
      match inner.drop digits.length, hexChar? digits with
      | _ :: rest, some c => some (.literal c, rest)
      | _, _ => none
  | _ =>
      if (rest.take count).length = count then
        (hexChar? (rest.take count)).map fun c => (.literal c, rest.drop count)
      else none

/-- Reads an escape whose backslash has been taken. Any sign but `<` and `>` may be escaped to stand
for itself; a letter or digit only where it means something. -/
def readEscape : List Char → Option (Escaped × List Char)
  | [] => none
  | c :: rest =>
      match c with
      | 'w' => some (.set .wordPart, rest)
      | 'W' => some (.set (.complement .wordPart), rest)
      | 'd' => some (.set .digit, rest)
      | 'D' => some (.set (.complement .digit), rest)
      | 's' => some (.set .blank, rest)
      | 'S' => some (.set (.complement .blank), rest)
      | 'b' => some (.assertion .wordBoundary, rest)
      | 'B' => some (.assertion .noWordBoundary, rest)
      | 'A' => some (.assertion .textStart, rest)
      | 'z' => some (.assertion .textEnd, rest)
      | '<' => some (.assertion .wordStart, rest)
      | '>' => some (.assertion .wordEnd, rest)
      | 'n' => some (.literal '\n', rest)
      | 't' => some (.literal '\t', rest)
      | 'r' => some (.literal '\r', rest)
      | 'f' => some (.literal (Char.ofNat 0x0C), rest)
      | 'v' => some (.literal (Char.ofNat 0x0B), rest)
      | 'a' => some (.literal (Char.ofNat 0x07), rest)
      | 'x' => readHex 2 rest
      | 'u' => readHex 4 rest
      | 'U' => readHex 8 rest
      | c => if c.isAlphanum || 127 < c.toNat then none else some (.literal c, rest)

end CallAudit.Pattern

import CallAudit.Pattern.Bracket

/-!
# The notation of patterns

Literals, `.`, classes in brackets, `\w \d \s \b` and their opposites, `^ $`, alternation, groups with
or without a name, `? * +` and counted repetition, each optionally lazy, and flags in groups. A
notation that makes no sense has no pattern. Look-around, back-references and properties of
characters by name are not part of the notation.
-/

namespace CallAudit.Pattern

/-! ## Repetition -/

/-- A count, with blanks around it, within 32 bits. -/
def readCount (cs : List Char) : Option (Nat × List Char) :=
  let cs := cs.dropWhile isBlank
  let digits := cs.takeWhile Char.isDigit
  let count := digits.foldl (fun n c => min (n * 10 + (c.toNat - '0'.toNat)) (Nat.pow 2 32)) 0
  if digits.isEmpty || Nat.pow 2 32 ≤ count then none
  else some (count, (cs.drop digits.length).dropWhile isBlank)

/-- Reads the bounds of a counted repetition whose opening brace has been taken. Where there is no
upper bound, the closing brace follows the comma at once. -/
def readBounds (cs : List Char) : Option ((Nat × Option Nat) × List Char) :=
  match readCount cs with
  | some (least, '\x7d' :: rest) => some ((least, some least), rest)
  | some (least, ',' :: '\x7d' :: rest) => some ((least, none), rest)
  | some (least, ',' :: rest) =>
      match readCount rest with
      | some (most, '\x7d' :: rest) =>
          if least ≤ most then some ((least, some most), rest) else none
      | _ => none
  | _ => none

/-- Reads a repetition sign, if one is there. `some none` means that there is none, `none` that it
makes no sense. -/
def readRepetition : List Char → Option (Option ((Nat × Option Nat) × List Char))
  | '?' :: rest => some (some ((0, some 1), rest))
  | '*' :: rest => some (some ((0, none), rest))
  | '+' :: rest => some (some ((1, none), rest))
  | '\x7b' :: rest => (readBounds rest).map some
  | _ => some none

/-- Lazy repetition finds other matches first, but the same texts match. -/
def skipLazySign : List Char → List Char
  | '?' :: rest => rest
  | rest => rest

/-! ## Groups -/

/-- What the opening of a group says. -/
inductive Opening where
  /-- A group, with flags for its inside. -/
  | group (captures : Bool) (inner : Flags) (names : List (List Char))
  /-- Flags for what follows. -/
  | flags (f : Flags)
deriving Repr

/-- Whether a character may come first in the name of a group. -/
def startsName (c : Char) : Bool := c == '_' || isLetter c

/-- Whether a character may come later in the name of a group. -/
def continuesName (c : Char) : Bool :=
  c == '_' || c == '.' || c == '[' || c == ']' || isLetterOrNumber c

/-- Reads the name of a group up to `>`. A name may be given once. -/
def readGroupName (f : Flags) (names : List (List Char)) (rest : List Char) :
    Option (Opening × List Char) :=
  let name := rest.takeWhile (· != '>')
  match name, rest.drop name.length with
  | c :: cs, _ :: rest =>
      if startsName c && cs.all continuesName && !names.contains name then
        some (.group true f (name :: names), rest)
      else none
  | _, _ => none

/-- Reads the opening of a group whose bracket has been taken. -/
def readOpening (f : Flags) (names : List (List Char)) : List Char → Option (Opening × List Char)
  | '?' :: 'P' :: '<' :: rest => readGroupName f names rest
  | '?' :: '<' :: '=' :: _ => none
  | '?' :: '<' :: '!' :: _ => none
  | '?' :: '<' :: rest => readGroupName f names rest
  | '?' :: ':' :: rest => some (.group false f names, rest)
  | '?' :: rest =>
      match readFlags rest true [] f with
      | some (f, ')' :: rest) => some (.flags f, rest)
      | some (f, _ :: rest) => some (.group false f names, rest)
      | _ => none
  | rest => some (.group true f names, rest)

/-! ## Sequences and alternatives -/

/-- What is known halfway through a group. -/
structure Progress where
  /-- The alternatives before this one, the last one first. -/
  before : List Piece := []
  /-- The members of the sequence read so far in this alternative, the last one first. -/
  members : List Piece := []
  /-- Whether a repetition sign would apply to the last member. -/
  repeatable : Bool := false
  flags : Flags := {}
  /-- The names given to groups so far. -/
  names : List (List Char) := []
  /-- How many more groups may be open within this one. -/
  levels : Nat := Piece.maxDepth
deriving Repr, Inhabited

namespace Progress

/-- Appends a member. -/
def push (p : Progress) (member : Piece) : Progress :=
  { p with members := member :: p.members, repeatable := true }

/-- Changes the flags. The notation of flags is a member too, but not one to repeat. -/
def setFlags (p : Progress) (flags : Flags) : Progress :=
  { p with members := {} :: p.members, repeatable := false, flags }

/-- Repeats the last member, if there is one and it does not nest too deep. -/
def repeatLast (p : Progress) (least : Nat) (most : Option Nat) : Option Progress :=
  match p.repeatable, p.members with
  | true, last :: members =>
      (last.repeated least most).map fun last => { p with members := last :: members }
  | _, _ => none

/-- All alternatives so far: the pattern of the group, if it ends here. -/
def finish (p : Progress) : Piece :=
  .alternatives (.sequence p.members :: p.before)

/-- Goes on to the next alternative. -/
def nextAlternative (p : Progress) : Progress :=
  { p with before := .sequence p.members :: p.before, members := [], repeatable := false }

end Progress

/-- The set of one character under the flags. -/
def literalSet (f : Flags) (c : Char) : CharSet :=
  if f.ignoreCase then .anyCase (.single c) else .single c

/-- What a character stands for that is neither a bracket nor a repetition sign. -/
def readSingle (f : Flags) : List Char → Option (Piece × List Char)
  | [] => none
  | '.' :: rest =>
      some (.char (if f.dotAll then .all else .complement (.single '\n')) 0, rest)
  | '^' :: rest => some (.assert (if f.multiLine then .lineStart else .textStart), rest)
  | '$' :: rest => some (.assert (if f.multiLine then .lineEnd else .textEnd), rest)
  | '\\' :: rest =>
      match readEscape rest with
      | some (.literal c, rest) => some (.char (literalSet f c) 0, rest)
      | some (.set s, rest) => some (.char s 0, rest)
      | some (.assertion a, rest) => some (.assert a, rest)
      | none => none
  | c :: rest => some (.char (literalSet f c) 0, rest)

/-- Reads a group, or the whole notation, up to a closing bracket or the end. Every step takes a
character. -/
def readGroup : (fuel : Nat) → Progress → List Char → Option (Progress × List Char)
  | 0, _, _ => none
  | fuel + 1, p, cs =>
      match cs with
      | [] => some (p, [])
      | ')' :: _ => some (p, cs)
      | '|' :: rest => readGroup fuel p.nextAlternative rest
      | '(' :: rest =>
          match readOpening p.flags p.names rest with
          | some (.flags flags, rest) => readGroup fuel (p.setFlags flags) rest
          | some (.group captures flags names, rest) =>
              if p.levels = 0 then none
              else
                match readGroup fuel { flags, names, levels := p.levels - 1 } rest with
                | some (inner, ')' :: rest) =>
                    match inner.finish.group captures with
                    | some group => readGroup fuel { p.push group with names := inner.names } rest
                    | none => none
                | _ => none
          | none => none
      | '[' :: rest =>
          let (negated, first, rest) := readClassOpening rest
          match readClass p.flags (rest.length + 1) Piece.maxDepth negated none first rest with
          | some (inner, rest) => readGroup fuel (p.push (.char inner.set inner.depth)) rest
          | none => none
      | cs =>
          match readRepetition cs with
          | none => none
          | some (some ((least, most), rest)) =>
              match p.repeatLast least most with
              | some p => readGroup fuel p (skipLazySign rest)
              | none => none
          | some none =>
              match readSingle p.flags cs with
              | some (piece, rest) => readGroup fuel (p.push piece) rest
              | none => none

/-- Reads a pattern. -/
def read (s : String) : Option Pattern :=
  match readGroup (s.toList.length + 1) {} s.toList with
  | some (p, []) => p.finish.toPattern?
  | _ => none

end CallAudit.Pattern

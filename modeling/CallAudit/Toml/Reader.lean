import CallAudit.Toml.Draft
import CallAudit.Toml.Lexeme

/-!
# Reading TOML

A document is read line by line into a draft. Values nest, but not without bound; every step into one
takes a character, so the length of the text is fuel enough.
-/

namespace CallAudit.Toml

/-- How many arrays and inline tables may stand around a value, and how many parts a key may have. -/
def nestingLimit : Nat := 79

mutual

/-- Reads a value that may have so many levels. -/
def readValue : (fuel levels : Nat) → List Char → Option (Toml × List Char)
  | 0, _, _ => none
  | fuel + 1, levels, cs =>
      match cs with
      | '[' :: rest =>
          match levels with
          | 0 => none
          | levels + 1 =>
              (readItems fuel levels rest).map fun (items, rest) => (.array items, rest)
      | '\x7b' :: rest =>
          match levels with
          | 0 => none
          | levels + 1 =>
              match skipBlanks rest with
              | '\x7d' :: rest => some (.table [], rest)
              | cs =>
                  (readInline fuel levels [] cs).map fun (entries, rest) =>
                    (.table (Draft.finishedEntries entries), rest)
      | 't' :: 'r' :: 'u' :: 'e' :: rest => some (.bool true, rest)
      | 'f' :: 'a' :: 'l' :: 's' :: 'e' :: rest => some (.bool false, rest)
      | c :: _ =>
          if c = '"' ∨ c = '\'' then
            (readString cs).map fun (body, rest) => (.text (String.ofList body), rest)
          else if startsDate cs || startsTime cs then
            (readMoment cs).map fun rest => (.moment, rest)
          else readNumber cs
      | [] => none

/-- Reads the items of an array up to its closing bracket. -/
def readItems : (fuel levels : Nat) → List Char → Option (List Toml × List Char)
  | 0, _, _ => none
  | fuel + 1, levels, cs =>
      match skipSpace cs.length cs with
      | none => none
      | some (']' :: rest) => some ([], rest)
      | some cs =>
          match readValue fuel levels cs with
          | none => none
          | some (item, rest) =>
              match skipSpace rest.length rest with
              | some (']' :: rest) => some ([item], rest)
              | some (',' :: rest) =>
                  (readItems fuel levels rest).map fun (items, rest) => (item :: items, rest)
              | _ => none

/-- Reads the entries of a table in braces, one or more, up to the closing brace. -/
def readInline : (fuel levels : Nat) → Entries → List Char → Option (Entries × List Char)
  | 0, _, _, _ => none
  | fuel + 1, levels, entries, cs =>
      match readKey nestingLimit cs with
      | some ((path, key), '=' :: rest) =>
          match readValue fuel levels (skipBlanks rest) with
          | none => none
          | some (v, rest) =>
              match entries.assign path key v with
              | none => none
              | some entries =>
                  match skipBlanks rest with
                  | '\x7d' :: rest => some (entries, rest)
                  | ',' :: rest => readInline fuel levels entries rest
                  | _ => none
      | _ => none

end

/-- A document half read: what stands in it so far, and the path to the table that lines add to. -/
structure Progress where
  entries : Entries := []
  current : List String := []

/-- Gives a value to a key of the current table. -/
def Progress.assign (p : Progress) (path : List String) (key : String) (v : Toml) :
    Option Progress :=
  (Entries.within false (fun _ inner => Entries.assign inner path key v) p.current .opened
    p.entries).map fun entries => { p with entries }

/-- Reads a header whose opening brackets have been taken, and makes its table the current one. -/
def readHeader (closing : List Char) (openAt : Entries → List String → String → Option Entries)
    (p : Progress) (cs : List Char) : Option (Progress × List Char) :=
  match readKey nestingLimit cs with
  | none => none
  | some ((path, key), rest) =>
      if closing.isPrefixOf rest then
        (openAt p.entries path key).map fun entries =>
          ({ entries, current := path ++ [key] }, rest.drop closing.length)
      else none

/-- Reads a line that is neither empty nor only a comment, without its end. -/
def readEntry (p : Progress) : List Char → Option (Progress × List Char)
  | '[' :: '[' :: rest => readHeader [']', ']'] Entries.openTables p rest
  | '[' :: rest => readHeader [']'] Entries.openTable p rest
  | cs =>
      match readKey nestingLimit cs with
      | some ((path, key), '=' :: rest) =>
          match readValue (rest.length + 1) nestingLimit (skipBlanks rest) with
          | some (v, rest) => (p.assign path key v).map fun p => (p, rest)
          | none => none
      | _ => none

/-- Reads lines up to the end. -/
def readLines : (fuel : Nat) → Progress → List Char → Option Progress
  | 0, _, _ => none
  | fuel + 1, p, cs =>
      match skipBlanks cs with
      | [] => some p
      | c :: rest =>
          if c = '#' ∨ c = '\n' ∨ c = '\r' then
            match endLine (c :: rest) with
            | some rest => readLines fuel p rest
            | none => none
          else
            match readEntry p (c :: rest) with
            | none => none
            | some (p, rest) =>
                match endLine rest with
                | some rest => readLines fuel p rest
                | none => none

/-- Skips the mark that may stand before the first line. -/
def skipByteOrderMark : List Char → List Char
  | '\uFEFF' :: rest => rest
  | cs => cs

/-- Reads a document as a table. -/
def read (s : String) : Option Toml :=
  let cs := skipByteOrderMark s.toList
  (readLines (cs.length + 1) {} cs).map fun p => .table (Draft.finishedEntries p.entries)

end CallAudit.Toml

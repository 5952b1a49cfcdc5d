import CallAudit.Json.Text
import CallAudit.Json.Number

/-!
# Reading JSON

A strict reader: blanks are allowed between tokens, and nothing else that the grammar lacks. Every
step into a value takes at least one character, so the length of the text is fuel enough.
-/

namespace CallAudit.Json

def isBlank (c : Char) : Bool :=
  c = ' ' || c = '\t' || c = '\n' || c = '\r'

def skipBlanks (cs : List Char) : List Char :=
  cs.dropWhile isBlank

mutual

/-- Reads a value that starts at the front, without blanks before it. -/
def readValue : (fuel : Nat) → List Char → Option (Json × List Char)
  | 0, _ => none
  | fuel + 1, cs =>
      match cs with
      | '{' :: rest =>
          match skipBlanks rest with
          | '}' :: rest => some (object [], rest)
          | cs => (readMembers fuel cs).map fun (members, rest) => (object members, rest)
      | '[' :: rest =>
          match skipBlanks rest with
          | ']' :: rest => some (array [], rest)
          | cs => (readItems fuel cs).map fun (items, rest) => (array items, rest)
      | '"' :: rest => (readQuoted rest).map fun (spelt, rest) => (text spelt, rest)
      | 't' :: 'r' :: 'u' :: 'e' :: rest => some (bool true, rest)
      | 'f' :: 'a' :: 'l' :: 's' :: 'e' :: rest => some (bool false, rest)
      | 'n' :: 'u' :: 'l' :: 'l' :: rest => some (null, rest)
      | cs => (readNumber cs).map fun (written, rest) => (number written, rest)

/-- Reads one item or more, up to the closing bracket. -/
def readItems : (fuel : Nat) → List Char → Option (List Json × List Char)
  | 0, _ => none
  | fuel + 1, cs =>
      match readValue fuel cs with
      | none => none
      | some (item, rest) =>
          match skipBlanks rest with
          | ']' :: rest => some ([item], rest)
          | ',' :: rest =>
              (readItems fuel (skipBlanks rest)).map fun (items, rest) => (item :: items, rest)
          | _ => none

/-- Reads one member or more, up to the closing brace. -/
def readMembers : (fuel : Nat) → List Char → Option (List (Spelt × Json) × List Char)
  | 0, _ => none
  | fuel + 1, cs =>
      match readMember fuel cs with
      | none => none
      | some (member, rest) =>
          match skipBlanks rest with
          | '}' :: rest => some ([member], rest)
          | ',' :: rest =>
              (readMembers fuel (skipBlanks rest)).map fun (members, rest) =>
                (member :: members, rest)
          | _ => none

/-- Reads a name, a colon and a value. -/
def readMember : (fuel : Nat) → List Char → Option ((Spelt × Json) × List Char)
  | 0, _ => none
  | fuel + 1, cs =>
      match cs with
      | '"' :: rest =>
          match readQuoted rest with
          | none => none
          | some (name, rest) =>
              match skipBlanks rest with
              | ':' :: rest =>
                  (readValue fuel (skipBlanks rest)).map fun (value, rest) =>
                    ((name, value), rest)
              | _ => none
      | _ => none

end

/-- Reads a whole document: one value, with blanks around it. -/
def readChars (cs : List Char) : Option Json :=
  match readValue (2 * cs.length + 1) (skipBlanks cs) with
  | some (value, rest) => if (skipBlanks rest).isEmpty then some value else none
  | none => none

/-- Reads a whole document: one value, with blanks around it. -/
def read (s : String) : Option Json :=
  readChars s.toList

end CallAudit.Json

import CallAudit.Double
import CallAudit.Toml.Value

/-!
# Words of TOML

Blanks, comments, keys, strings, numbers and moments, each read off the front of a list of
characters.
-/

namespace CallAudit.Toml

/-! ## Blanks and line breaks -/

def isBlank (c : Char) : Bool := c = ' ' || c = '\t'

def skipBlanks (cs : List Char) : List Char := cs.dropWhile isBlank

/-- What follows a line break, if one is there. -/
def lineBreak? : List Char → Option (List Char)
  | '\n' :: rest => some rest
  | '\r' :: '\n' :: rest => some rest
  | _ => none

/-- Whether a character may stand in a comment or a string: tabs may, other controls may not. -/
def isPlain (c : Char) : Bool :=
  c = '\t' || 0x20 ≤ c.toNat && c.toNat != 0x7F

/-- Skips a comment, if one is there. -/
def skipComment : List Char → List Char
  | '#' :: rest => rest.dropWhile isPlain
  | cs => cs

/-- Ends a line: blanks, a comment, and a line break or the end of the document. -/
def endLine (cs : List Char) : Option (List Char) :=
  match skipComment (skipBlanks cs) with
  | [] => some []
  | cs => lineBreak? cs

/-- Skips blanks, comments and line breaks between the items of an array. -/
def skipSpace : (fuel : Nat) → List Char → Option (List Char)
  | 0, cs => some cs
  | fuel + 1, cs =>
      match skipBlanks cs with
      | '#' :: rest =>
          match lineBreak? (rest.dropWhile isPlain) with
          | some rest => skipSpace fuel rest
          | none => none
      | cs =>
          match lineBreak? cs with
          | some rest => skipSpace fuel rest
          | none => some cs

/-! ## Strings -/

/-- The value of a hexadecimal digit of either case. -/
def hexValue? (c : Char) : Option Nat :=
  if '0' ≤ c ∧ c ≤ '9' then some (c.toNat - '0'.toNat)
  else if 'a' ≤ c ∧ c ≤ 'f' then some (c.toNat - 'a'.toNat + 10)
  else if 'A' ≤ c ∧ c ≤ 'F' then some (c.toNat - 'A'.toNat + 10)
  else none

/-- The number that digits write in a base. -/
def numberInBase (base : Nat) (digits : List Char) : Option Nat :=
  match digits.mapM hexValue? with
  | some values =>
      if values.all (· < base) then some (values.foldl (fun n v => n * base + v) 0) else none
  | none => none

/-- A character by number, with a fixed count of digits. -/
def readCodePoint (count : Nat) (cs : List Char) : Option (Char × List Char) :=
  if (cs.take count).length = count then
    match numberInBase 16 (cs.take count) with
    | some code => if code.isValidChar then some (Char.ofNat code, cs.drop count) else none
    | none => none
  else none

/-- Reads an escape whose backslash has been taken. -/
def readEscape : List Char → Option (Char × List Char)
  | 'b' :: rest => some (Char.ofNat 8, rest)
  | 't' :: rest => some ('\t', rest)
  | 'n' :: rest => some ('\n', rest)
  | 'f' :: rest => some (Char.ofNat 12, rest)
  | 'r' :: rest => some ('\r', rest)
  | '"' :: rest => some ('"', rest)
  | '\\' :: rest => some ('\\', rest)
  | 'u' :: rest => readCodePoint 4 rest
  | 'U' :: rest => readCodePoint 8 rest
  | _ => none

/-- Reads a string in double quotes, whose opening quote has been taken. -/
def readBasic : (fuel : Nat) → List Char → Option (List Char × List Char)
  | 0, _ => none
  | fuel + 1, cs =>
      match cs with
      | '"' :: rest => some ([], rest)
      | '\\' :: rest =>
          match readEscape rest with
          | some (c, rest) => (readBasic fuel rest).map fun (cs, rest) => (c :: cs, rest)
          | none => none
      | c :: rest =>
          if isPlain c then (readBasic fuel rest).map fun (cs, rest) => (c :: cs, rest) else none
      | [] => none

/-- Reads a string in single quotes, whose opening quote has been taken. -/
def readLiteral (cs : List Char) : Option (List Char × List Char) :=
  let body := cs.takeWhile fun c => isPlain c && c != '\''
  match cs.drop body.length with
  | '\'' :: rest => some (body, rest)
  | _ => none

/-- Reads the quotes at the front of the rest of a long string: fewer than three belong to it, from
three on it ends, and the end may have up to two quotes of its own before it. -/
def readQuoteRun (quote : Char) (cs : List Char) : List Char × Bool × List Char :=
  let run := (cs.takeWhile (· == quote)).length
  if run < 3 then (List.replicate run quote, false, cs.drop run)
  else (List.replicate (min (run - 3) 2) quote, true, cs.drop (min run 5))

/-- Skips to the next character that is neither a blank nor a line break. -/
def skipLines : (fuel : Nat) → List Char → List Char
  | 0, cs => cs
  | fuel + 1, cs =>
      match lineBreak? (skipBlanks cs) with
      | some rest => skipLines fuel rest
      | none => skipBlanks cs

/-- Reads a long string up to its three closing quotes. Line breaks are kept as line feeds. In double
quotes there are escapes, and a backslash at the end of a line takes the break and the blanks after
it away. -/
def readLong (quote : Char) (escapes : Bool) : (fuel : Nat) → List Char →
    Option (List Char × List Char)
  | 0, _ => none
  | fuel + 1, cs =>
      match cs with
      | [] => none
      | c :: rest =>
          if c == quote then
            match readQuoteRun quote cs with
            | (body, true, rest) => some (body, rest)
            | (body, false, rest) =>
                (readLong quote escapes fuel rest).map fun (cs, rest) => (body ++ cs, rest)
          else if c == '\\' && escapes then
            match lineBreak? (skipBlanks rest) with
            | some after => readLong quote escapes fuel (skipLines after.length after)
            | none =>
                match readEscape rest with
                | some (c, rest) =>
                    (readLong quote escapes fuel rest).map fun (cs, rest) => (c :: cs, rest)
                | none => none
          else
            match lineBreak? cs with
            | some rest =>
                (readLong quote escapes fuel rest).map fun (cs, rest) => ('\n' :: cs, rest)
            | none =>
                if isPlain c then
                  (readLong quote escapes fuel rest).map fun (cs, rest) => (c :: cs, rest)
                else none

/-- Skips the line break that may follow the opening of a long string. -/
def skipFirstBreak (cs : List Char) : List Char :=
  (lineBreak? cs).getD cs

/-- Reads a string of any of the four sorts. -/
def readString : List Char → Option (List Char × List Char)
  | '"' :: '"' :: '"' :: rest => readLong '"' true (rest.length + 1) (skipFirstBreak rest)
  | '"' :: rest => readBasic (rest.length + 1) rest
  | '\'' :: '\'' :: '\'' :: rest => readLong '\'' false (rest.length + 1) (skipFirstBreak rest)
  | '\'' :: rest => readLiteral rest
  | _ => none

/-! ## Keys -/

def isBareKeyChar (c : Char) : Bool :=
  c.isAlphanum || c = '_' || c = '-'

/-- Reads one part of a key. -/
def readSimpleKey : List Char → Option (String × List Char)
  | '"' :: rest =>
      (readBasic (rest.length + 1) rest).map fun (cs, rest) => (String.ofList cs, rest)
  | '\'' :: rest => (readLiteral rest).map fun (cs, rest) => (String.ofList cs, rest)
  | cs =>
      let key := cs.takeWhile isBareKeyChar
      if key.isEmpty then none else some (String.ofList key, cs.drop key.length)

/-- Reads a dotted key of at most so many parts, with blanks around them: all parts but the last, and
the last. -/
def readKey : (parts : Nat) → List Char → Option ((List String × String) × List Char)
  | 0, _ => none
  | parts + 1, cs =>
      match readSimpleKey (skipBlanks cs) with
      | none => none
      | some (key, rest) =>
          match skipBlanks rest with
          | '.' :: rest =>
              (readKey parts rest).map fun ((path, last), rest) => ((key :: path, last), rest)
          | rest => some (([], key), rest)

/-! ## Numbers -/

/-- Reads digits with single underscores between them. -/
def readDigits (isDigit : Char → Bool) : (fuel : Nat) → List Char → Option (List Char × List Char)
  | 0, _ => none
  | fuel + 1, cs =>
      match cs with
      | d :: rest =>
          if isDigit d then
            match rest with
            | '_' :: rest => (readDigits isDigit fuel rest).map fun (ds, rest) => (d :: ds, rest)
            | e :: _ =>
                if isDigit e then
                  (readDigits isDigit fuel rest).map fun (ds, rest) => (d :: ds, rest)
                else some ([d], rest)
            | [] => some ([d], [])
          else none
      | [] => none

def readDecimals (cs : List Char) : Option (List Char × List Char) :=
  readDigits Char.isDigit (cs.length + 1) cs

/-- The least integer that does not fit in 64 bits with a sign. -/
def integerOverflow : Nat := Nat.pow 2 63

/-- Reads an integer in a base given by a letter after a zero. -/
def readBased (base : Nat) (isDigit : Char → Bool) (cs : List Char) : Option (Toml × List Char) :=
  match readDigits isDigit (cs.length + 1) cs with
  | none => none
  | some (digits, rest) =>
      match numberInBase base digits with
      | some n => if n < integerOverflow then some (.integer n, rest) else none
      | none => none

/-- Takes a sign off the front: whether it is a minus, and the rest. -/
def readSign : List Char → Bool × List Char
  | '-' :: rest => (true, rest)
  | '+' :: rest => (false, rest)
  | cs => (false, cs)

/-- The whole part of a decimal number: a zero alone, or digits that do not start with one. -/
def readWhole : List Char → Option (List Char × List Char)
  | '0' :: rest => some (['0'], rest)
  | cs => readDecimals cs

/-- Reads the fraction and the exponent of a number, if either is there. A letter that starts an
exponent must be followed by one. -/
def readFloatTail (cs : List Char) : Option (Option (List Char × (Bool × List Char)) × List Char) :=
  let exponent (cs : List Char) : Option ((Bool × List Char) × List Char) :=
    match cs with
    | e :: rest =>
        if e = 'e' ∨ e = 'E' then
          let (negative, rest) := readSign rest
          (readDecimals rest).map fun (digits, rest) => ((negative, digits), rest)
        else some ((false, []), cs)
    | [] => some ((false, []), [])
  match cs with
  | '.' :: rest =>
      match readDecimals rest with
      | none => none
      | some (fraction, rest) =>
          (exponent rest).map fun (exponent, rest) => (some (fraction, exponent), rest)
  | e :: _ =>
      if e = 'e' ∨ e = 'E' then (exponent cs).map fun (exponent, rest) => (some ([], exponent), rest)
      else some (none, cs)
  | [] => some (none, cs)

/-- Whether a positive number in decimal notation is too large for a double. Powers of ten that decide
by themselves are not raised. -/
def overflowsDouble (whole fraction : List Char) (exponent : Bool × List Char) : Bool :=
  let value (digits : List Char) := digits.foldl (fun n c => n * 10 + (c.toNat - '0'.toNat)) 0
  let mantissa := value (whole ++ fraction)
  let raised := if exponent.1 then 0 else value exponent.2
  let lowered := fraction.length + if exponent.1 then value exponent.2 else 0
  if mantissa = 0 then false
  else if raised > lowered + 400 then true
  else if lowered > raised + whole.length + fraction.length then false
  else
    Double.overflow * Nat.pow 10 (lowered - raised) ≤ mantissa * Nat.pow 10 (raised - lowered)

/-- Reads a number in decimal notation. -/
def readDecimalNumber (cs : List Char) : Option (Toml × List Char) :=
  let (negative, cs) := readSign cs
  match cs with
  | 'i' :: 'n' :: 'f' :: rest => some (.float, rest)
  | 'n' :: 'a' :: 'n' :: rest => some (.float, rest)
  | cs =>
      match readWhole cs with
      | none => none
      | some (whole, rest) =>
          match readFloatTail rest with
          | none => none
          | some (some (fraction, exponent), rest) =>
              if !negative && overflowsDouble whole fraction exponent then none
              else some (.float, rest)
          | some (none, rest) =>
              let n := whole.foldl (fun n c => n * 10 + (c.toNat - '0'.toNat)) 0
              if negative then
                if n ≤ integerOverflow then some (.integer (-(n : Int)), rest) else none
              else if n < integerOverflow then some (.integer n, rest)
              else none

def isHexDigit (c : Char) : Bool := (hexValue? c).isSome

def isOctalDigit (c : Char) : Bool := '0' ≤ c && c ≤ '7'

def isBinaryDigit (c : Char) : Bool := c = '0' || c = '1'

/-- Reads a number of any notation. -/
def readNumber : List Char → Option (Toml × List Char)
  | '0' :: 'x' :: rest => readBased 16 isHexDigit rest
  | '0' :: 'o' :: rest => readBased 8 isOctalDigit rest
  | '0' :: 'b' :: rest => readBased 2 isBinaryDigit rest
  | cs => readDecimalNumber cs

/-! ## Dates and times -/

/-- Reads a number of exactly `count` digits. -/
def readFixed (count : Nat) (cs : List Char) : Option (Nat × List Char) :=
  let digits := cs.take count
  if digits.length = count && digits.all Char.isDigit then
    some (digits.foldl (fun n c => n * 10 + (c.toNat - '0'.toNat)) 0, cs.drop count)
  else none

/-- Reads a number of two digits from `low` to `high`. -/
def readBetween (low high : Nat) (cs : List Char) : Option (List Char) :=
  match readFixed 2 cs with
  | some (n, rest) => if low ≤ n ∧ n ≤ high then some rest else none
  | none => none

def isLeapYear (year : Nat) : Bool :=
  year % 4 = 0 && (year % 100 != 0 || year % 400 = 0)

def daysInMonth (year month : Nat) : Nat :=
  if month = 2 then (if isLeapYear year then 29 else 28)
  else if month = 4 ∨ month = 6 ∨ month = 9 ∨ month = 11 then 30
  else 31

/-- Whether a date starts here: four digits and a dash. -/
def startsDate (cs : List Char) : Bool :=
  match readFixed 4 cs with
  | some (_, '-' :: _) => true
  | _ => false

/-- Whether a time starts here: two digits and a colon. -/
def startsTime (cs : List Char) : Bool :=
  match readBetween 0 23 cs with
  | some (':' :: _) => true
  | _ => false

/-- Reads a date that has been seen to start. -/
def readDate (cs : List Char) : Option (List Char) :=
  match readFixed 4 cs with
  | some (year, '-' :: rest) =>
      match readFixed 2 rest with
      | some (month, '-' :: rest) =>
          if 1 ≤ month ∧ month ≤ 12 then readBetween 1 (daysInMonth year month) rest else none
      | _ => none
  | _ => none

/-- Reads a time that has been seen to start. -/
def readTime (cs : List Char) : Option (List Char) :=
  match readBetween 0 23 cs with
  | some (':' :: rest) =>
      match readBetween 0 59 rest with
      | some (':' :: rest) =>
          match readBetween 0 60 rest with
          | some ('.' :: d :: rest) => if d.isDigit then some (rest.dropWhile Char.isDigit) else none
          | rest => rest
      | _ => none
  | _ => none

/-- Reads the distance from universal time, if one is there. -/
def readOffset : List Char → Option (List Char)
  | 'Z' :: rest => some rest
  | 'z' :: rest => some rest
  | cs =>
      match cs with
      | sign :: rest =>
          if sign = '+' ∨ sign = '-' then
            match readBetween 0 23 rest with
            | some (':' :: rest) => readBetween 0 59 rest
            | _ => none
          else some cs
      | [] => some []

/-- Reads a date, a time, or both with a `T` or a blank between them. -/
def readMoment (cs : List Char) : Option (List Char) :=
  if startsDate cs then
    match readDate cs with
    | some (mark :: rest) =>
        if (mark = 'T' ∨ mark = 't' ∨ mark = ' ') ∧ startsTime rest then
          (readTime rest).bind readOffset
        else some (mark :: rest)
    | rest => rest
  else readTime cs

end CallAudit.Toml

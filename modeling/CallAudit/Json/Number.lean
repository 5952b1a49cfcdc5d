import CallAudit.Double
import CallAudit.Json.Value

/-!
# Numbers as JSON writes them
-/

namespace CallAudit.Json

/-- The digits at the front, and what follows them. -/
def spanDigits (cs : List Char) : List Char × List Char :=
  cs.span Char.isDigit

/-- One digit or more. -/
def readDigits (cs : List Char) : Option (List Char × List Char) :=
  match spanDigits cs with
  | ([], _) => none
  | (digits, rest) => some (digits, rest)

/-- The whole part: a zero alone, or digits that do not start with one. -/
def readWhole : List Char → Option (List Char × List Char)
  | '0' :: rest => some (['0'], rest)
  | cs => readDigits cs

/-- A point and digits, if a point is there. -/
def readFraction : List Char → Option (List Char × List Char)
  | '.' :: rest => (readDigits rest).map fun (digits, rest) => ('.' :: digits, rest)
  | cs => some ([], cs)

/-- The exponent, if there is one. -/
def readExponent (cs : List Char) : Option (List Char × List Char) :=
  match cs with
  | e :: rest =>
      if e = 'e' ∨ e = 'E' then
        match rest with
        | sign :: after =>
            if sign = '+' ∨ sign = '-' then
              (readDigits after).map fun (digits, rest) => (e :: sign :: digits, rest)
            else (readDigits rest).map fun (digits, rest) => (e :: digits, rest)
        | [] => none
      else some ([], cs)
  | [] => some ([], cs)

/-- The sign, if there is one. -/
def readSign : List Char → List Char × List Char
  | '-' :: rest => (['-'], rest)
  | cs => ([], cs)

/-- Reads a number and gives it back as written. -/
def readNumber (cs : List Char) : Option (String × List Char) := do
  let (sign, cs) := readSign cs
  let (whole, cs) ← readWhole cs
  let (fraction, cs) ← readFraction cs
  let (exponent, cs) ← readExponent cs
  some (String.ofList (sign ++ whole ++ fraction ++ exponent), cs)

/-! ## Size

A number that is kept is taken into a double in a fixed way: a significand of 64 bits is filled with
digits from the left, and a double of it is multiplied by a double of a power of ten. Both are rounded,
so numbers close to the greatest double may be found too large, or not.
-/

def digitValue (c : Char) : Nat := c.toNat - '0'.toNat

/-- The number that decimal digits write. -/
def digitsValue (digits : List Char) : Nat :=
  digits.foldl (fun n c => n * 10 + digitValue c) 0

/-- Fills a significand with digits as long as it stays below the limit. What does not fit is given
back. -/
def fill (limit : Nat) : Nat → List Char → Nat × List Char
  | n, [] => (n, [])
  | n, c :: digits =>
      if n * 10 + digitValue c < limit then fill limit (n * 10 + digitValue c) digits
      else (n, c :: digits)

/-- A number as a whole number times a power of ten. -/
structure Scaled where
  significand : Nat
  exponent : Int
deriving DecidableEq, Repr

/-- The number that the digits before and after a point write, as far as a significand of 64 bits
goes: whole digits that do not fit raise the exponent, and a fraction gives the digits that still
do. -/
def scaled (whole fraction : List Char) : Scaled :=
  let (n, dropped) := fill (Nat.pow 2 64) 0 whole
  let (n, ignored) := fill (Nat.pow 2 64) n fraction
  { significand := n
    exponent := (dropped.length : Int) - (fraction.length - ignored.length : Nat) }

/-- The greatest exponent that is multiplied by. -/
def maxExponent : Nat := 308

/-- Whether the double of a number is finite. -/
def Scaled.fitsDouble (x : Scaled) : Bool :=
  x.significand = 0 || x.exponent < 0 ||
    x.exponent ≤ maxExponent &&
      Double.nearest x.significand * Double.nearest (Nat.pow 10 x.exponent.toNat) < Double.overflow

/-- Whether a written number is within the range of a double. -/
def fitsDouble (written : String) : Bool :=
  let (_, cs) := readSign written.toList
  let (whole, cs) := spanDigits cs
  let (fraction, cs) :=
    match cs with
    | '.' :: rest => spanDigits rest
    | cs => ([], cs)
  let x := scaled whole fraction
  let raised := digitsValue (cs.filter Char.isDigit)
  Scaled.fitsDouble
    { x with exponent := if cs.contains '-' then x.exponent - raised else x.exponent + raised }

end CallAudit.Json

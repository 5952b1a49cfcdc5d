import CallAudit.Pattern.Escape
import CallAudit.Pattern.Piece

/-!
# Classes in brackets

A class lists characters, ranges, escapes, named classes of ASCII and further classes, and joins such
lists by the operators `&&`, `--` and `~~`, from the left.
-/

namespace CallAudit.Pattern

/-- An operator between the parts of a class. -/
inductive ClassOp where
  | inter | diff | symmDiff
deriving DecidableEq, Repr

def ClassOp.apply : ClassOp → CharSet → CharSet → CharSet
  | inter, a, b => a.inter b
  | diff, a, b => a.diff b
  | symmDiff, a, b => a.symmDiff b

/-- The operator at the front, if one is there. -/
def classOp? : List Char → Option (ClassOp × List Char)
  | '&' :: '&' :: rest => some (.inter, rest)
  | '-' :: '-' :: rest => some (.diff, rest)
  | '~' :: '~' :: rest => some (.symmDiff, rest)
  | _ => none

/-- The class of this name, of ASCII characters. -/
def namedClass? (name : String) : Option CharSet :=
  let lower := CharSet.range 'a' 'z'
  let upper := CharSet.range 'A' 'Z'
  let decimal := CharSet.range '0' '9'
  let graph := CharSet.range '!' '~'
  let alnum := (lower.union upper).union decimal
  match name with
  | "alnum" => some alnum
  | "alpha" => some (lower.union upper)
  | "ascii" => some (.range (Char.ofNat 0) (Char.ofNat 127))
  | "blank" => some ((CharSet.single '\t').union (.single ' '))
  | "cntrl" => some ((CharSet.range (Char.ofNat 0) (Char.ofNat 31)).union (.single (Char.ofNat 127)))
  | "digit" => some decimal
  | "graph" => some graph
  | "lower" => some lower
  | "print" => some (.range ' ' '~')
  | "punct" => some (graph.diff alnum)
  | "space" => some ((CharSet.range '\t' '\r').union (.single ' '))
  | "upper" => some upper
  | "word" => some (alnum.union (.single '_'))
  | "xdigit" => some ((decimal.union (.range 'A' 'F')).union (.range 'a' 'f'))
  | _ => none

/-- Reads `[:name:]` or `[:^name:]` whose `[:` has been taken. -/
def readNamedClass (rest : List Char) : Option (CharSet × List Char) :=
  let (negated, rest) :=
    match rest with
    | '^' :: rest => (true, rest)
    | rest => (false, rest)
  let name := rest.takeWhile (· != ':')
  match rest.drop name.length with
  | ':' :: ']' :: rest =>
      (namedClass? (String.ofList name)).map fun s => (if negated then .complement s else s, rest)
  | _ => none

/-- One member of a class: a character or the set of an escape. -/
def readClassMember : List Char → Option (Escaped × List Char)
  | [] => none
  | '\\' :: rest =>
      match readEscape rest with
      | some (.assertion _, _) => none
      | member => member
  | c :: rest => some (.literal c, rest)

/-- Reads a member, or a range from one character to another that is not before it. A minus before the
closing bracket or another minus stands for itself. -/
def readClassRange (cs : List Char) : Option (CharSet × List Char) :=
  match readClassMember cs with
  | none => none
  | some (first, rest) =>
      let alone :=
        match first with
        | .literal c => some (CharSet.single c, rest)
        | .set s => some (s, rest)
        | .assertion _ => none
      match rest with
      | '-' :: after =>
          match after with
          | [] => none
          | ']' :: _ | '-' :: _ => alone
          | _ =>
              match first, readClassMember after with
              | .literal low, some (.literal high, rest) =>
                  if low ≤ high then some (.range low high, rest) else none
              | _, _ => none
      | _ => alone

/-- Closes a class or a part of one: case is widened before the complement is taken. -/
def closeClass (f : Flags) (s : CharSet) : CharSet :=
  if f.ignoreCase then .anyCase s else s

/-- A set of characters with the depth to which its notation nests. -/
structure Nested where
  set : CharSet
  depth : Nat
deriving DecidableEq, Repr

/-- The list of items read so far, between two operators. -/
structure Items where
  set : CharSet := .none
  count : Nat := 0
  /-- The depth of the deepest item. -/
  depth : Nat := 0
deriving DecidableEq, Repr, Inhabited

/-- Adds an item. -/
def Items.add (items : Items) (item : Nested) : Items :=
  { set := items.set.union item.set, count := items.count + 1, depth := max items.depth item.depth }

/-- The list as a whole. A lone item stands for itself. -/
def Items.whole (items : Items) : Nested :=
  { set := items.set, depth := if items.count ≤ 1 then items.depth else items.depth + 1 }

/-- The complement sign and the minus and bracket signs that stand for themselves when they come
first. -/
def readClassOpening (cs : List Char) : Bool × Items × List Char :=
  let (negated, cs) :=
    match cs with
    | '^' :: rest => (true, rest)
    | cs => (false, cs)
  let minuses := cs.takeWhile (· == '-')
  let rest := cs.drop minuses.length
  if minuses.isEmpty then
    match rest with
    | ']' :: rest => (negated, { set := .single ']', count := 1 }, rest)
    | rest => (negated, {}, rest)
  else (negated, { set := .single '-', count := minuses.length }, rest)

/-- What stands to the left of the items being read, with the operator between. -/
abbrev ClassLeft := Option (Nested × ClassOp)

/-- Joins the items just read to what stands to their left. -/
def joinClass (f : Flags) (left : ClassLeft) (items : Items) : Nested :=
  match left with
  | some (a, op) =>
      { set := op.apply (closeClass f a.set) (closeClass f items.whole.set)
        depth := max a.depth items.whole.depth + 1 }
  | none => items.whole

/-- The class that ends here. -/
def finishClass (f : Flags) (negated : Bool) (left : ClassLeft) (items : Items) : Nested :=
  let joined := joinClass f left items
  let set := closeClass f joined.set
  { set := if negated then .complement set else set, depth := joined.depth + 1 }

/-- Reads a class, whose opening bracket has been taken, up to its closing bracket. Within it no more
than `levels` classes may be open at a time. -/
def readClass (f : Flags) : (fuel levels : Nat) → (negated : Bool) → ClassLeft → Items → List Char →
    Option (Nested × List Char)
  | 0, _, _, _, _, _ => none
  | fuel + 1, levels, negated, left, items, cs =>
      match cs with
      | [] => none
      | ']' :: rest => some (finishClass f negated left items, rest)
      | '[' :: rest =>
          let named :=
            match rest with
            | ':' :: rest => readNamedClass rest
            | _ => none
          match named with
          | some (set, rest) => readClass f fuel levels negated left (items.add ⟨set, 0⟩) rest
          | none =>
              if levels = 0 then none
              else
                let (innerNegated, first, rest) := readClassOpening rest
                match readClass f fuel (levels - 1) innerNegated none first rest with
                | some (inner, rest) => readClass f fuel levels negated left (items.add inner) rest
                | none => none
      | cs =>
          match classOp? cs with
          | some (op, rest) =>
              readClass f fuel levels negated (some (joinClass f left items, op)) {} rest
          | none =>
              match readClassRange cs with
              | some (set, rest) => readClass f fuel levels negated left (items.add ⟨set, 0⟩) rest
              | none => none

end CallAudit.Pattern

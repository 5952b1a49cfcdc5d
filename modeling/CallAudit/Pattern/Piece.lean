import CallAudit.Pattern.Size

/-!
# Pieces of a pattern's notation

While a notation is read, each piece of it is kept with the depth to which its parts nest and the room
that its automaton takes. Both have a limit. Depth is counted as the notation is written: brackets,
groups and repetitions add to it, and so do sequences and alternatives with more than one member.
-/

namespace CallAudit

namespace Pattern

/-- Whether the empty text may match, somewhere in some text. -/
def mayBeEmpty : Pattern → Bool
  | empty => true
  | char _ => false
  | assert _ => true
  | seq p q => p.mayBeEmpty && q.mayBeEmpty
  | alt p q => p.mayBeEmpty || q.mayBeEmpty
  | repeated p least _ => least == 0 || p.mayBeEmpty

/-- Whether no character can be part of a match. -/
def isAlwaysEmpty : Pattern → Bool
  | empty => true
  | char _ => false
  | assert _ => true
  | seq p q => p.isAlwaysEmpty && q.isAlwaysEmpty
  | alt p q => p.isAlwaysEmpty && q.isAlwaysEmpty
  | repeated p _ most => most == some 0 || p.isAlwaysEmpty

/-- The set of characters, if the pattern is nothing but one character. -/
def charSet? : Pattern → Option CharSet
  | char set => some set
  | _ => none

end Pattern

/-- What a piece of notation stands for, how deep it nests and how much room it takes. -/
structure Piece where
  pattern : Pattern := .empty
  depth : Nat := 0
  size : Nat := Pattern.stateSize
deriving DecidableEq, Repr, Inhabited

namespace Piece

open Pattern (stateSize)

/-- The deepest nesting of pieces. -/
def maxDepth : Nat := 250

/-- The room that a pattern may take, with the states that begin and end a search. -/
def maxSize : Nat := 10 * Nat.pow 2 20 - 168

/-- One character of a set, whose notation nests to the given depth. -/
def char (set : CharSet) (depth : Nat) : Piece :=
  { pattern := .char set, depth, size := set.size }

def assert (a : Assertion) : Piece :=
  { pattern := .assert a }

/-- A state that branches, with room for both ways on. -/
def branchSize : Nat := stateSize + 8

/-- The bounds of a repetition that make a difference: what is always empty counts once at most. -/
def bounds (p : Pattern) (least : Nat) (most : Option Nat) : Nat × Option Nat :=
  if p.isAlwaysEmpty then (min least 1, some (min (most.getD 1) 1)) else (least, most)

/-- The room of a repetition of `p`. -/
def repeatedSize (p : Piece) : (least : Nat) → (most : Option Nat) → Nat
  | 0, none => p.size + branchSize + if p.pattern.mayBeEmpty then branchSize + stateSize else 0
  | least, none => least * p.size + branchSize
  | 0, some 0 => stateSize
  | 0, some 1 => p.size + branchSize + stateSize
  | least, some most =>
      if most ≤ least then least * p.size
      else max stateSize (least * p.size) + stateSize + (most - least) * (p.size + branchSize)

/-- A repetition of a piece, unless it nests too deep. -/
def repeated (p : Piece) (least : Nat) (most : Option Nat) : Option Piece :=
  if maxDepth ≤ p.depth then none
  else
    let (least, most) := bounds p.pattern least most
    some {
      pattern := .repeated p.pattern least most
      depth := p.depth + 1
      size := repeatedSize p least most }

/-- A group, unless it nests too deep. One that captures has a state at either end. -/
def group (captures : Bool) (p : Piece) : Option Piece :=
  if maxDepth ≤ p.depth then none
  else some { p with depth := p.depth + 1, size := p.size + if captures then 2 * stateSize else 0 }

/-- How deep a list of pieces nests, where a lone one stands for itself. -/
def listDepth (pieces : List Piece) : Nat :=
  let deepest := (pieces.map (·.depth)).foldl max 0
  if pieces.length ≤ 1 then deepest else deepest + 1

/-- Joins patterns, the last of which comes first in the list, from the right. -/
def join (op : Pattern → Pattern → Pattern) : List Piece → Pattern
  | [] => .empty
  | last :: before => before.foldl (fun p piece => op piece.pattern p) last.pattern

/-- Pieces in sequence, the last one first. -/
def sequence (pieces : List Piece) : Piece :=
  let taken := pieces.filter (·.pattern != .empty)
  { pattern := join .seq taken
    depth := listDepth pieces
    size := if taken.isEmpty then stateSize else (taken.map (·.size)).foldl (· + ·) 0 }

/-- Alternatives, the last one first. Those of one character each make one set. -/
def alternatives (pieces : List Piece) : Piece :=
  match pieces with
  | [p] => p
  | _ =>
      match pieces.mapM (·.pattern.charSet?) with
      | some (last :: before) => char (before.foldl (fun s set => .union set s) last) (listDepth pieces)
      | _ =>
          { pattern := join .alt pieces
            depth := listDepth pieces
            size := 2 * stateSize + 4 * pieces.length +
              (pieces.map (·.size)).foldl (· + ·) 0 }

/-- The pattern of a whole notation, within the limits. -/
def toPattern? (p : Piece) : Option Pattern :=
  if p.depth ≤ maxDepth ∧ p.size ≤ maxSize then some p.pattern else none

end Piece

end CallAudit

import CallAudit.Pattern.CaseFolding

/-!
# Patterns

A pattern describes texts: sets of characters in sequence, in alternation and repeated, with
assertions about the place between two characters. Groups leave no trace, since nothing is asked of a
pattern but whether it occurs in a text.
-/

namespace CallAudit

/-- A set of characters. -/
inductive CharSet where
  | none
  | all
  /-- From one character to another, both included. -/
  | range (low high : Char)
  | blank
  | digit
  | wordPart
  | union (a b : CharSet)
  | inter (a b : CharSet)
  | complement (a : CharSet)
  /-- With a character, all that differ from it in case only. -/
  | anyCase (a : CharSet)
deriving DecidableEq, Repr, Inhabited

namespace CharSet

/-- The set of one character. -/
def single (c : Char) : CharSet := range c c

/-- The characters of `a` that are not in `b`. -/
def diff (a b : CharSet) : CharSet := inter a (complement b)

/-- The characters of exactly one of two sets. -/
def symmDiff (a b : CharSet) : CharSet := union (diff a b) (diff b a)

def contains : CharSet → Char → Bool
  | none, _ => false
  | all, _ => true
  | range low high, c => low ≤ c && c ≤ high
  | blank, c => Pattern.isBlank c
  | digit, c => Pattern.isDigit c
  | wordPart, c => Pattern.isWordPart c
  | union a b, c => a.contains c || b.contains c
  | inter a b, c => a.contains c && b.contains c
  | complement a, c => !a.contains c
  | anyCase a, c =>
      a.contains c || (Pattern.caseVariants c.toNat).any fun code => a.contains (Char.ofNat code)

end CharSet

/-- Something that holds of a place between characters, or does not. -/
inductive Assertion where
  | textStart
  | textEnd
  | lineStart
  | lineEnd
  | wordBoundary
  | noWordBoundary
  | wordStart
  | wordEnd
deriving DecidableEq, Repr, Inhabited

namespace Assertion

/-- Whether an assertion holds between two characters, either of which may be missing. -/
def holds (before after : Option Char) : Assertion → Bool
  | textStart => before.isNone
  | textEnd => after.isNone
  | lineStart => before.all (· == '\n')
  | lineEnd => after.all (· == '\n')
  | wordBoundary => before.any Pattern.isWordPart != after.any Pattern.isWordPart
  | noWordBoundary => before.any Pattern.isWordPart == after.any Pattern.isWordPart
  | wordStart => !before.any Pattern.isWordPart && after.any Pattern.isWordPart
  | wordEnd => before.any Pattern.isWordPart && !after.any Pattern.isWordPart

end Assertion

/-- A pattern over texts. -/
inductive Pattern where
  | empty
  | char (set : CharSet)
  | assert (a : Assertion)
  | seq (p q : Pattern)
  | alt (p q : Pattern)
  /-- At least `least` times, and at most `most` times if that is given. -/
  | repeated (p : Pattern) (least : Nat) (most : Option Nat)
deriving DecidableEq, Repr, Inhabited

end CallAudit

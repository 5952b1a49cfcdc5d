import CallAudit.Pattern.Syntax

/-!
# Finding patterns in texts

Matching works on all places of a text at once. A list of marks has one mark for each place, from
before the first character to after the last; `advance` takes the places where a match may begin to
those where it may end. A pattern occurs in a text if it can end anywhere after beginning anywhere.
-/

namespace CallAudit.Pattern

/-- One mark for each place of a text. -/
abbrev Marks := List Bool

/-- The places where an assertion holds. -/
def placesOf (a : Assertion) (text : List Char) : Marks :=
  List.zipWith (a.holds · ·) (Option.none :: text.map some) (text.map some ++ [Option.none])

/-- The marked places moved past a character of the set. -/
def shift (set : CharSet) (text : List Char) (marks : Marks) : Marks :=
  false :: List.zipWith (fun mark c => mark && set.contains c) marks text

/-- Applies `f` a number of times. A value that `f` keeps is the result of all further times. -/
def applyTimes [BEq α] (f : α → α) : Nat → α → α
  | 0, x => x
  | n + 1, x =>
      let y := f x
      if y == x then x else applyTimes f n y

/-- The places of either of two lists of marks. -/
def either (a b : Marks) : Marks :=
  List.zipWith (· || ·) a b

/-- The places that up to a number of rounds of `f` reach, one at least. A round starts from the
places that the one before it was first to reach; when there are none, no further round can reach
another. `seen` has the places that rounds have started from, and `reached` those that they led to.
-/
def reach (f : Marks → Marks) : (rounds : Nat) → (frontier seen reached : Marks) → Marks
  | 0, _, _, reached => reached
  | rounds + 1, frontier, seen, reached =>
      if frontier.contains true then
        let next := f frontier
        let new := List.zipWith (fun here before => here && !before) next seen
        reach f rounds new (either seen new) (either reached next)
      else reached

/-- The places that any number of characters of a set reach, in one pass over the text. `reached`
tells whether the place at hand is reached from before, and `done` has the places before it, the
last one first. -/
def spread (set : CharSet) : (reached : Bool) → List Char → Marks → (done : Marks) → Marks
  | reached, c :: text, mark :: marks, done =>
      spread set ((reached || mark) && set.contains c) text marks ((reached || mark) :: done)
  | reached, [], mark :: _, done => ((reached || mark) :: done).reverse
  | _, _, [], done => done.reverse

/-- Where a match that begins at a marked place may end. Every round of a repetition without an
upper bound but the first starts from a new place, so that there are no more of them than places. -/
def advance (text : List Char) : Pattern → Marks → Marks
  | empty, marks => marks
  | char set, marks => shift set text marks
  | assert a, marks => List.zipWith (· && ·) marks (placesOf a text)
  | seq p q, marks => advance text q (advance text p marks)
  | alt p q, marks => either (advance text p marks) (advance text q marks)
  | repeated p least most, marks =>
      let onwards (rounds : Nat) (begun : Marks) :=
        reach (advance text p) rounds begun begun (begun.map fun _ => false)
      match p, least, most with
      | char set, _, none => spread set false text (applyTimes (shift set text) least marks) []
      | _, 0, none => either marks (onwards (text.length + 2) marks)
      | _, before + 1, none =>
          onwards (text.length + 2) (applyTimes (advance text p) before marks)
      | _, _, some most =>
          let begun := applyTimes (advance text p) least marks
          either begun (onwards (most - least) begun)

/-- Whether a pattern occurs in a text. -/
def occursIn (p : Pattern) (s : String) : Bool :=
  let text := s.toList
  (advance text p (List.replicate (text.length + 1) true)).contains true

end CallAudit.Pattern

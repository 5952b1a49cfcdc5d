import CallAudit.Pattern.Syntax

/-!
# Room that sets of characters take

Patterns are held to the room of the automaton that would read a text byte by byte, in UTF-8, from its
end to its beginning. A set of characters is first brought into ranges, and a range into sequences of
byte ranges; the automaton has a state for every beginning of such a sequence.
-/

namespace CallAudit

namespace Pattern.Ranges

/-- Joins the ranges that overlap or touch, where the list ascends by first ends and begins with the
given range. -/
def joined (low high : Nat) : Ranges → Ranges
  | [] => [(low, high)]
  | (l, h) :: rest =>
      if l ≤ high + 1 then joined low (max high h) rest else (low, high) :: joined l h rest

/-- The union of two ascending tables. -/
def union (a b : Ranges) : Ranges :=
  match List.merge a b fun x y => x.1 ≤ y.1 with
  | [] => []
  | (low, high) :: rest => joined low high rest

/-- The code points from `first` on that an ascending table leaves out. -/
def gaps (first : Nat) : Ranges → Ranges
  | [] => if first ≤ 0x10FFFF then [(first, 0x10FFFF)] else []
  | (low, high) :: rest =>
      if first < low then (first, low - 1) :: gaps (high + 1) rest else gaps (high + 1) rest

/-- An ascending table of single code points. -/
def ofCodes (codes : List Nat) : Ranges :=
  (codes.mergeSort (· ≤ ·)).map fun code => (code, code)

end Pattern.Ranges

namespace CharSet

open Pattern (Ranges)

/-- The code points that do not fold to themselves, each with what it folds to. -/
def foldPairs : List (Nat × Nat) :=
  Pattern.foldRows.flatMap fun r =>
    (List.range ((r.last - r.first) / r.step + 1)).map fun i =>
      (r.first + i * r.step, r.target + i * r.step)

/-- A table with all code points that differ from one of its own in case only: first what its own
fold to, then what folds to one of these. -/
def widened (own : Ranges) : Ranges :=
  let folded := own.union (.ofCodes ((foldPairs.filter (own.has ·.1)).map (·.2)))
  folded.union (.ofCodes ((foldPairs.filter (folded.has ·.2)).map (·.1)))

/-- The code points of a set, as an ascending table without needless breaks. -/
def ranges : CharSet → Ranges
  | none => []
  | all => [(0, 0x10FFFF)]
  | range low high => if low ≤ high then [(low.toNat, high.toNat)] else []
  | blank => Pattern.blankRanges
  | digit => Pattern.digitRanges
  | wordPart => Pattern.wordRanges
  | union a b => a.ranges.union b.ranges
  | inter a b => ((a.ranges.gaps 0).union (b.ranges.gaps 0)).gaps 0
  | complement a => a.ranges.gaps 0
  | anyCase a => widened a.ranges

end CharSet

namespace Pattern

/-! ## Byte sequences -/

/-- A range for each byte of a character. -/
abbrev ByteSequence := List (Nat × Nat)

/-- Characters of one width in UTF-8: the first and the last, what the first byte adds to its bits,
and the number of bytes of six bits that follow it. -/
structure Width where
  first : Nat
  last : Nat
  lead : Nat
  more : Nat
deriving DecidableEq, Repr

/-- The widths of all characters. There is a gap within the third, which is no character. -/
def widths : List Width := [
  ⟨0, 0x7F, 0, 0⟩, ⟨0x80, 0x7FF, 0xC0, 1⟩, ⟨0x800, 0xD7FF, 0xE0, 2⟩, ⟨0xE000, 0xFFFF, 0xE0, 2⟩,
  ⟨0x10000, 0x10FFFF, 0xF0, 3⟩]

/-- The byte sequences of the code points from `low` to `high`, all of one width. Where the first
bytes differ, the ends are split off unless they take in all that their first byte begins. -/
def sequences (lead : Nat) : (more : Nat) → (low high : Nat) → List ByteSequence
  | 0, low, high => [[(lead + low, lead + high)]]
  | more + 1, low, high =>
      let unit := Nat.pow 64 (more + 1)
      let under (first low high : Nat) :=
        (sequences 0x80 more low high).map ((lead + first, lead + first) :: ·)
      if low / unit = high / unit then under (low / unit) (low % unit) (high % unit)
      else
        let start := (low + unit - 1) / unit
        let stop := (high + 1) / unit
        (if low % unit = 0 then [] else under (low / unit) (low % unit) (unit - 1)) ++
        (if start < stop then
          [(lead + start, lead + stop - 1) :: List.replicate (more + 1) (0x80, 0xBF)] else []) ++
        (if (high + 1) % unit = 0 then [] else under (high / unit) 0 (high % unit))

/-- The byte sequences of a range of code points. -/
def byteSequences (r : Nat × Nat) : List ByteSequence :=
  widths.flatMap fun w =>
    let low := max r.1 w.first
    let high := min r.2 w.last
    if low ≤ high then sequences w.lead w.more low high else []

/-- How many members two lists begin with in common. -/
def sharedLength [DecidableEq α] : List α → List α → Nat
  | a :: as, b :: bs => if a = b then sharedLength as bs + 1 else 0
  | _, _ => 0

/-- How many beginnings the sequences have among them. Those that share one are neighbours. -/
def beginnings (all : List ByteSequence) : Nat :=
  (all.foldl (fun (count, last) s => (count + (s.length - sharedLength last s), s)) (0, [])).1

/-! ## Sizes -/

/-- The bytes that a state takes. -/
def stateSize : Nat := 32

/-- How many bytes a code point takes in UTF-8. -/
def encodedLength (code : Nat) : Nat :=
  ((widths.find? (code ≤ ·.last)).elim 3 (·.more)) + 1

end Pattern

/-- The room of a set: a state for each byte of a lone character, a state with a list of byte ranges
for ASCII, and otherwise states for all beginnings between a state that branches and one that joins.
-/
def CharSet.size (s : CharSet) : Nat :=
  let ranges := s.ranges
  let lone :=
    match ranges with
    | [(low, high)] => low == high
    | _ => false
  if ranges.isEmpty then Pattern.stateSize
  else if lone then
    Pattern.stateSize * (ranges.map (Pattern.encodedLength ·.1)).foldl (· + ·) 0
  else if ranges.all (·.2 < 0x80) then 2 * Pattern.stateSize + 8 * ranges.length
  else
    let all := ranges.flatMap Pattern.byteSequences
    Pattern.stateSize * (Pattern.beginnings all + 2) + 4 * all.length

end CallAudit

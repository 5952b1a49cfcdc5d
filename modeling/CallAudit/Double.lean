/-!
# The range of doubles

Nothing is computed with doubles, but readers refuse a written number that is too large for one. Which
numbers these are can be told from whole numbers alone.
-/

namespace CallAudit.Double

/-- The least whole number that rounds to infinity. -/
def overflow : Nat := Nat.pow 2 1024 - Nat.pow 2 970

/-- The double nearest to a whole number, to the even one of two as near. Doubles have 53 bits and are
taken to be as large as need be. -/
def nearest (n : Nat) : Nat :=
  if n < Nat.pow 2 53 then n
  else
    let unit := Nat.pow 2 (n.log2 - 52)
    let below := n / unit
    let up := unit < 2 * (n % unit) ∨ (unit = 2 * (n % unit) ∧ below % 2 = 1)
    (if up then below + 1 else below) * unit

theorem nearest_of_lt {n : Nat} (h : n < Nat.pow 2 53) : nearest n = n := by
  simp only [nearest, if_pos h]

end CallAudit.Double

/-!
# Cutting texts at separators

Qualified names are read by cutting them at the first or the last separator. The cuts are defined
on lists of characters, where recursion is structural, and lifted to texts. A cut loses nothing:
the two parts around a separator give the whole text back (`splitLast?_eq_some`).
-/

namespace CallAudit

namespace Cut

/-! ## Cuts of character lists -/

/-- The characters before the first `c`, or all of them when there is none. -/
def beforeFirst (c : Char) (cs : List Char) : List Char :=
  cs.takeWhile (· != c)

/-- The parts before and after the last `c`, if there is one. -/
def splitLast? (c : Char) : List Char → Option (List Char × List Char)
  | [] => none
  | d :: cs =>
      match splitLast? c cs with
      | some (before, after) => some (d :: before, after)
      | none => if d = c then some ([], cs) else none

/-- The characters after the last `c`, or all of them when there is none. -/
def afterLast (c : Char) (cs : List Char) : List Char :=
  match splitLast? c cs with
  | some (_, after) => after
  | none => cs

/-- What is left of `cs` once `lead` is taken off its front. -/
def stripLead? : (lead cs : List Char) → Option (List Char)
  | [], cs => some cs
  | _ :: _, [] => none
  | a :: lead, c :: cs => if a = c then stripLead? lead cs else none

/-- The parts before and after the first place where `sep` stands. -/
def splitFirst? (sep : List Char) : List Char → Option (List Char × List Char)
  | [] => (stripLead? sep []).map fun after => ([], after)
  | c :: cs =>
      match stripLead? sep (c :: cs) with
      | some after => some ([], after)
      | none => (splitFirst? sep cs).map fun (before, after) => (c :: before, after)

/-- Whether `needle` stands somewhere in `cs`. -/
def occursIn (needle : List Char) (cs : List Char) : Bool :=
  (splitFirst? needle cs).isSome

/-! ## Laws -/

theorem splitLast?_eq_some {c : Char} {cs before after : List Char}
    (h : splitLast? c cs = some (before, after)) : cs = before ++ c :: after := by
  induction cs generalizing before after with
  | nil => simp [splitLast?] at h
  | cons d cs ih =>
    rw [splitLast?] at h
    split at h
    · next b a hsplit =>
      obtain ⟨rfl, rfl⟩ := Prod.mk.inj (Option.some.inj h)
      rw [List.cons_append, ← ih hsplit]
    · split at h
      · next hd =>
        obtain ⟨rfl, rfl⟩ := Prod.mk.inj (Option.some.inj h)
        rw [hd, List.nil_append]
      · exact absurd h (by simp)

theorem splitLast?_eq_none {c : Char} {cs : List Char} (h : splitLast? c cs = none) : c ∉ cs := by
  induction cs with
  | nil => simp
  | cons d cs ih =>
    rw [splitLast?] at h
    split at h
    · exact absurd h (by simp)
    · next hsplit =>
      split at h
      · exact absurd h (by simp)
      · next hd => simpa [Ne.symm hd] using ih hsplit

theorem stripLead?_eq_some {lead cs after : List Char} (h : stripLead? lead cs = some after) :
    cs = lead ++ after := by
  fun_induction stripLead? lead cs with
  | case1 cs => simpa using h
  | case2 => exact absurd h (by simp)
  | case3 lead c cs ih => rw [List.cons_append, ← ih h]
  | case4 => exact absurd h (by simp)

@[simp] theorem stripLead?_append (lead after : List Char) :
    stripLead? lead (lead ++ after) = some after := by
  induction lead with
  | nil => simp [stripLead?]
  | cons a lead ih => simp [stripLead?, ih]

end Cut

/-! ## Cuts of texts -/

namespace Text

/-- The part of a text before the last `c`, if there is one. -/
def beforeLast? (c : Char) (s : String) : Option String :=
  (Cut.splitLast? c s.toList).map fun (before, _) => String.ofList before

/-- The part of a text before the first `c`, or the whole text. -/
def beforeFirst (c : Char) (s : String) : String :=
  String.ofList (Cut.beforeFirst c s.toList)

/-- The part of a text after the last `c`, or the whole text. -/
def afterLast (c : Char) (s : String) : String :=
  String.ofList (Cut.afterLast c s.toList)

/-- The parts of a text around the first place where `sep` stands. -/
def splitFirst? (sep s : String) : Option (String × String) :=
  (Cut.splitFirst? sep.toList s.toList).map fun (before, after) =>
    (String.ofList before, String.ofList after)

/-- Whether the text `needle` stands somewhere in `s`. -/
def occursIn (needle s : String) : Bool :=
  Cut.occursIn needle.toList s.toList

end Text

end CallAudit

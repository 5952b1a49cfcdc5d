import CallAudit.Text.Cut
import Mathlib.Data.List.Infix
import Mathlib.Data.List.TakeWhile

/-!
# Where texts are cut

A text that is put together around a separator is cut into the same parts again, as long as the
separator stands nowhere before (`Cut.splitFirst?_append`, `Cut.beforeFirst_of_not_mem`), or nowhere
after (`Cut.splitLast?_append`).
-/

namespace CallAudit

namespace Cut

variable {c : Char} {cs before after lead needle sep : List Char}

/-! ## Texts in texts -/

theorem stripLead?_isSome_iff : (stripLead? lead cs).isSome = true ↔ lead <+: cs := by
  rw [Option.isSome_iff_exists]
  constructor
  · rintro ⟨after, hafter⟩
    exact ⟨after, (stripLead?_eq_some hafter).symm⟩
  · rintro ⟨after, rfl⟩
    exact ⟨after, stripLead?_append lead after⟩

theorem occursIn_iff : occursIn needle cs = true ↔ needle <:+: cs := by
  unfold occursIn
  induction cs with
  | nil =>
    rw [splitFirst?, Option.isSome_map, stripLead?_isSome_iff, List.prefix_nil, List.infix_nil]
  | cons c cs ih =>
    rw [splitFirst?, List.infix_cons_iff, ← stripLead?_isSome_iff]
    cases stripLead? needle (c :: cs) with
    | some after => simp
    | none => simpa using ih

/-! ## First places -/

/-- A text is cut at the separator that was put into it, if that is over nowhere earlier. -/
theorem splitFirst?_append (hsep : sep ≠ []) (h : ¬sep <:+: before ++ sep.dropLast)
    (after : List Char) : splitFirst? sep (before ++ sep ++ after) = some (before, after) := by
  induction before with
  | nil =>
    obtain ⟨c, cs, rfl⟩ := List.exists_cons_of_ne_nil hsep
    rw [List.nil_append, List.cons_append, splitFirst?, ← List.cons_append, stripLead?_append]
  | cons c before ih =>
    have hstrip : stripLead? sep (c :: (before ++ sep ++ after)) = none := by
      rw [← Option.not_isSome_iff_eq_none, stripLead?_isSome_iff]
      intro hhere
      -- the separator would be over before its last character is reached
      have hstart : c :: before ++ sep.dropLast <+: c :: (before ++ sep ++ after) := by
        rw [List.cons_append, List.prefix_cons_inj, List.append_assoc, List.prefix_append_right_inj]
        exact (List.dropLast_prefix sep).trans (List.prefix_append sep after)
      have hlength : sep.length ≤ (c :: before ++ sep.dropLast).length := by
        rw [List.length_append, List.length_cons, List.length_dropLast]
        omega
      exact h (List.prefix_of_prefix_length_le hhere hstart hlength).isInfix
    rw [List.cons_append, List.cons_append, splitFirst?, hstrip,
      ih fun hoccurs => h (hoccurs.trans (List.suffix_cons c _).isInfix)]
    rfl

/-- A doubled character is over nowhere before its second half, if it stands nowhere before and the
character is not the last one before. -/
theorem not_infix_concat_of_doubled (h : ¬[c, c] <:+: cs) (hlast : ¬[c] <:+ cs) :
    ¬[c, c] <:+: cs ++ [c] := by
  rw [List.infix_concat_iff, not_or]
  refine ⟨fun hsuffix => hlast ?_, h⟩
  have hinit : [c] ++ [c] <:+ cs ++ [c] := hsuffix
  rwa [List.suffix_append_inj_of_length_eq rfl, and_iff_left rfl] at hinit

theorem beforeFirst_append (before after : List Char) :
    beforeFirst c (before ++ c :: after) = beforeFirst c before := by
  unfold beforeFirst
  induction before with
  | nil => simp
  | cons d before ih =>
    rw [List.cons_append, List.takeWhile_cons, List.takeWhile_cons, ih]

theorem beforeFirst_of_not_mem (h : c ∉ cs) : beforeFirst c cs = cs := by
  unfold beforeFirst
  rw [List.takeWhile_eq_self_iff]
  intro d hd
  rw [bne_iff_ne]
  exact fun hsame => h (hsame ▸ hd)

/-! ## Last places -/

theorem not_mem_of_splitLast? (h : splitLast? c cs = some (before, after)) : c ∉ after := by
  induction cs generalizing before after with
  | nil => cases h
  | cons d cs ih =>
    rw [splitLast?] at h
    split at h
    · next b a hsplit =>
      obtain ⟨-, rfl⟩ := Prod.mk.inj (Option.some.inj h)
      exact ih hsplit
    · next hsplit =>
      split at h
      · obtain ⟨-, rfl⟩ := Prod.mk.inj (Option.some.inj h)
        exact splitLast?_eq_none hsplit
      · cases h

/-- A place where a character stands is the last one or comes before it. -/
theorem before_of_splitLast? (h : splitLast? c cs = some (before, after))
    {before' after' : List Char} (hcut : cs = before' ++ c :: after') :
    before' = before ∨ ∃ rest, before = before' ++ c :: rest := by
  have hlast := not_mem_of_splitLast? h
  have hboth : before' ++ c :: after' = before ++ c :: after :=
    hcut.symm.trans (splitLast?_eq_some h)
  rcases List.append_eq_append_iff.mp hboth with ⟨mid, hbefore, hafter⟩ | ⟨mid, hbefore, hafter⟩
  · cases mid with
    | nil => exact Or.inl (by rw [hbefore, List.append_nil])
    | cons d mid =>
      obtain ⟨rfl, -⟩ := List.cons_eq_cons.mp hafter
      exact Or.inr ⟨mid, hbefore⟩
  · cases mid with
    | nil => exact Or.inl (by rw [hbefore, List.append_nil])
    | cons d mid =>
      obtain ⟨-, htail⟩ := List.cons_eq_cons.mp hafter
      refine absurd ?_ hlast
      rw [htail]
      exact List.mem_append_right _ List.mem_cons_self

theorem splitLast?_of_not_mem (h : c ∉ cs) : splitLast? c cs = none := by
  cases hsplit : splitLast? c cs with
  | none => rfl
  | some parts =>
    refine absurd ?_ h
    rw [splitLast?_eq_some hsplit]
    exact List.mem_append_right _ List.mem_cons_self

theorem splitLast?_append (h : c ∉ after) (before : List Char) :
    splitLast? c (before ++ c :: after) = some (before, after) := by
  induction before with
  | nil => rw [List.nil_append, splitLast?, splitLast?_of_not_mem h, if_pos rfl]
  | cons d before ih => rw [List.cons_append, splitLast?, ih]

/-- What stands after the last place is what was put there. -/
theorem afterLast_append (h : c ∉ after) (before : List Char) :
    afterLast c (before ++ c :: after) = after := by
  rw [afterLast, splitLast?_append h]

theorem afterLast_of_not_mem (h : c ∉ cs) : afterLast c cs = cs := by
  rw [afterLast, splitLast?_of_not_mem h]

end Cut

/-- Whether a text occurs in another one. -/
theorem Text.occursIn_iff {needle s : String} :
    occursIn needle s = true ↔ needle.toList <:+: s.toList :=
  Cut.occursIn_iff

end CallAudit

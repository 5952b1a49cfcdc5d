import CallAudit.Json.Text

/-!
# String literals read back

Every character of a quoted text is read back as one piece, which spells that character; no piece is
half of a surrogate pair.  So reading a quoted text gives the text back (`readQuoted_quote`).
-/

namespace CallAudit.Json

/-- The piece a character is read back as. A control character without a short escape comes back as a
unit. -/
def pieceOf (c : Char) : Piece :=
  if c.toNat < 32 ∧ c ∉ ['\n', '\r', '\t', Char.ofNat 8, Char.ofNat 12] then .unit c.toNat
  else .char c

theorem hexUnit?_control {n : Nat} (hn : n < 32) :
    hexUnit? '0' '0' (hexDigit (n / 16)) (hexDigit (n % 16)) = some n := by
  have hhigh : hexValue? (hexDigit (n / 16)) = some (n / 16) := hexValue?_hexDigit (by omega)
  have hlow : hexValue? (hexDigit (n % 16)) = some (n % 16) := hexValue?_hexDigit (by omega)
  have hzero : hexValue? '0' = some 0 := by decide
  simp only [hexUnit?, hhigh, hlow, hzero, Option.some.injEq]
  omega

section

variable {rest tail : List Char} {pieces : List Piece}

theorem readPieces_shortEscape {e c : Char} (he : e ≠ 'u') (hc : shortEscape? e = some c)
    (h : readPieces rest = some (pieces, tail)) :
    readPieces ('\\' :: e :: rest) = some (.char c :: pieces, tail) := by
  rw [readPieces]
  · rw [hc, h]
  · rintro a b c' d rest' rfl
    exact absurd rfl he

theorem readPieces_control {n : Nat} (hn : n < 32) (h : readPieces rest = some (pieces, tail)) :
    readPieces ('\\' :: 'u' :: '0' :: '0' :: hexDigit (n / 16) :: hexDigit (n % 16) :: rest) =
      some (.unit n :: pieces, tail) := by
  rw [readPieces, hexUnit?_control hn, h]

theorem readPieces_plain {c : Char} (hquote : c ≠ '"') (hbackslash : c ≠ '\\') (hc : 32 ≤ c.toNat)
    (h : readPieces rest = some (pieces, tail)) :
    readPieces (c :: rest) = some (.char c :: pieces, tail) := by
  rw [readPieces]
  · rw [if_neg (by simp [hbackslash, hc]), h, Option.map_some]
  · exact hquote
  · intros
    exact hbackslash ‹_›
  · intros
    exact hbackslash ‹_›

theorem readPieces_escapeChar {c : Char} (h : readPieces rest = some (pieces, tail)) :
    readPieces (escapeChar c ++ rest) = some (pieceOf c :: pieces, tail) := by
  by_cases hshort : c ∈ ['"', '\\', '\n', '\r', '\t', Char.ofNat 8, Char.ofNat 12]
  · simp only [List.mem_cons, List.not_mem_nil, or_false] at hshort
    rcases hshort with rfl | rfl | rfl | rfl | rfl | rfl | rfl
    all_goals exact readPieces_shortEscape (by decide) rfl h
  · simp only [List.mem_cons, List.not_mem_nil, or_false, not_or] at hshort
    obtain ⟨hquote, hbackslash, hn, hr, ht, hb, hf⟩ := hshort
    rw [escapeChar, if_neg hquote, if_neg hbackslash, if_neg hn, if_neg hr, if_neg ht, if_neg hb,
      if_neg hf]
    by_cases hcontrol : c.toNat < 32
    · have hpiece : pieceOf c = .unit c.toNat := by simp [pieceOf, hcontrol, hn, hr, ht, hb, hf]
      rw [if_pos hcontrol, hpiece]
      exact readPieces_control hcontrol h
    · have hpiece : pieceOf c = .char c := if_neg fun hand => hcontrol hand.1
      rw [if_neg hcontrol, hpiece]
      exact readPieces_plain hquote hbackslash (Nat.le_of_not_lt hcontrol) h

theorem readPieces_escape (cs : List Char) :
    readPieces (escape cs ++ '"' :: rest) = some (cs.map pieceOf, rest) := by
  induction cs with
  | nil => rfl
  | cons c cs ih =>
    have hcons : escape (c :: cs) = escapeChar c ++ escape cs := by rw [escape, List.flatMap_cons]; rfl
    rw [hcons, List.append_assoc, List.map_cons]
    exact readPieces_escapeChar ih

end

/-! ## Spelling -/

theorem spell_control {n : Nat} (hn : n < 32) (pieces : List Piece) :
    spell (.unit n :: pieces) = (spell pieces).map (Char.ofNat n :: ·) := by
  have hhigh : isHighSurrogate n = false := by simp [isHighSurrogate]; omega
  have hlow : isLowSurrogate n = false := by simp [isLowSurrogate]; omega
  cases pieces with
  | nil => simp [spell, hhigh, hlow]
  | cons piece pieces => cases piece <;> simp [spell, hhigh, hlow]

theorem spell_pieceOf (c : Char) (pieces : List Piece) :
    spell (pieceOf c :: pieces) = (spell pieces).map (c :: ·) := by
  unfold pieceOf
  split
  · next hc => rw [spell_control hc.1, Char.ofNat_toNat]
  · rw [spell]

theorem spell_map_pieceOf (cs : List Char) : spell (cs.map pieceOf) = some cs := by
  induction cs with
  | nil => rfl
  | cons c cs ih => rw [List.map_cons, spell_pieceOf, ih, Option.map_some]

/-- A quoted text is read back, whatever follows it. -/
theorem readQuoted_quote (s : String) (rest : List Char) :
    readQuoted (escape s.toList ++ '"' :: rest) = some (some s, rest) := by
  rw [readQuoted, readPieces_escape, Option.map_some]
  dsimp only
  rw [spell_map_pieceOf, Option.map_some, String.ofList_toList]

end CallAudit.Json

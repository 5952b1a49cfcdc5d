import CallAudit.Pattern.Search
import Mathlib.Data.List.Basic

/-!
# How the texts of a pattern begin

A stem says how a text begins, or what the whole of it is.  Every text that a pattern occurs in is
covered by one of the pattern's stems (`Pattern.exists_stem_of_occursIn`), so where no stems of two
patterns agree there is no text that both occur in (`Stem.not_covers_of_apart`).
-/

namespace CallAudit

/-- The characters that a text begins with, and whether they are all of it. -/
structure Stem where
  word : List Char
  whole : Bool
deriving DecidableEq, Repr

namespace Stem

/-- The stem of a text of which nothing is known. -/
def unknown : Stem := ⟨[], false⟩

/-- The stem of a text that begins as `s` says and may go on. -/
def opened (s : Stem) : Stem := { s with whole := false }

/-- The stem of two texts in a row. -/
def append (s t : Stem) : Stem := if s.whole then ⟨s.word ++ t.word, t.whole⟩ else s

/-- A text is covered by a stem. -/
def Covers (s : Stem) (text : List Char) : Prop :=
  ∃ rest, text = s.word ++ rest ∧ (s.whole = true → rest = [])

/-- Whether two stems differ where both say what a text has. -/
def apartFrom : List Char → Bool → List Char → Bool → Bool
  | x :: xs, w, y :: ys, w' => x != y || apartFrom xs w ys w'
  | [], w, _ :: _, _ => w
  | _ :: _, _, [], w' => w'
  | [], _, [], _ => false

/-- Whether no text is covered by both stems. -/
def apart (s t : Stem) : Bool := apartFrom s.word s.whole t.word t.whole

variable {s t : Stem} {text text' : List Char}

theorem covers_unknown : unknown.Covers text := ⟨text, rfl, Bool.noConfusion⟩

theorem covers_self (word : List Char) : Covers ⟨word, true⟩ word :=
  ⟨[], (List.append_nil word).symm, fun _ => rfl⟩

theorem Covers.opened (h : s.Covers text) (text' : List Char) : s.opened.Covers (text ++ text') := by
  obtain ⟨rest, rfl, -⟩ := h
  exact ⟨rest ++ text', List.append_assoc .., Bool.noConfusion⟩

theorem Covers.append (h : s.Covers text) (h' : t.Covers text') :
    (s.append t).Covers (text ++ text') := by
  unfold Stem.append
  obtain ⟨rest, rfl, hrest⟩ := h
  split
  · next hwhole =>
    obtain ⟨rest', rfl, hrest'⟩ := h'
    exact ⟨rest', by rw [hrest hwhole, List.append_nil, List.append_assoc], hrest'⟩
  · next hopen =>
    exact ⟨rest ++ text', List.append_assoc .., fun hwhole => absurd hwhole hopen⟩

theorem Covers.eq_word (h : s.Covers text) (hwhole : s.whole = true) : text = s.word := by
  obtain ⟨rest, rfl, hrest⟩ := h
  rw [hrest hwhole, List.append_nil]

theorem append_ne_of_apartFrom {xs ys rest rest' : List Char} {w w' : Bool}
    (h : apartFrom xs w ys w' = true) (hrest : w = true → rest = [])
    (hrest' : w' = true → rest' = []) : xs ++ rest ≠ ys ++ rest' := by
  induction xs generalizing ys with
  | nil =>
    cases ys with
    | nil => cases h
    -- a stem that is a whole text is not gone past
    | cons y ys => simp [hrest h]
  | cons x xs ih =>
    cases ys with
    | nil => simp [hrest' h]
    | cons y ys =>
      rw [apartFrom, Bool.or_eq_true, bne_iff_ne] at h
      intro heq
      obtain ⟨hxy, htail⟩ := List.cons.inj heq
      rcases h with hne | hapart
      · exact hne hxy
      · exact ih hapart htail

theorem not_covers_of_apart (h : s.apart t = true) (hs : s.Covers text) : ¬ t.Covers text := by
  rintro ⟨rest', htext, hrest'⟩
  obtain ⟨rest, rfl, hrest⟩ := hs
  exact append_ne_of_apartFrom h hrest hrest' htext

end Stem

/-- The stem of a single character of a set. -/
def CharSet.stem : CharSet → Stem
  | range low high => if low = high then ⟨[low], true⟩ else .unknown
  | _ => .unknown

theorem CharSet.covers_stem {set : CharSet} {c : Char} (h : set.contains c = true) :
    set.stem.Covers [c] := by
  unfold stem
  split
  · next low high =>
    split
    · next hsame =>
      subst hsame
      have hc : low ≤ c ∧ c ≤ low := by simpa [contains] using h
      obtain rfl : c = low := Char.le_antisymm hc.2 hc.1
      exact Stem.covers_self [c]
    · exact Stem.covers_unknown
  · exact Stem.covers_unknown

namespace Pattern

/-! ## Stems of patterns -/

/-- The stems of what a pattern matches.  Repetitions are not looked into, but for those of one time at
most. -/
def stems : Pattern → List Stem
  | empty => [⟨[], true⟩]
  | char set => [set.stem]
  | assert _ => [⟨[], true⟩]
  | seq p q => p.stems.flatMap fun s => if s.whole then q.stems.map s.append else [s]
  | alt p q => p.stems ++ q.stems
  | repeated p 0 (some 1) => ⟨[], true⟩ :: p.stems
  | repeated _ _ _ => [.unknown]

/-- Whether a pattern can only match from the beginning of a text. -/
def beginsText : Pattern → Bool
  | assert .textStart => true
  | seq p _ => p.beginsText
  | _ => false

/-- Whether a pattern can only match to the end of a text. -/
def endsText : Pattern → Bool
  | assert .textEnd => true
  | seq _ q => q.endsText
  | _ => false

/-- The stems of the texts that a pattern occurs in. -/
def textStems (p : Pattern) : List Stem :=
  if p.beginsText then (if p.endsText then p.stems else p.stems.map Stem.opened) else [.unknown]

/-! ## Marks that move on -/

/-- Whatever place `f` marks, a place before it was marked, or the same one. -/
def Onward (f : Marks → Marks) : Prop :=
  ∀ (marks : Marks) (j : Nat), (f marks)[j]? = some true → ∃ i ≤ j, marks[i]? = some true

variable {f : Marks → Marks} {marks : Marks} {text : List Char} {set : CharSet} {i j : Nat}

theorem getElem?_either {a b : Marks} (h : (either a b)[j]? = some true) :
    a[j]? = some true ∨ b[j]? = some true := by
  obtain ⟨x, y, hx, hy, hxy⟩ := List.getElem?_zipWith_eq_some.mp h
  rcases Bool.or_eq_true_iff.mp hxy with rfl | rfl
  · exact Or.inl hx
  · exact Or.inr hy

theorem getElem?_map_false : (marks.map fun _ => false)[j]? ≠ some true := by
  rw [List.getElem?_map]
  cases marks[j]? <;> simp

theorem getElem?_shift (h : (shift set text marks)[j]? = some true) :
    ∃ i c, j = i + 1 ∧ marks[i]? = some true ∧ text[i]? = some c ∧ set.contains c = true := by
  cases j with
  | zero => cases h
  | succ i =>
    obtain ⟨mark, c, hmark, hc, hboth⟩ := List.getElem?_zipWith_eq_some.mp h
    obtain ⟨rfl, hcontains⟩ := Bool.and_eq_true_iff.mp hboth
    exact ⟨i, c, rfl, hmark, hc, hcontains⟩

theorem onward_shift : Onward (shift set text) := by
  intro marks j hj
  obtain ⟨i, c, rfl, hmark, -⟩ := getElem?_shift hj
  exact ⟨i, Nat.le_succ i, hmark⟩

theorem Onward.applyTimes (h : Onward f) (n : Nat) : Onward (applyTimes f n) := by
  induction n with
  | zero => exact fun _ j hj => ⟨j, Nat.le_refl j, hj⟩
  | succ n ih =>
    intro marks j hj
    rw [Pattern.applyTimes] at hj
    split at hj
    · exact ⟨j, Nat.le_refl j, hj⟩
    · obtain ⟨k, hk, hmark⟩ := ih _ j hj
      obtain ⟨i, hi, hmark⟩ := h marks k hmark
      exact ⟨i, Nat.le_trans hi hk, hmark⟩

/-- Rounds reach nothing but what was reached, and places onward from where they started. -/
theorem Onward.reach (h : Onward f) {rounds : Nat} {frontier seen reached : Marks}
    (hj : (reach f rounds frontier seen reached)[j]? = some true) :
    reached[j]? = some true ∨ ∃ i ≤ j, frontier[i]? = some true := by
  induction rounds generalizing frontier seen reached with
  | zero => exact Or.inl hj
  | succ rounds ih =>
    rw [Pattern.reach] at hj
    split at hj
    · rcases ih hj with hreached | ⟨k, hk, hnew⟩
      · exact (getElem?_either hreached).imp_right (h frontier j)
      · -- what is new in a round was reached in it
        obtain ⟨here, before, hhere, -, hboth⟩ := List.getElem?_zipWith_eq_some.mp hnew
        obtain ⟨rfl, -⟩ := Bool.and_eq_true_iff.mp hboth
        obtain ⟨i, hi, hmark⟩ := h frontier k hhere
        exact Or.inr ⟨i, Nat.le_trans hi hk, hmark⟩
    · exact Or.inl hj

theorem getElem?_spread {reached : Bool} {done : Marks}
    (h : (spread set reached text marks done)[j]? = some true) :
    done.reverse[j]? = some true ∨ done.length ≤ j ∧ reached = true ∨
      ∃ i, done.length + i ≤ j ∧ marks[i]? = some true := by
  have hlast : ∀ {reached mark : Bool} {done rest : Marks},
      ((reached || mark) :: done).reverse[j]? = some true →
      done.reverse[j]? = some true ∨ done.length ≤ j ∧ reached = true ∨
        ∃ i, done.length + i ≤ j ∧ (mark :: rest)[i]? = some true := by
    intro reached mark done rest hj
    rw [List.reverse_cons, List.getElem?_append] at hj
    split at hj
    · exact Or.inl hj
    next hlt =>
      have hle : done.length ≤ j := by simpa using hlt
      obtain ⟨_, hmark⟩ := List.getElem?_eq_some_iff.mp hj
      rw [List.getElem_singleton] at hmark
      rcases Bool.or_eq_true_iff.mp hmark with hreached | rfl
      · exact Or.inr (Or.inl ⟨hle, hreached⟩)
      · exact Or.inr (Or.inr ⟨0, hle, rfl⟩)
  induction text generalizing reached marks done with
  | nil =>
    cases marks with
    | nil => exact Or.inl h
    | cons mark rest => exact hlast h
  | cons c text ih =>
    cases marks with
    | nil => exact Or.inl h
    | cons mark marks =>
      rcases ih h with hj | ⟨hle, hreached⟩ | ⟨i, hi, hmark⟩
      · exact hlast hj
      · have hle' : done.length ≤ j := Nat.le_of_succ_le hle
        rcases Bool.or_eq_true_iff.mp (Bool.and_eq_true_iff.mp hreached).1 with hreached | rfl
        · exact Or.inr (Or.inl ⟨hle', hreached⟩)
        · exact Or.inr (Or.inr ⟨0, hle', rfl⟩)
      · rw [List.length_cons] at hi
        exact Or.inr (Or.inr ⟨i + 1, by omega, hmark⟩)

theorem onward_spread : Onward fun marks => spread set false text marks [] := by
  intro marks j hj
  rcases getElem?_spread hj with hdone | ⟨-, hreached⟩ | ⟨i, hi, hmark⟩
  · cases hdone
  · cases hreached
  · exact ⟨i, by simpa using hi, hmark⟩

/-- A repetition moves marks on if what is repeated does. -/
theorem Onward.repeated {p : Pattern} (h : Onward (advance text p)) (least : Nat)
    (most : Option Nat) : Onward (advance text (.repeated p least most)) := by
  have honwards : ∀ (rounds : Nat) (begun : Marks) (j : Nat),
      (Pattern.reach (advance text p) rounds begun begun (begun.map fun _ => false))[j]? = some true →
        ∃ i ≤ j, begun[i]? = some true := by
    exact fun rounds begun j hj => (h.reach hj).resolve_left getElem?_map_false
  intro marks j hj
  unfold advance at hj
  dsimp only at hj
  split at hj
  · obtain ⟨k, hk, hmark⟩ := onward_spread _ j hj
    obtain ⟨i, hi, hmark⟩ := onward_shift.applyTimes _ marks k hmark
    exact ⟨i, Nat.le_trans hi hk, hmark⟩
  · rcases getElem?_either hj with hj | hj
    · exact ⟨j, Nat.le_refl j, hj⟩
    · exact honwards _ marks j hj
  · obtain ⟨k, hk, hmark⟩ := honwards _ _ j hj
    obtain ⟨i, hi, hmark⟩ := h.applyTimes _ marks k hmark
    exact ⟨i, Nat.le_trans hi hk, hmark⟩
  · have hbegun : ∀ {k}, (Pattern.applyTimes (advance text p) least marks)[k]? = some true →
        ∃ i ≤ k, marks[i]? = some true := h.applyTimes least marks _
    rcases getElem?_either hj with hj | hj
    · exact hbegun hj
    · obtain ⟨k, hk, hmark⟩ := honwards _ _ j hj
      obtain ⟨i, hi, hmark⟩ := hbegun hmark
      exact ⟨i, Nat.le_trans hi hk, hmark⟩

/-! ## Matches -/

/-- What is known of a match of a pattern from one place of a text to another. -/
structure Span (text : List Char) (p : Pattern) (i j : Nat) : Prop where
  le : i ≤ j
  covered : ∃ mid, text.drop i = mid ++ text.drop j ∧ ∃ s ∈ p.stems, s.Covers mid
  begins : p.beginsText = true → i = 0
  ends : p.endsText = true → j = text.length

theorem exists_mid (h : i ≤ j) : ∃ mid, text.drop i = mid ++ text.drop j := by
  refine ⟨(text.drop i).take (j - i), ?_⟩
  conv_lhs => rw [← List.take_append_drop (j - i) (text.drop i)]
  rw [List.drop_drop, Nat.add_sub_cancel' h]

theorem Span.seq {p q : Pattern} {k : Nat} (hp : Span text p i k) (hq : Span text q k j) :
    Span text (.seq p q) i j where
  le := Nat.le_trans hp.le hq.le
  covered := by
    obtain ⟨mid, hmid, s, hs, hcovers⟩ := hp.covered
    obtain ⟨mid', hmid', t, ht, hcovers'⟩ := hq.covered
    refine ⟨mid ++ mid', by rw [hmid, hmid', List.append_assoc], s.append t, ?_,
      hcovers.append hcovers'⟩
    refine List.mem_flatMap.mpr ⟨s, hs, ?_⟩
    split
    · exact List.mem_map_of_mem ht
    · next hopen => rw [Stem.append, if_neg hopen]; exact List.mem_singleton.mpr rfl
  begins := hp.begins
  ends := hq.ends

theorem Span.assert {a : Assertion} (h : (placesOf a text)[i]? = some true) :
    Span text (.assert a) i i := by
  obtain ⟨before, after, hbefore, hafter, hholds⟩ := List.getElem?_zipWith_eq_some.mp h
  refine ⟨Nat.le_refl i, ⟨[], rfl, _, List.mem_singleton.mpr rfl, Stem.covers_self []⟩, ?_, ?_⟩
  · intro hbegins
    cases a <;> cases hbegins
    cases i with
    | zero => rfl
    | succ i =>
      -- a place that is not the first has a character before it
      rw [List.getElem?_cons_succ, List.getElem?_map] at hbefore
      obtain ⟨c, -, rfl⟩ := Option.map_eq_some_iff.mp hbefore
      cases hholds
  · intro hends
    cases a <;> cases hends
    rw [List.getElem?_append, List.length_map] at hafter
    split at hafter
    · rw [List.getElem?_map] at hafter
      obtain ⟨c, -, rfl⟩ := Option.map_eq_some_iff.mp hafter
      cases hholds
    · obtain ⟨hlt, -⟩ := List.getElem?_eq_some_iff.mp hafter
      rw [List.length_singleton] at hlt
      omega

theorem Span.char {c : Char} (hc : text[i]? = some c) (hcontains : set.contains c = true) :
    Span text (.char set) i (i + 1) := by
  have hdrop : text.drop i = [c] ++ text.drop (i + 1) := by
    obtain ⟨hlt, rfl⟩ := List.getElem?_eq_some_iff.mp hc
    exact List.drop_eq_getElem_cons hlt
  exact ⟨Nat.le_succ i, ⟨[c], hdrop, _, List.mem_singleton.mpr rfl, CharSet.covers_stem hcontains⟩,
    Bool.noConfusion, Bool.noConfusion⟩

theorem Span.of_stem {p q : Pattern} (h : Span text p i j) (hstems : ∀ s ∈ p.stems, s ∈ q.stems)
    (hbegins : q.beginsText = false) (hends : q.endsText = false) : Span text q i j where
  le := h.le
  covered := by
    obtain ⟨mid, hmid, s, hs, hcovers⟩ := h.covered
    exact ⟨mid, hmid, s, hstems s hs, hcovers⟩
  begins := fun hq => by rw [hbegins] at hq; cases hq
  ends := fun hq => by rw [hends] at hq; cases hq

theorem Span.empty : Span text .empty i i :=
  ⟨Nat.le_refl i, ⟨[], rfl, _, List.mem_singleton.mpr rfl, Stem.covers_self []⟩, Bool.noConfusion,
    Bool.noConfusion⟩

/-- What is repeated once at most matches once or not at all. -/
theorem getElem?_optional {p : Pattern}
    (h : (advance text (.repeated p 0 (some 1)) marks)[j]? = some true) :
    marks[j]? = some true ∨ (advance text p marks)[j]? = some true := by
  have hround : ∀ f : Marks → Marks,
      (Pattern.reach f 1 marks marks (marks.map fun _ => false))[j]? = some true →
        (f marks)[j]? = some true := by
    intro f hj
    rw [Pattern.reach] at hj
    split at hj
    · exact (getElem?_either hj).resolve_left getElem?_map_false
    · exact absurd hj getElem?_map_false
  unfold advance at h
  dsimp only at h
  split at h
  case h_4 heq =>
    cases heq
    exact (getElem?_either h).imp_right (hround _)
  all_goals contradiction

/-- A match that ends began at a marked place: by induction on the pattern. -/
theorem exists_span {p : Pattern} (h : (advance text p marks)[j]? = some true) :
    ∃ i, marks[i]? = some true ∧ Span text p i j := by
  induction p generalizing marks j with
  | empty => exact ⟨j, h, .empty⟩
  | char set =>
    obtain ⟨i, c, rfl, hmark, hc, hcontains⟩ := getElem?_shift h
    exact ⟨i, hmark, .char hc hcontains⟩
  | assert a =>
    obtain ⟨mark, place, hmark, hplace, hboth⟩ := List.getElem?_zipWith_eq_some.mp h
    obtain ⟨rfl, rfl⟩ := Bool.and_eq_true_iff.mp hboth
    exact ⟨j, hmark, .assert hplace⟩
  | seq p q ihp ihq =>
    obtain ⟨k, hk, hq⟩ := ihq h
    obtain ⟨i, hi, hp⟩ := ihp hk
    exact ⟨i, hi, hp.seq hq⟩
  | alt p q ihp ihq =>
    rcases getElem?_either h with h | h
    · obtain ⟨i, hi, hp⟩ := ihp h
      exact ⟨i, hi, hp.of_stem (fun s hs => List.mem_append_left _ hs) rfl rfl⟩
    · obtain ⟨i, hi, hq⟩ := ihq h
      exact ⟨i, hi, hq.of_stem (fun s hs => List.mem_append_right _ hs) rfl rfl⟩
  | repeated p least most ih =>
    have honward : Onward (advance text p) := by
      intro marks j hj
      obtain ⟨i, hi, hspan⟩ := ih hj
      exact ⟨i, hspan.le, hi⟩
    by_cases hoptional : least = 0 ∧ most = some 1
    · obtain ⟨rfl, rfl⟩ := hoptional
      rcases getElem?_optional h with h | h
      · exact ⟨j, h, Span.empty.of_stem (fun s hs => by
          obtain rfl := List.mem_singleton.mp hs
          exact List.mem_cons_self) rfl rfl⟩
      · obtain ⟨i, hi, hp⟩ := ih h
        exact ⟨i, hi, hp.of_stem (fun s hs => List.mem_cons_of_mem _ hs) rfl rfl⟩
    · -- of other repetitions only the direction is known
      obtain ⟨i, hle, hi⟩ := honward.repeated least most marks j h
      obtain ⟨mid, hmid⟩ : ∃ mid, text.drop i = mid ++ text.drop j := exists_mid hle
      refine ⟨i, hi, hle, ⟨mid, hmid, .unknown, ?_, Stem.covers_unknown⟩, Bool.noConfusion,
        Bool.noConfusion⟩
      unfold stems
      split
      all_goals simp_all

/-- A pattern occurs in no text but those that one of its stems covers. -/
theorem exists_stem_of_occursIn {p : Pattern} {name : String} (h : p.occursIn name = true) :
    ∃ s ∈ p.textStems, s.Covers name.toList := by
  obtain ⟨j, hj⟩ := List.getElem?_of_mem (List.contains_iff_mem.mp h)
  obtain ⟨i, -, hspan⟩ := exists_span hj
  obtain ⟨mid, hmid, s, hs, hcovers⟩ := hspan.covered
  unfold textStems
  by_cases hbegins : p.beginsText
  · rw [if_pos hbegins]
    rw [hspan.begins hbegins, List.drop_zero] at hmid
    by_cases hends : p.endsText
    · rw [hspan.ends hends, List.drop_length, List.append_nil] at hmid
      rw [if_pos hends]
      exact ⟨s, hs, hmid ▸ hcovers⟩
    · rw [if_neg hends, hmid]
      exact ⟨s.opened, List.mem_map_of_mem hs, hcovers.opened _⟩
  · rw [if_neg hbegins]
    exact ⟨.unknown, List.mem_singleton.mpr rfl, Stem.covers_unknown⟩

end Pattern

end CallAudit

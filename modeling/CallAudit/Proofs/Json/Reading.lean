import CallAudit.Json.Reader
import CallAudit.Json.Writer
import CallAudit.Proofs.Json.Text

/-!
# Values read back

`Reads v cs` says that `cs` is a form of the value `v`: the reader takes it for `v`, whatever follows
it.  The forms of a value are put together from those of its items and members, with blanks between
them (`Reads.array`, `Reads.object`), and a form with blanks around it is a document
(`Reads.readChars`).  Of the two forms that are written, the indented one is shown to read back for
arrays of texts, and the one without blanks for whatever is made of texts, flags and `null`
(`ReadsBack`).
-/

namespace CallAudit.Json

/-- Whether characters may stand between two tokens. -/
def Blank (bs : List Char) : Prop :=
  ∀ c ∈ bs, isBlank c = true

theorem blank_nil : Blank [] := by simp [Blank]

theorem blank_newline : Blank ['\n'] := by
  intro c hc
  obtain rfl := List.mem_singleton.mp hc
  rfl

theorem blank_lineBreak (level : Nat) : Blank (lineBreak level) := by
  intro c hc
  rcases List.mem_cons.mp hc with rfl | hc
  · rfl
  · obtain ⟨-, rfl⟩ := List.mem_replicate.mp hc
    rfl

theorem skipBlanks_append {bs : List Char} (hbs : Blank bs) (cs : List Char) :
    skipBlanks (bs ++ cs) = skipBlanks cs := by
  induction bs with
  | nil => rfl
  | cons b bs ih =>
    have hb : isBlank b = true := hbs b List.mem_cons_self
    have hrest : Blank bs := fun c hc => hbs c (List.mem_cons_of_mem b hc)
    rw [List.cons_append, skipBlanks, List.dropWhile_cons_of_pos hb]
    exact ih hrest

theorem skipBlanks_cons {c : Char} (hc : isBlank c = false) (cs : List Char) :
    skipBlanks (c :: cs) = c :: cs := by
  rw [skipBlanks, List.dropWhile_cons_of_neg (by simp [hc])]

/-- A text whose first character starts a value or a name. -/
def Starts (cs : List Char) : Prop :=
  ∃ c tail, cs = c :: tail ∧ isBlank c = false ∧ c ≠ ']' ∧ c ≠ '\x7d'

theorem Starts.append {cs : List Char} (h : Starts cs) (ds : List Char) : Starts (cs ++ ds) := by
  obtain ⟨c, tail, rfl, hc⟩ := h
  exact ⟨c, tail ++ ds, rfl, hc⟩

theorem Starts.skipBlanks {bs cs : List Char} (h : Starts cs) (hbs : Blank bs) :
    skipBlanks (bs ++ cs) = cs := by
  obtain ⟨c, tail, rfl, hc, -⟩ := h
  rw [skipBlanks_append hbs, skipBlanks_cons hc]

/-! ## Forms

The fuel that a form needs is twice its length: an item takes two steps from its array, a member three
from its object, and each of them has at least a bracket and a delimiter to itself. -/

/-- A form of a value. -/
structure Reads (v : Json) (cs : List Char) : Prop where
  starts : Starts cs
  reads : ∀ fuel rest, 2 * cs.length ≤ fuel → readValue fuel (cs ++ rest) = some (v, rest)

/-- A form of one item or more with the closing bracket. -/
structure ReadsItems (vs : List Json) (cs : List Char) : Prop where
  starts : Starts cs
  reads : ∀ fuel rest, 2 * cs.length + 1 ≤ fuel → readItems fuel (cs ++ rest) = some (vs, rest)

/-- A form of a name and a value. -/
structure ReadsMember (member : Spelt × Json) (cs : List Char) : Prop where
  starts : Starts cs
  reads : ∀ fuel rest, 2 * cs.length ≤ fuel → readMember fuel (cs ++ rest) = some (member, rest)

/-- A form of one member or more with the closing brace. -/
structure ReadsMembers (members : List (Spelt × Json)) (cs : List Char) : Prop where
  starts : Starts cs
  reads : ∀ fuel rest, 2 * cs.length + 1 ≤ fuel →
    readMembers fuel (cs ++ rest) = some (members, rest)

section

variable {v : Json} {vs : List Json} {member : Spelt × Json} {members : List (Spelt × Json)}
  {bs bs' cs ds : List Char}

theorem starts_quote (s : String) : Starts (quote s) :=
  ⟨'"', _, rfl, by decide, by decide, by decide⟩

theorem length_quote (s : String) : (quote s).length = (escape s.toList).length + 2 := by
  rw [quote, List.length_cons, List.length_append]
  rfl

theorem Reads.ofText (s : String) : Reads (ofText s) (quote s) where
  starts := starts_quote s
  reads := by
    intro fuel rest hfuel
    rw [length_quote] at hfuel
    obtain ⟨fuel, rfl⟩ : ∃ n, fuel = n + 1 := ⟨fuel - 1, by omega⟩
    rw [quote, List.cons_append, List.append_assoc, readValue]
    show (readQuoted (escape s.toList ++ '"' :: rest)).map _ = _
    rw [readQuoted_quote]
    rfl

theorem Reads.emptyArray (hbs : Blank bs) : Reads (.array []) ('[' :: (bs ++ [']'])) where
  starts := ⟨'[', _, rfl, by decide, by decide, by decide⟩
  reads := by
    intro fuel rest hfuel
    rw [List.length_cons] at hfuel
    obtain ⟨fuel, rfl⟩ : ∃ n, fuel = n + 1 := ⟨fuel - 1, by omega⟩
    rw [List.cons_append, List.append_assoc, readValue, skipBlanks_append hbs]
    rfl

theorem Reads.array (hbs : Blank bs) (h : ReadsItems vs cs) :
    Reads (.array vs) ('[' :: (bs ++ cs)) where
  starts := ⟨'[', _, rfl, by decide, by decide, by decide⟩
  reads := by
    intro fuel rest hfuel
    rw [List.length_cons, List.length_append] at hfuel
    obtain ⟨fuel, rfl⟩ : ∃ n, fuel = n + 1 := ⟨fuel - 1, by omega⟩
    rw [List.cons_append, List.append_assoc, readValue, (h.starts.append rest).skipBlanks hbs]
    have hitems : readItems fuel (cs ++ rest) = some (vs, rest) := h.reads fuel rest (by omega)
    obtain ⟨c, tail, rfl, -, hbracket, -⟩ := h.starts
    rw [List.cons_append] at hitems ⊢
    split
    · next heq => exact absurd (List.cons.inj heq).1 hbracket
    · rw [hitems, Option.map_some]

theorem ReadsItems.last (h : Reads v cs) (hbs : Blank bs) :
    ReadsItems [v] (cs ++ (bs ++ [']'])) where
  starts := h.starts.append _
  reads := by
    intro fuel rest hfuel
    rw [List.length_append, List.length_append, List.length_singleton] at hfuel
    obtain ⟨fuel, rfl⟩ : ∃ n, fuel = n + 1 := ⟨fuel - 1, by omega⟩
    rw [List.append_assoc, List.append_assoc, readItems, h.reads fuel _ (by omega)]
    dsimp only
    rw [skipBlanks_append hbs]
    rfl

theorem ReadsItems.cons (h : Reads v cs) (hbs : Blank bs) (hbs' : Blank bs')
    (hitems : ReadsItems vs ds) : ReadsItems (v :: vs) (cs ++ (bs ++ ',' :: (bs' ++ ds))) where
  starts := h.starts.append _
  reads := by
    intro fuel rest hfuel
    rw [List.length_append, List.length_append, List.length_cons, List.length_append] at hfuel
    obtain ⟨fuel, rfl⟩ : ∃ n, fuel = n + 1 := ⟨fuel - 1, by omega⟩
    rw [List.append_assoc, List.append_assoc, readItems, h.reads fuel _ (by omega)]
    dsimp only
    rw [skipBlanks_append hbs, List.cons_append, skipBlanks_cons (by decide), List.append_assoc]
    show (readItems fuel (skipBlanks (bs' ++ (ds ++ rest)))).map _ = _
    rw [(hitems.starts.append rest).skipBlanks hbs', hitems.reads fuel rest (by omega)]
    rfl

theorem Reads.object (hbs : Blank bs) (h : ReadsMembers members cs) :
    Reads (.object members) ('\x7b' :: (bs ++ cs)) where
  starts := ⟨'\x7b', _, rfl, by decide, by decide, by decide⟩
  reads := by
    intro fuel rest hfuel
    rw [List.length_cons, List.length_append] at hfuel
    obtain ⟨fuel, rfl⟩ : ∃ n, fuel = n + 1 := ⟨fuel - 1, by omega⟩
    rw [List.cons_append, List.append_assoc, readValue, (h.starts.append rest).skipBlanks hbs]
    have hmembers : readMembers fuel (cs ++ rest) = some (members, rest) :=
      h.reads fuel rest (by omega)
    obtain ⟨c, tail, rfl, -, -, hbrace⟩ := h.starts
    rw [List.cons_append] at hmembers ⊢
    split
    · next heq => exact absurd (List.cons.inj heq).1 hbrace
    · rw [hmembers, Option.map_some]

theorem Reads.emptyObject (hbs : Blank bs) : Reads (.object []) ('\x7b' :: (bs ++ ['\x7d'])) where
  starts := ⟨'\x7b', _, rfl, by decide, by decide, by decide⟩
  reads := by
    intro fuel rest hfuel
    rw [List.length_cons] at hfuel
    obtain ⟨fuel, rfl⟩ : ∃ n, fuel = n + 1 := ⟨fuel - 1, by omega⟩
    rw [List.cons_append, List.append_assoc, readValue, skipBlanks_append hbs]
    rfl

theorem ReadsMember.named (name : String) (hbs : Blank bs) (hbs' : Blank bs') (h : Reads v cs) :
    ReadsMember (some name, v) (quote name ++ (bs ++ ':' :: (bs' ++ cs))) where
  starts := (starts_quote name).append _
  reads := by
    intro fuel rest hfuel
    rw [List.length_append, List.length_append, List.length_cons, List.length_append,
      length_quote] at hfuel
    obtain ⟨fuel, rfl⟩ : ∃ n, fuel = n + 1 := ⟨fuel - 1, by omega⟩
    rw [quote, List.append_assoc, List.append_assoc, List.cons_append, List.append_assoc, readMember]
    dsimp only
    rw [List.singleton_append, readQuoted_quote]
    dsimp only
    rw [skipBlanks_append hbs, List.cons_append, skipBlanks_cons (by decide), List.append_assoc]
    show (readValue fuel (skipBlanks (bs' ++ (cs ++ rest)))).map _ = _
    rw [(h.starts.append rest).skipBlanks hbs', h.reads fuel rest (by omega)]
    rfl

theorem ReadsMembers.last (h : ReadsMember member cs) (hbs : Blank bs) :
    ReadsMembers [member] (cs ++ (bs ++ ['\x7d'])) where
  starts := h.starts.append _
  reads := by
    intro fuel rest hfuel
    rw [List.length_append, List.length_append, List.length_singleton] at hfuel
    obtain ⟨fuel, rfl⟩ : ∃ n, fuel = n + 1 := ⟨fuel - 1, by omega⟩
    rw [List.append_assoc, List.append_assoc, readMembers, h.reads fuel _ (by omega)]
    dsimp only
    rw [skipBlanks_append hbs]
    rfl

theorem ReadsMembers.cons (h : ReadsMember member cs) (hbs : Blank bs) (hbs' : Blank bs')
    (hmembers : ReadsMembers members ds) :
    ReadsMembers (member :: members) (cs ++ (bs ++ ',' :: (bs' ++ ds))) where
  starts := h.starts.append _
  reads := by
    intro fuel rest hfuel
    rw [List.length_append, List.length_append, List.length_cons, List.length_append] at hfuel
    obtain ⟨fuel, rfl⟩ : ∃ n, fuel = n + 1 := ⟨fuel - 1, by omega⟩
    rw [List.append_assoc, List.append_assoc, readMembers, h.reads fuel _ (by omega)]
    dsimp only
    rw [skipBlanks_append hbs, List.cons_append, skipBlanks_cons (by decide), List.append_assoc]
    show (readMembers fuel (skipBlanks (bs' ++ (ds ++ rest)))).map _ = _
    rw [(hmembers.starts.append rest).skipBlanks hbs', hmembers.reads fuel rest (by omega)]
    rfl

/-- A form with blanks around it is a document. -/
theorem Reads.readChars (h : Reads v cs) (hbs : Blank bs) (hbs' : Blank bs') :
    readChars (bs ++ (cs ++ bs')) = some v := by
  have hlength : (bs ++ (cs ++ bs')).length = bs.length + (cs.length + bs'.length) := by
    rw [List.length_append, List.length_append]
  have hrest : skipBlanks bs' = [] := by
    rw [← List.append_nil bs', skipBlanks_append hbs']
    rfl
  rw [Json.readChars, (h.starts.append bs').skipBlanks hbs, h.reads _ _ (by omega)]
  dsimp only
  rw [hrest]
  rfl

end

/-! ## Items and members in a row

Both ways of writing put the same blanks before every item after the first, and others before what
closes the row. -/

section

variable {bs bs' : List Char}

/-- Items after a first one, each with a comma and blanks before it. -/
theorem ReadsItems.inRow {form : Json → List Char} (hbs : Blank bs) (hbs' : Blank bs')
    {items : List Json} {first : Json} (hfirst : Reads first (form first))
    (h : ∀ v ∈ items, Reads v (form v)) :
    ReadsItems (first :: items)
      (form first ++ (items.flatMap (fun v => ',' :: (bs ++ form v)) ++ (bs' ++ [']']))) := by
  induction items generalizing first with
  | nil => exact ReadsItems.last hfirst hbs'
  | cons item items ih =>
    obtain ⟨hitem, hitems⟩ := List.forall_mem_cons.mp h
    have hall := ReadsItems.cons hfirst blank_nil hbs (ih hitem hitems)
    simpa using hall

/-- Members after a first one, each with a comma and blanks before it. -/
theorem ReadsMembers.inRow {form : Spelt × Json → List Char} (hbs : Blank bs) (hbs' : Blank bs')
    {members : List (Spelt × Json)} {first : Spelt × Json} (hfirst : ReadsMember first (form first))
    (h : ∀ m ∈ members, ReadsMember m (form m)) :
    ReadsMembers (first :: members)
      (form first ++
        (members.flatMap (fun m => ',' :: (bs ++ form m)) ++ (bs' ++ ['\x7d']))) := by
  induction members generalizing first with
  | nil => exact ReadsMembers.last hfirst hbs'
  | cons member members ih =>
    obtain ⟨hmember, hmembers⟩ := List.forall_mem_cons.mp h
    have hall := ReadsMembers.cons hfirst blank_nil hbs (ih hmember hmembers)
    simpa using hall

end

/-! ## The indented form of an array -/

theorem prettyItems_eq (level : Nat) (items : List Json) : prettyItems level items =
    items.flatMap fun v => ',' :: (lineBreak level ++ pretty level v) := by
  induction items with
  | nil => rfl
  | cons item items ih => simp [prettyItems, ih]

/-- Items that read back in their indented form make up an array that does. -/
theorem Reads.pretty_array {level : Nat} {items : List Json}
    (h : ∀ v ∈ items, Reads v (pretty (level + 1) v)) :
    Reads (.array items) (pretty level (.array items)) := by
  cases items with
  | nil => exact Reads.emptyArray blank_nil
  | cons first items =>
    obtain ⟨hfirst, hitems⟩ := List.forall_mem_cons.mp h
    have hrow := ReadsItems.inRow (blank_lineBreak (level + 1)) (blank_lineBreak level) hfirst hitems
    have hall := Reads.array (blank_lineBreak (level + 1)) hrow
    simpa [pretty, prettyItems_eq] using hall

theorem reads_pretty_ofTexts (level : Nat) (lines : List String) :
    Reads (ofTexts lines) (pretty level (ofTexts lines)) := by
  apply Reads.pretty_array
  intro v hv
  obtain ⟨line, -, rfl⟩ := List.mem_map.mp hv
  exact Reads.ofText line

/-! ## The form without blanks -/

/-- The form without blanks is read back as the value. -/
def ReadsBack (v : Json) : Prop :=
  Reads v (compact v)

theorem compactItems_eq (items : List Json) :
    compactItems items = items.flatMap fun v => ',' :: compact v := by
  induction items with
  | nil => rfl
  | cons item items ih => simp [compactItems, ih]

/-- How a member stands in the form without blanks. -/
def compactMember (m : Spelt × Json) : List Char :=
  quoteName m.1 ++ ':' :: compact m.2

theorem compactMembers_eq (members : List (Spelt × Json)) :
    compactMembers members = members.flatMap fun m => ',' :: compactMember m := by
  induction members with
  | nil => rfl
  | cons m members ih => simp [compactMembers, compactMember, ih]

namespace ReadsBack

theorem ofText (s : String) : (ofText s).ReadsBack := Reads.ofText s

theorem null : Json.null.ReadsBack where
  starts := ⟨'n', _, rfl, by decide, by decide, by decide⟩
  reads := by
    intro fuel rest hfuel
    have hlength : (compact .null).length = 4 := rfl
    obtain ⟨fuel, rfl⟩ : ∃ n, fuel = n + 1 := ⟨fuel - 1, by omega⟩
    rfl

theorem bool (b : Bool) : (Json.bool b).ReadsBack where
  starts := by
    cases b
    · exact ⟨'f', _, rfl, by decide, by decide, by decide⟩
    · exact ⟨'t', _, rfl, by decide, by decide, by decide⟩
  reads := by
    intro fuel rest hfuel
    have hlength : 4 ≤ (compact (.bool b)).length := by cases b <;> decide
    obtain ⟨fuel, rfl⟩ : ∃ n, fuel = n + 1 := ⟨fuel - 1, by omega⟩
    cases b <;> rfl

theorem ofText? (s : Option String) : (Json.ofText? s).ReadsBack := by
  cases s with
  | none => exact null
  | some s => exact ofText s

/-- Items that read back make up an array that does. -/
theorem array {items : List Json} (h : ∀ v ∈ items, v.ReadsBack) : (Json.array items).ReadsBack := by
  cases items with
  | nil => exact Reads.emptyArray blank_nil
  | cons first items =>
    obtain ⟨hfirst, hitems⟩ := List.forall_mem_cons.mp h
    have hall := Reads.array blank_nil (ReadsItems.inRow blank_nil blank_nil hfirst hitems)
    simpa [ReadsBack, compact, compactItems_eq] using hall

/-- Values that read back make up an object that does. -/
theorem ofMembers {members : List (String × Json)} (h : ∀ m ∈ members, m.2.ReadsBack) :
    (Json.ofMembers members).ReadsBack := by
  have hmember : ∀ m ∈ members, ReadsMember (some m.1, m.2) (compactMember (some m.1, m.2)) :=
    fun m hm => ReadsMember.named m.1 blank_nil blank_nil (h m hm)
  cases members with
  | nil => exact Reads.emptyObject blank_nil
  | cons first members =>
    obtain ⟨hfirst, hmembers⟩ := List.forall_mem_cons.mp hmember
    have hspelt : ∀ m ∈ members.map fun m => ((some m.1 : Spelt), m.2),
        ReadsMember m (compactMember m) := List.forall_mem_map.mpr hmembers
    have hrow := ReadsMembers.inRow blank_nil blank_nil hfirst hspelt
    have hall := Reads.object blank_nil hrow
    simpa [ReadsBack, Json.ofMembers, compact, compactMembers_eq, compactMember] using hall

theorem list {α : Type} {toJson : α → Json} (h : ∀ a, (toJson a).ReadsBack) (xs : List α) :
    (Json.array (xs.map toJson)).ReadsBack := by
  apply array
  intro v hv
  obtain ⟨a, -, rfl⟩ := List.mem_map.mp hv
  exact h a

theorem ofTexts (lines : List String) : (Json.ofTexts lines).ReadsBack :=
  list ofText lines

/-- A value that reads back is a document on its own. -/
theorem read_compactText {v : Json} (h : v.ReadsBack) : read v.compactText = some v := by
  have hdocument := Reads.readChars h blank_nil blank_nil
  rw [List.nil_append, List.append_nil] at hdocument
  rw [read, compactText, String.toList_ofList, hdocument]

end ReadsBack

end CallAudit.Json

import CallAudit.Drawing

/-!
# Tokens of a drawing

The text of a drawing taken apart from left to right: words, texts between quotes, in which a backslash
makes the next character stand for itself, and punctuation.  `Scans m cs ts m'` says that in going
through `cs` the scanner comes from the mode `m` to the mode `m'` and finds the tokens `ts`; scans are
put together piece by piece (`Scans.append`).  A label that was written is found again as it was
(`scans_label`).
-/

namespace CallAudit.Drawing

inductive Mark where
  | openBrace
  | closeBrace
  | openBracket
  | closeBracket
  | equals
  | comma
  | semicolon
deriving DecidableEq, Repr

def Mark.ofChar? : Char → Option Mark
  | '\x7b' => some openBrace
  | '\x7d' => some closeBrace
  | '[' => some openBracket
  | ']' => some closeBracket
  | '=' => some equals
  | ',' => some comma
  | ';' => some semicolon
  | _ => none

inductive Token where
  | word (cs : List Char)
  /-- A text between quotes, as it is meant. -/
  | label (cs : List Char)
  | mark (m : Mark)
  | arrow
deriving DecidableEq, Repr

/-- What the scanner is in the middle of. -/
inductive Mode where
  | between
  | word (cs : List Char)
  /-- After the first half of an arrow. -/
  | dash
  | quoted (cs : List Char)
  /-- After a backslash between quotes. -/
  | escaped (cs : List Char)
deriving DecidableEq, Repr

def isWordChar (c : Char) : Bool :=
  c.isAlphanum || c == '_'

/-! ## Scanning -/

/-- What a character between two tokens is or starts. -/
def start (c : Char) : Option (List Token × Mode) :=
  if isWordChar c then some ([], .word [c])
  else if c.isWhitespace then some ([], .between)
  else if c = '"' then some ([], .quoted [])
  else if c = '-' then some ([], .dash)
  else (Mark.ofChar? c).map fun m => ([.mark m], .between)

/-- What one character completes, and what the scanner is in the middle of after it. -/
def step : Mode → Char → Option (List Token × Mode)
  | .between, c => start c
  | .word cs, c =>
      if isWordChar c then some ([], .word (cs ++ [c]))
      else (start c).map fun (ts, m) => (.word cs :: ts, m)
  | .dash, c => if c = '>' then some ([.arrow], .between) else none
  | .quoted cs, c =>
      if c = '\\' then some ([], .escaped cs)
      else if c = '"' then some ([.label cs], .between)
      else some ([], .quoted (cs ++ [c]))
  | .escaped cs, c => some ([], .quoted (cs ++ [c]))

/-- Goes through a text from a mode. -/
def scan : Mode → List Char → Option (List Token × Mode)
  | m, [] => some ([], m)
  | m, c :: cs => do
      let (ts, m) ← step m c
      let (rest, m) ← scan m cs
      some (ts ++ rest, m)

/-! ## Scanning piece by piece -/

def Scans (m : Mode) (cs : List Char) (ts : List Token) (m' : Mode) : Prop :=
  scan m cs = some (ts, m')

section

variable {m m' m'' : Mode} {c : Char} {cs ds : List Char} {ts ts' : List Token}

theorem Scans.nil (m : Mode) : Scans m [] [] m := rfl

theorem Scans.cons (hstep : step m c = some (ts, m')) (h : Scans m' cs ts' m'') :
    Scans m (c :: cs) (ts ++ ts') m'' := by
  have h' : scan m' cs = some (ts', m'') := h
  rw [Scans, scan, hstep, Option.bind_eq_bind, Option.bind_some]
  dsimp only
  rw [h']
  rfl

theorem Scans.of_cons (h : Scans m (c :: cs) ts m'') : ∃ m' first rest,
    step m c = some (first, m') ∧ Scans m' cs rest m'' ∧ ts = first ++ rest := by
  rw [Scans, scan, Option.bind_eq_bind, Option.bind_eq_some_iff] at h
  obtain ⟨⟨first, m'⟩, hstep, hrest⟩ := h
  obtain ⟨⟨rest, last⟩, hscan, hresult⟩ := Option.bind_eq_some_iff.mp hrest
  obtain ⟨rfl, rfl⟩ := Prod.mk.inj (Option.some.inj hresult)
  exact ⟨m', first, rest, hstep, hscan, rfl⟩

theorem Scans.append (h : Scans m cs ts m') (h' : Scans m' ds ts' m'') :
    Scans m (cs ++ ds) (ts ++ ts') m'' := by
  induction cs generalizing m ts with
  | nil =>
    obtain ⟨rfl, rfl⟩ := Prod.mk.inj (Option.some.inj h)
    exact h'
  | cons c cs ih =>
    obtain ⟨m₁, first, rest, hstep, hscan, rfl⟩ := h.of_cons
    rw [List.append_assoc]
    exact Scans.cons hstep (ih hscan)

/-- A word goes on as long as its characters do. -/
theorem scans_wordChars (h : ∀ c ∈ cs, isWordChar c = true) (read : List Char) :
    Scans (.word read) cs [] (.word (read ++ cs)) := by
  induction cs generalizing read with
  | nil =>
    rw [List.append_nil]
    exact .nil _
  | cons c cs ih =>
    have hstep : step (.word read) c = some ([], .word (read ++ [c])) :=
      if_pos (h c List.mem_cons_self)
    have hrest := ih (fun d hd => h d (List.mem_cons_of_mem c hd)) (read ++ [c])
    rw [List.append_assoc, List.singleton_append] at hrest
    exact .cons hstep hrest

theorem scans_word (hc : isWordChar c = true) (h : ∀ d ∈ cs, isWordChar d = true) :
    Scans .between (c :: cs) [] (.word (c :: cs)) := by
  have hstep : step .between c = some ([], .word [c]) := if_pos hc
  exact .cons hstep (scans_wordChars h [c])

/-- A label is written so that it is read as it is, and goes on. -/
theorem scans_escape (cs read : List Char) :
    Scans (.quoted read) (escape cs) [] (.quoted (read ++ cs)) := by
  induction cs generalizing read with
  | nil =>
    rw [List.append_nil]
    exact .nil _
  | cons c cs ih =>
    have hrest := ih (read ++ [c])
    rw [List.append_assoc, List.singleton_append] at hrest
    rw [escape]
    split
    · -- the backslash makes the character after it stand for itself
      have hopens : step (.quoted read) '\\' = some ([], .escaped read) := rfl
      have hstands : step (.escaped read) c = some ([], .quoted (read ++ [c])) := rfl
      exact .cons hopens (.cons hstands hrest)
    · next hplain =>
      obtain ⟨hquote, hbackslash⟩ := not_or.mp hplain
      have hstep : step (.quoted read) c = some ([], .quoted (read ++ [c])) := by
        rw [step, if_neg hbackslash, if_neg hquote]
      exact .cons hstep hrest

/-- A label between its quotes is one token, which is the label as it was. -/
theorem scans_label (cs : List Char) :
    Scans .between ('"' :: (escape cs ++ ['"'])) [.label cs] .between := by
  have hopens : step .between '"' = some ([], .quoted []) := rfl
  have hcloses : Scans (.quoted cs) ['"'] [.label cs] .between := rfl
  exact .cons hopens ((scans_escape cs []).append hcloses)

end

end CallAudit.Drawing

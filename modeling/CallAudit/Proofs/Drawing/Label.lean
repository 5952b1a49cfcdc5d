import CallAudit.Proofs.Drawing.Shown

/-!
# Labels between their quotes

Escaping doubles the backslashes first and puts a backslash before the quotes then
(`escape_eq_replaceAll`).  A drawing is put together of lines, which are fixed texts and perhaps a label
between two quotes (`text_eq_lines`).  Whatever a label is, who reads a line is between quotes from the
quote before the label to the one after it and nowhere else, and reads the label as it is
(`labels_end_at_their_quotes`).
-/

namespace CallAudit.Drawing

/-! ## Escaping by replacements -/

/-- A text with something else for every occurrence of a character. -/
def replaceAll (c : Char) (new : List Char) (cs : List Char) : List Char :=
  cs.flatMap fun d => if d = c then new else [d]

/-- The backslashes come first, since the second replacement puts new ones in. -/
theorem escape_eq_replaceAll (cs : List Char) :
    escape cs = replaceAll '"' ['\\', '"'] (replaceAll '\\' ['\\', '\\'] cs) := by
  unfold replaceAll
  induction cs with
  | nil => rfl
  | cons c cs ih =>
    rw [escape, ih, List.flatMap_cons, List.flatMap_append]
    by_cases hbackslash : c = '\\'
    · -- neither half of a doubled backslash is a quote
      subst hbackslash
      rfl
    · by_cases hquote : c = '"'
      · -- the first replacement leaves the quote alone
        subst hquote
        rfl
      · simp [hbackslash, hquote]

/-! ## Between quotes -/

/-- Whether the scanner has come past the quote before a label and not past the one after it. -/
def Mode.inQuotes : Mode → Bool
  | .quoted _ => true
  | .escaped _ => true
  | _ => false

/-- The labels among some tokens. -/
def labelsOf (ts : List Token) : List String :=
  ts.filterMap fun
    | .label cs => some (String.ofList cs)
    | _ => none

/-- The labels that are read in a text. -/
def labelsIn (text : String) : Option (List String) :=
  (scan .between text.toList).map fun (ts, _) => labelsOf ts

/-- Whether a reader is between quotes after some characters of a text. -/
def inQuotesAfter (k : Nat) (text : String) : Option Bool :=
  (scan .between (text.toList.take k)).map fun (_, m) => m.inQuotes

section

variable {m m' m'' : Mode} {c : Char} {cs ds : List Char} {ts ts' : List Token} {text : String}

@[simp] theorem labelsOf_append (ts ts' : List Token) :
    labelsOf (ts ++ ts') = labelsOf ts ++ labelsOf ts' :=
  List.filterMap_append

@[simp] theorem labelsOf_label (cs : List Char) : labelsOf [.label cs] = [String.ofList cs] := rfl

theorem labelsIn_of_scans (h : Scans .between text.toList ts m) :
    labelsIn text = some (labelsOf ts) := by
  have hscan : scan .between text.toList = some (ts, m) := h
  rw [labelsIn, hscan, Option.map_some]

theorem inQuotesAfter_of_scans {k : Nat} (h : Scans .between (text.toList.take k) ts m) :
    inQuotesAfter k text = some m.inQuotes := by
  have hscan : scan .between (text.toList.take k) = some (ts, m) := h
  rw [inQuotesAfter, hscan, Option.map_some]

/-- The scanner goes through a text without completing a label. -/
def Passes (m : Mode) (cs : List Char) (m' : Mode) : Prop :=
  ∃ ts, Scans m cs ts m' ∧ labelsOf ts = []

theorem Passes.append (h : Passes m cs m') (h' : Passes m' ds m'') : Passes m (cs ++ ds) m'' := by
  obtain ⟨ts, hscan, hts⟩ := h
  obtain ⟨ts', hscan', hts'⟩ := h'
  exact ⟨ts ++ ts', hscan.append hscan', by rw [labelsOf_append, hts, hts', List.append_nil]⟩

/-- A text that is gone through is gone through part by part. -/
theorem Passes.of_append (h : Passes m (cs ++ ds) m'') : ∃ m', Passes m cs m' ∧ Passes m' ds m'' := by
  induction cs generalizing m with
  | nil => exact ⟨m, ⟨[], .nil m, rfl⟩, h⟩
  | cons c cs ih =>
    obtain ⟨ts, hscan, hts⟩ := h
    obtain ⟨m₁, first, rest, hstep, hrest, rfl⟩ := hscan.of_cons
    obtain ⟨hfirst, hlater⟩ := List.append_eq_nil_iff.mp (labelsOf_append first rest ▸ hts)
    obtain ⟨m', ⟨ts', hbefore, hts'⟩, hafter⟩ := ih ⟨rest, hrest, hlater⟩
    exact ⟨m', ⟨first ++ ts', .cons hstep hbefore, by rw [labelsOf_append, hfirst, hts']; rfl⟩, hafter⟩

/-- A step that leaves the quotes completes a label. -/
theorem inQuotes_of_step (h : step m c = some (ts, m')) (hts : labelsOf ts = [])
    (hm : m.inQuotes = true) : m'.inQuotes = true := by
  cases m with
  | between => cases hm
  | word => cases hm
  | dash => cases hm
  | escaped cs =>
    -- whatever the character is, it stands for itself
    obtain ⟨-, rfl⟩ := Prod.mk.inj (Option.some.inj h)
    rfl
  | quoted cs =>
    rw [step] at h
    split at h
    · obtain ⟨-, rfl⟩ := Prod.mk.inj (Option.some.inj h)
      rfl
    split at h
    · -- a bare quote, with which the label is complete
      obtain ⟨rfl, -⟩ := Prod.mk.inj (Option.some.inj h)
      cases hts
    · obtain ⟨-, rfl⟩ := Prod.mk.inj (Option.some.inj h)
      rfl

/-- Between quotes the scanner stays there as long as no label is complete. -/
theorem Passes.inQuotes (h : Passes m cs m') (hm : m.inQuotes = true) : m'.inQuotes = true := by
  obtain ⟨ts, hscan, hts⟩ := h
  induction cs generalizing m ts with
  | nil =>
    obtain ⟨-, rfl⟩ := Prod.mk.inj (Option.some.inj hscan)
    exact hm
  | cons c cs ih =>
    obtain ⟨m₁, first, rest, hstep, hrest, rfl⟩ := hscan.of_cons
    obtain ⟨hfirst, hlater⟩ := List.append_eq_nil_iff.mp (labelsOf_append first rest ▸ hts)
    exact ih (inQuotes_of_step hstep hfirst hm) rest hrest hlater

/-- Where no label is complete, quotes that are open stay open, and none are open before a place where
none are. -/
theorem Passes.take (h : Passes m cs m') (k : Nat) : ∃ m₁, Passes m (cs.take k) m₁ ∧
    (m.inQuotes = true → m₁.inQuotes = true) ∧ (m'.inQuotes = false → m₁.inQuotes = false) := by
  rw [← List.take_append_drop k cs] at h
  obtain ⟨m₁, hfirst, hrest⟩ := h.of_append
  refine ⟨m₁, hfirst, hfirst.inQuotes, fun houtside => ?_⟩
  -- quotes that were open at this place would be open at the end
  rw [← Bool.not_eq_true] at houtside ⊢
  exact mt hrest.inQuotes houtside

/-- A label is gone through from the quote before it to the quote after it. -/
theorem passes_escape (cs : List Char) : Passes (.quoted []) (escape cs) (.quoted cs) :=
  ⟨[], scans_escape cs [], rfl⟩

end

/-! ## Lines -/

/-- A line of a drawing: a fixed text, or a label between quotes with fixed texts around them. -/
inductive Line where
  | plain (text : String)
  | labelled (front label back : String)

namespace Line

def text : Line → String
  | plain text => text
  | labelled front label back => front ++ quoted label ++ back

def labels : Line → List String
  | plain _ => []
  | labelled _ label _ => [label]

/-- After how many characters of a line the quote before its label is past, and the one after it is not. -/
def inLabel : Line → Nat → Bool
  | plain _, _ => false
  | labelled front label _, k =>
      decide (front.length < k ∧ k ≤ front.length + 1 + (escape label.toList).length)

/-- What is read between quotes is the label, and that is between them at whatever place in the line. -/
structure ReadAsWritten (line : Line) : Prop where
  labels : labelsIn line.text = some line.labels
  quotes : ∀ k, inQuotesAfter k line.text = some (line.inLabel k)

theorem readAsWritten_plain {text : String} (h : Passes .between text.toList .between) :
    (plain text).ReadAsWritten := by
  constructor
  · obtain ⟨ts, hscan, hts⟩ := h
    exact (labelsIn_of_scans hscan).trans (congrArg some hts)
  · intro k
    obtain ⟨m, ⟨ts, hread, -⟩, -, houtside⟩ := h.take k
    exact (inQuotesAfter_of_scans hread).trans (congrArg some (houtside rfl))

section

variable {front back : String} (label : String)

theorem toList_text_labelled (front label back : String) :
    (labelled front label back).text.toList =
      front.toList ++ '"' :: (escape label.toList ++ '"' :: back.toList) := by
  simp only [text, quoted, String.toList_append, String.toList_ofList, List.append_assoc]
  rfl

theorem step_opening : step .between '"' = some ([], .quoted []) := rfl

theorem step_closing (cs : List Char) : step (.quoted cs) '"' = some ([.label cs], .between) := rfl

/-- The label is all that is read in a line between fixed texts. -/
theorem labelsIn_labelled (hfront : Passes .between front.toList .between)
    (hback : Passes .between back.toList .between) :
    labelsIn (labelled front label back).text = some [label] := by
  obtain ⟨ts, hscan, hts⟩ := hfront
  obtain ⟨ts', hscan', hts'⟩ := hback
  have hline := hscan.append
    (.cons step_opening ((scans_escape label.toList []).append (.cons (step_closing _) hscan')))
  rw [← toList_text_labelled] at hline
  rw [labelsIn_of_scans hline]
  simp only [labelsOf_append, labelsOf_label, hts, hts', List.nil_append, List.append_nil,
    String.ofList_toList]

/-- Before the first quote no label has begun, up to the second one no label has ended, and after it
there is none. -/
theorem inQuotesAfter_labelled (hfront : Passes .between front.toList .between)
    (hback : Passes .between back.toList .between) (k : Nat) :
    inQuotesAfter k (labelled front label back).text =
      some ((labelled front label back).inLabel k) := by
  have htake := congrArg (List.take k) (toList_text_labelled front label back)
  have hlength : front.toList.length = front.length := String.length_toList
  by_cases hbefore : k ≤ front.toList.length
  · -- a place in the fixed text before the label
    obtain ⟨m, ⟨ts, hread, -⟩, -, houtside⟩ := hfront.take k
    rw [← List.take_append_of_le_length hbefore, ← htake] at hread
    rw [inQuotesAfter_of_scans hread, houtside rfl, inLabel, decide_eq_false (by omega)]
  obtain ⟨j, rfl⟩ : ∃ j, k = front.toList.length + (j + 1) :=
    ⟨k - front.toList.length - 1, by omega⟩
  obtain ⟨first, hscan, -⟩ := hfront
  rw [List.take_length_add_append, List.take_succ_cons] at htake
  by_cases hwithin : j ≤ (escape label.toList).length
  · -- a place after the first quote, up to the second one
    obtain ⟨m, ⟨ts, hread, -⟩, hinside, -⟩ := (passes_escape label.toList).take j
    have hread := hscan.append (.cons step_opening hread)
    rw [← List.take_append_of_le_length hwithin, ← htake] at hread
    rw [inQuotesAfter_of_scans hread, hinside rfl, inLabel, decide_eq_true (by omega)]
  -- a place in the fixed text after the label
  obtain ⟨i, rfl⟩ : ∃ i, j = (escape label.toList).length + (i + 1) :=
    ⟨j - (escape label.toList).length - 1, by omega⟩
  rw [List.take_length_add_append, List.take_succ_cons] at htake
  obtain ⟨m, ⟨ts, hread, -⟩, -, houtside⟩ := hback.take i
  have hread := hscan.append
    (.cons step_opening ((scans_escape label.toList []).append (.cons (step_closing _) hread)))
  rw [← htake] at hread
  rw [inQuotesAfter_of_scans hread, houtside rfl, inLabel, decide_eq_false (by omega)]

/-- No label gets out of its quotes. -/
theorem readAsWritten_labelled (hfront : Passes .between front.toList .between)
    (hback : Passes .between back.toList .between) : (labelled front label back).ReadAsWritten :=
  ⟨labelsIn_labelled label hfront hback, inQuotesAfter_labelled label hfront hback⟩

end

end Line

/-! ## The lines of a drawing -/

namespace Line

/-- The lines before the nodes. -/
def opening : List Line := [
  .plain "digraph trimtrace \x7b\n",
  .plain "  rankdir=LR;\n",
  .labelled "  node [shape=box, style=filled, fontname=" "JetBrains Mono" "];\n",
  .plain "\n"]

def ofNode (program : Program) (s : Snapshot) (n : Node) : Line :=
  .labelled ("  " ++ name n ++ " [label=") (program.display n)
    (", fillcolor=" ++ fill s n ++ shape n ++ "];\n")

def ofEdge (e : Edge) : Line :=
  if e.kind.isCall then .plain ("  " ++ name e.source ++ " -> " ++ name e.target ++ ";\n")
  else .labelled ("  " ++ name e.source ++ " -> " ++ name e.target ++ " [style=dashed, label=")
    e.kind.display "];\n"

end Line

/-- The lines that the drawing of a prepared graph is put together of. -/
def lines (program : Program) (p : Prepared) : List Line :=
  Line.opening ++ p.graph.nodes.map (Line.ofNode program p.snapshot) ++ [.plain "\n"] ++
    p.graph.simpleEdges.map Line.ofEdge ++ [.plain "\x7d\n"]

namespace Line

theorem text_ofNode (program : Program) (s : Snapshot) (n : Node) :
    (ofNode program s n).text = nodeLine program s n := by
  simp only [ofNode, text, nodeLine, String.append_assoc]

/-- The words for a kind stand between quotes as they are. -/
theorem quoted_display (kind : EdgeKind) : quoted kind.display = "\"" ++ kind.display ++ "\"" := by
  cases kind <;> rfl

theorem text_ofEdge (e : Edge) : (ofEdge e).text = arrowLine e := by
  unfold ofEdge arrowLine
  split
  · rw [text, String.append_assoc]
  · rw [text, quoted_display]
    simp only [String.append_assoc]
    rfl

end Line

theorem text_eq_lines (program : Program) (p : Prepared) :
    text program p = String.join ((lines program p).map Line.text) := by
  have hnodes : (p.graph.nodes.map (Line.ofNode program p.snapshot)).map Line.text =
      p.graph.nodes.map (nodeLine program p.snapshot) := by
    rw [List.map_map]
    exact List.map_congr_left fun n _ => Line.text_ofNode program p.snapshot n
  have hedges : (p.graph.simpleEdges.map Line.ofEdge).map Line.text =
      p.graph.simpleEdges.map arrowLine := by
    rw [List.map_map]
    exact List.map_congr_left fun e _ => Line.text_ofEdge e
  have hopening : String.join (Line.opening.map Line.text) = head := by decide +kernel
  simp only [text, lines, List.map_append, String.join_append, hnodes, hedges, hopening]
  rfl

/-! ## Fixed texts -/

namespace Line

theorem readAsWritten_opening {line : Line} (h : line ∈ opening) : line.ReadAsWritten := by
  simp only [opening, List.mem_cons, List.not_mem_nil, or_false] at h
  rcases h with rfl | rfl | rfl | rfl
  · exact readAsWritten_plain ⟨_, rfl, rfl⟩
  · exact readAsWritten_plain ⟨_, rfl, rfl⟩
  · exact readAsWritten_labelled _ ⟨_, rfl, rfl⟩ ⟨_, rfl, rfl⟩
  · exact readAsWritten_plain ⟨_, rfl, rfl⟩

theorem readAsWritten_ofNode (program : Program) (s : Snapshot) (n : Node) :
    (ofNode program s n).ReadAsWritten := by
  have hcolour : Passes .between (", fillcolor=".toList ++ (fill s n).toList)
      (.word (fill s n).toList) := ⟨_, scans_colour (scans_fill s n), rfl⟩
  -- the fill ends with what comes after it, which depends on the sort of node
  have hshape : Passes (.word (fill s n).toList) ((shape n).toList ++ "];\n".toList) .between := by
    refine ⟨_, scans_shape n _, ?_⟩
    cases n <;> rfl
  refine readAsWritten_labelled _ ?_ ?_
  · rw [String.toList_append, String.toList_append]
    exact ⟨_, scans_labelFront (scans_name n), rfl⟩
  · have hback := hcolour.append hshape
    rw [← List.append_assoc] at hback
    simpa only [String.toList_append] using hback

theorem readAsWritten_ofEdge (e : Edge) : (ofEdge e).ReadAsWritten := by
  have hends : Passes .between ("  ".toList ++ (name e.source).toList ++ " -> ".toList ++
      (name e.target).toList) (.word (name e.target).toList) :=
    ⟨_, scans_arrowFront (scans_name e.source) (scans_name e.target), rfl⟩
  unfold ofEdge
  split
  · have hback : ∀ w, Passes (.word w) ";\n".toList .between := fun _ => ⟨_, rfl, rfl⟩
    refine readAsWritten_plain ?_
    simp only [String.toList_append]
    exact hends.append (hback _)
  · have hlabel : ∀ w, Passes (.word w) " [style=dashed, label=".toList .between := fun w =>
      ⟨[.word w, .mark .openBracket, .word "style".toList, .mark .equals, .word "dashed".toList,
        .mark .comma, .word "label".toList, .mark .equals], rfl, rfl⟩
    refine readAsWritten_labelled _ ?_ ⟨_, rfl, rfl⟩
    simp only [String.toList_append]
    exact hends.append (hlabel _)

end Line

/-- No label can be broken out of, and none loses anything.  What is written for a label is its text with
the backslashes doubled and then the quotes escaped.  Read from left to right, with a backslash that
makes the next character stand for itself, it has no quote that would end the label and does not end
in the middle of an escape, and the label is what is read.  So in every line of a drawing, whatever the
program and its names are, a reader is between quotes just from the quote that stands before the label
to the one that stands after it, and reads the label that was to be written and no other. -/
theorem labels_end_at_their_quotes :
    (∀ label : List Char,
      escape label = replaceAll '"' ['\\', '"'] (replaceAll '\\' ['\\', '\\'] label) ∧
      scan (.quoted []) (escape label) = some ([], .quoted label)) ∧
    ∀ (program : Program) (p : Prepared),
      text program p = String.join ((lines program p).map Line.text) ∧
      ∀ line ∈ lines program p,
        labelsIn line.text = some line.labels ∧
        ∀ k, inQuotesAfter k line.text = some (line.inLabel k) := by
  refine ⟨fun label => ⟨escape_eq_replaceAll label, scans_escape label []⟩,
    fun program p => ⟨text_eq_lines program p, fun line hline => ?_⟩⟩
  suffices hread : line.ReadAsWritten from ⟨hread.labels, hread.quotes⟩
  simp only [lines, List.mem_append, List.mem_map, List.mem_singleton] at hline
  rcases hline with (((hopening | ⟨n, -, rfl⟩) | rfl) | ⟨e, -, rfl⟩) | rfl
  · exact Line.readAsWritten_opening hopening
  · exact Line.readAsWritten_ofNode program p.snapshot n
  · exact Line.readAsWritten_plain ⟨_, rfl, rfl⟩
  · exact Line.readAsWritten_ofEdge e
  · exact Line.readAsWritten_plain ⟨_, rfl, rfl⟩

/-- A method with a quote after a backslash in its name, and with a backslash at the end of its text. -/
def unruly : Program where
  methods := [{ key := "App::Run()", declaringType := "App", name := "a\\\"];b\\", returnType := "\\" }]

/-- The label stays open up to its last backslash, and the quote after that ends it. -/
theorem labels_end_at_their_quotes_backslashes :
    ∃ line ∈ lines unruly { graph := { nodes := [.method 0] }, snapshot := {} },
      line.text = "  m0 [label=\"App::a\\\\\\\"];b\\\\() -> \\\\\", fillcolor=white];\n" ∧
      labelsIn line.text = some ["App::a\\\"];b\\() -> \\"] ∧
      ∀ k, inQuotesAfter k line.text = some (decide (12 < k ∧ k ≤ 36)) := by
  obtain ⟨-, hdrawings⟩ := labels_end_at_their_quotes
  obtain ⟨-, hlines⟩ := hdrawings unruly { graph := { nodes := [.method 0] }, snapshot := {} }
  have hline : Line.ofNode unruly {} (.method 0) ∈
      lines unruly { graph := { nodes := [.method 0] }, snapshot := {} } := by
    simp [lines]
  obtain ⟨hlabels, hquotes⟩ := hlines _ hline
  have hwritten : (Line.ofNode unruly {} (.method 0)).labels = ["App::a\\\"];b\\() -> \\"] := by
    decide +kernel
  have hfront : ("  " ++ name (.method 0) ++ " [label=").length = 12 := by decide +kernel
  have hescaped : (escape (unruly.display (.method 0)).toList).length = 23 := by decide +kernel
  refine ⟨_, hline, by decide +kernel, hlabels.trans (congrArg some hwritten), fun k => ?_⟩
  rw [hquotes k, Line.ofNode, Line.inLabel, hfront, hescaped]

end CallAudit.Drawing

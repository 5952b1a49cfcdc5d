import CallAudit.Report.Writer
import CallAudit.Proofs.Json.Reading

/-!
# What is written

Strokes that are all accepted leave the characters of their pieces in the sink (`Writer.perform_ok`),
and a sink without a limit accepts them all (`Writer.perform_unlimited`).  The strokes of grouped
chains in JSON make up a document that reads back as one member for each group, in order
(`Writer.readChars_groups`).
-/

namespace CallAudit

/-- The characters a stroke writes. -/
def Stroke.chars : Stroke → List Char
  | .piece text => text.toList
  | .begun => []
  | .nextIsFirst _ => []

/-- The characters strokes write. -/
def Stroke.allChars (strokes : List Stroke) : List Char :=
  strokes.flatMap chars

@[simp] theorem Stroke.allChars_nil : allChars [] = [] := rfl

@[simp] theorem Stroke.allChars_cons (s : Stroke) (strokes : List Stroke) :
    allChars (s :: strokes) = s.chars ++ allChars strokes := rfl

@[simp] theorem Stroke.allChars_append (strokes strokes' : List Stroke) :
    allChars (strokes ++ strokes') = allChars strokes ++ allChars strokes' :=
  List.flatMap_append

namespace Writer

/-- A writer whose sink has accepted a stroke. -/
def after (w : Writer) : Stroke → Writer
  | .piece text => { w with sink := { w.sink with written := w.sink.written ++ text } }
  | .begun => { w with hasBegun := true }
  | .nextIsFirst value => { w with isFirst := value }

/-- A writer whose sink has accepted strokes. -/
def afterAll (w : Writer) (strokes : List Stroke) : Writer :=
  strokes.foldl after w

section

variable {w w' : Writer} {strokes : List Stroke}

theorem perform_cons_of_room {s : Stroke}
    (hroom : ∀ text, s = .piece text → w.sink.hasRoom text = true) :
    w.perform (s :: strokes) = (w.after s).perform strokes := by
  cases s with
  | piece text => rw [perform, Sink.write, if_pos (hroom text rfl)]; rfl
  | begun => rfl
  | nextIsFirst value => rfl

/-- What was performed to the end was accepted stroke by stroke. -/
theorem perform_ok (h : w.perform strokes = (.ok (), w')) : w' = w.afterAll strokes := by
  induction strokes generalizing w with
  | nil => exact (Prod.mk.inj h).2.symm
  | cons s strokes ih =>
    have hroom : ∀ text, s = .piece text → w.sink.hasRoom text = true := by
      rintro text rfl
      cases hfull : w.sink.hasRoom text with
      | true => rfl
      | false =>
        rw [perform, Sink.write, hfull] at h
        cases h
    rw [perform_cons_of_room hroom] at h
    exact ih h

theorem capacity_after {s : Stroke} : (w.after s).sink.capacity = w.sink.capacity := by
  cases s <;> rfl

theorem capacity_afterAll : (w.afterAll strokes).sink.capacity = w.sink.capacity := by
  induction strokes generalizing w with
  | nil => rfl
  | cons s strokes ih => exact (ih (w := w.after s)).trans capacity_after

theorem grouping_afterAll : (w.afterAll strokes).grouping = w.grouping := by
  induction strokes generalizing w with
  | nil => rfl
  | cons s strokes ih =>
    have hstep : (w.after s).grouping = w.grouping := by cases s <;> rfl
    exact (ih (w := w.after s)).trans hstep

theorem perform_unlimited (h : w.sink.capacity = none) :
    w.perform strokes = (.ok (), w.afterAll strokes) := by
  induction strokes generalizing w with
  | nil => rfl
  | cons s strokes ih =>
    have hroom : ∀ text, s = .piece text → w.sink.hasRoom text = true := by
      intro text _
      rw [Sink.hasRoom, h]
      rfl
    rw [perform_cons_of_room hroom, ih (capacity_after.trans h)]
    rfl

theorem written_afterAll : (w.afterAll strokes).sink.written.toList =
    w.sink.written.toList ++ Stroke.allChars strokes := by
  induction strokes generalizing w with
  | nil => rw [Stroke.allChars_nil, List.append_nil]; rfl
  | cons s strokes ih =>
    have hstep : (w.after s).sink.written.toList = w.sink.written.toList ++ s.chars := by
      cases s with
      | piece text => exact String.toList_append
      | begun => exact (List.append_nil _).symm
      | nextIsFirst value => exact (List.append_nil _).symm
    have hrest := ih (w := w.after s)
    rw [hstep, List.append_assoc] at hrest
    exact hrest

/-- What was performed to the end has added its characters to what was written. -/
theorem exists_written (h : w.perform strokes = (.ok (), w')) :
    ∃ text, w'.sink.written = w.sink.written ++ text ∧ text.toList = Stroke.allChars strokes := by
  refine ⟨String.ofList (Stroke.allChars strokes), ?_, String.toList_ofList⟩
  rw [← String.toList_inj, perform_ok h, written_afterAll, String.toList_append,
    String.toList_ofList]

end

/-! ## Grouped chains in JSON -/

open Json in
theorem readsItems_items (c : Chain) (cs : List Chain) :
    ReadsItems ((c :: cs).map Chain.json)
      (Stroke.allChars (items true (c :: cs)) ++ (['\n'] ++ [']'])) := by
  -- after the first chain, each begins with a comma and a line break
  have hfollowing : ∀ (cs : List Chain) (c : Chain),
      ReadsItems ((c :: cs).map Chain.json) (pretty 0 c.json ++
        (Stroke.allChars (cs.flatMap (item true false)) ++ (['\n'] ++ [']']))) := by
    intro cs
    induction cs with
    | nil =>
      intro c
      exact ReadsItems.last (reads_pretty_ofTexts 0 c.lines) blank_newline
    | cons c' cs ih =>
      intro c
      have hall := ReadsItems.cons (reads_pretty_ofTexts 0 c.lines) blank_nil blank_newline (ih c')
      simpa [item, Stroke.chars, prettyText, Chain.json] using hall
  have hall := hfollowing cs c
  simpa [items, item, Stroke.chars, prettyText, Chain.json] using hall

/-- What a group reads back as. -/
def member (display : Node → String) (g : Node × List Chain) : Spelt × Json :=
  (some (display g.1), .array (g.2.map Chain.json))

open Json in
theorem readsMember_group (display : Node → String) (g : Node × List Chain) :
    ReadsMember (member display g) (Stroke.allChars (group true true (display g.1) g.2)) := by
  obtain ⟨key, chains⟩ := g
  have hblank : Blank [' '] := by
    intro c hc
    obtain rfl := List.mem_singleton.mp hc
    rfl
  cases chains with
  | nil =>
    have hblanks : Blank ['\n', '\n'] := by
      intro c hc
      simp only [List.mem_cons, List.not_mem_nil, or_false, or_self] at hc
      subst hc
      rfl
    have hall := ReadsMember.named (display key) blank_nil hblank (Reads.emptyArray hblanks)
    simpa [group, groupHead, items, Stroke.chars, member] using hall
  | cons c cs =>
    have hvalue := Reads.array blank_newline (readsItems_items c cs)
    have hall := ReadsMember.named (display key) blank_nil hblank hvalue
    simpa [group, groupHead, Stroke.chars, member] using hall

theorem allChars_group_next (name : String) (chains : List Chain) :
    Stroke.allChars (group true false name chains) =
      ',' :: '\n' :: Stroke.allChars (group true true name chains) := by
  simp [group, groupHead, Stroke.chars]

open Json in
theorem readsMembers_groups (display : Node → String) (g : Node × List Chain)
    (gs : List (Node × List Chain)) :
    ReadsMembers ((g :: gs).map (member display))
      (Stroke.allChars (groups true display (g :: gs)) ++ (['\n'] ++ ['\x7d'])) := by
  have hfollowing : ∀ (gs : List (Node × List Chain)) (g : Node × List Chain),
      ReadsMembers ((g :: gs).map (member display))
        (Stroke.allChars (group true true (display g.1) g.2) ++
          (Stroke.allChars (gs.flatMap fun g => group true false (display g.1) g.2) ++
            (['\n'] ++ ['\x7d']))) := by
    intro gs
    induction gs with
    | nil =>
      intro g
      exact ReadsMembers.last (readsMember_group display g) blank_newline
    | cons g' gs ih =>
      intro g
      have hall := ReadsMembers.cons (readsMember_group display g) blank_nil blank_newline (ih g')
      simpa [allChars_group_next] using hall
  have hall := hfollowing gs g
  rw [groups, Stroke.allChars_append, List.append_assoc]
  exact hall

/-- The strokes of grouped chains in JSON. -/
theorem readChars_groups (display : Node → String) (gathered : List (Node × List Chain)) :
    Json.readChars (Stroke.allChars
        (.piece "\x7b\n" :: groups true display gathered ++ [.piece "\n", .piece "\x7d\n"])) =
      some (.object (gathered.map (member display))) := by
  cases gathered with
  | nil => rfl
  | cons g gs =>
    have hvalue := Json.Reads.object Json.blank_newline (readsMembers_groups display g gs)
    have hall := hvalue.readChars Json.blank_nil Json.blank_newline
    simpa [Stroke.chars] using hall

end Writer

end CallAudit

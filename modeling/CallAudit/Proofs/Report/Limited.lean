import CallAudit.Proofs.Report.Total

/-!
# Sinks that fill up

What a report has its writer do is one list of strokes that does not depend on the sink
(`Report.consume_eq`).  A sink with limited room takes their pieces up to the first that does not fit,
and none after it (`Writer.exists_accepted`).  So the report succeeds if everything fits, and otherwise
it fails and leaves a beginning of what a sink without a limit holds (`limited_sink_takes_prefix`).
-/

namespace CallAudit

/-- The text a stroke writes, if it writes one. -/
def Stroke.text? : Stroke → Option String
  | .piece text => some text
  | .begun => none
  | .nextIsFirst _ => none

/-- The texts that strokes write, in order. -/
def Stroke.pieces (strokes : List Stroke) : List String :=
  strokes.filterMap text?

theorem Stroke.pieces_cons (s : Stroke) (strokes : List Stroke) :
    pieces (s :: strokes) = s.text?.toList ++ pieces strokes := by
  cases s <;> rfl

theorem Sink.hasRoom_iff {s : Sink} {n : Nat} (hcapacity : s.capacity = some n) (piece : String) :
    s.hasRoom piece = true ↔ (s.written ++ piece).utf8ByteSize ≤ n := by
  rw [hasRoom, hcapacity, Option.all_some, decide_eq_true_iff, String.utf8ByteSize_append]

namespace Writer

variable {α β : Type} {w w' : Writer} {strokes strokes' : List Stroke} {n : Nat}

/-! ## Room for some of the pieces -/

theorem written_after {s : Stroke} :
    (w.after s).sink.written = w.sink.written ++ String.join s.text?.toList := by
  cases s with
  | piece text =>
    rw [Stroke.text?, Option.toList_some, String.join_cons, String.join_nil, String.append_empty]
    rfl
  | begun => exact String.append_empty.symm
  | nextIsFirst value => exact String.append_empty.symm

/-- The pieces that are written come first. If others are left, the next one did not fit. -/
theorem exists_accepted (strokes : List Stroke) (hcapacity : w.sink.capacity = some n)
    (hfits : w.sink.written.utf8ByteSize ≤ n) :
    ∃ accepted rest, Stroke.pieces strokes = accepted ++ rest ∧
      (w.perform strokes).2.sink.written = w.sink.written ++ String.join accepted ∧
      (w.perform strokes).2.sink.written.utf8ByteSize ≤ n ∧
      (w.perform strokes).1 = (if rest = [] then .ok () else .error Sink.full) ∧
      ∀ rejected ∈ rest.head?,
        n < ((w.perform strokes).2.sink.written ++ rejected).utf8ByteSize := by
  -- the sink stays within its limit, so that each stroke meets the next with the same question
  induction strokes generalizing w with
  | nil => exact ⟨[], [], rfl, String.append_empty.symm, hfits, rfl, by simp⟩
  | cons s strokes ih =>
    by_cases hroom : ∀ text, s = .piece text → w.sink.hasRoom text = true
    · have hfits' : (w.after s).sink.written.utf8ByteSize ≤ n := by
        cases s with
        | piece text => exact (Sink.hasRoom_iff hcapacity text).mp (hroom text rfl)
        | begun => exact hfits
        | nextIsFirst value => exact hfits
      obtain ⟨accepted, rest, hpieces, hwritten, hall⟩ := ih (capacity_after.trans hcapacity) hfits'
      rw [perform_cons_of_room hroom]
      refine ⟨s.text?.toList ++ accepted, rest, ?_, ?_, hall⟩
      · rw [Stroke.pieces_cons, hpieces, List.append_assoc]
      · rw [hwritten, written_after, String.join_append, String.append_assoc]
    · -- the piece is the last that is tried
      push Not at hroom
      obtain ⟨text, rfl, hfull⟩ := hroom
      have hperform : w.perform (.piece text :: strokes) = (.error Sink.full, w) := by
        rw [perform, Sink.write, if_neg hfull]
      rw [hperform]
      refine ⟨[], text :: Stroke.pieces strokes, rfl, String.append_empty.symm, hfits, rfl, ?_⟩
      rintro rejected ⟨⟩
      exact Nat.lt_of_not_le fun hle => hfull ((Sink.hasRoom_iff hcapacity text).mpr hle)

/-- Nothing is left exactly if all pieces together fit. -/
theorem rest_eq_nil_iff {accepted rest : List String}
    (hfits : (String.join accepted).utf8ByteSize ≤ n)
    (hrejected : ∀ rejected ∈ rest.head?, n < (String.join accepted ++ rejected).utf8ByteSize) :
    rest = [] ↔ (String.join (accepted ++ rest)).utf8ByteSize ≤ n := by
  cases rest with
  | nil => rwa [List.append_nil, eq_self_iff_true, true_iff]
  | cons rejected later =>
    have hlt := hrejected rejected rfl
    rw [String.utf8ByteSize_append] at hlt
    rw [String.join_append, String.join_cons, String.utf8ByteSize_append,
      String.utf8ByteSize_append]
    simp only [List.cons_ne_nil, false_iff]
    omega

theorem written_afterAll_eq :
    (w.afterAll strokes).sink.written = w.sink.written ++ String.join (Stroke.pieces strokes) := by
  induction strokes generalizing w with
  | nil => exact String.append_empty.symm
  | cons s strokes ih =>
    have hrest := ih (w := w.after s)
    rwa [written_after, String.append_assoc, ← String.join_append, ← Stroke.pieces_cons] at hrest

/-! ## Strokes for a result -/

/-- Performs strokes, for something to return once they are done. -/
def performFor (w : Writer) (strokes : List Stroke) (x : α) : Except AuditError α × Writer :=
  match w.perform strokes with
  | (.ok (), w) => (.ok x, w)
  | (.error e, w) => (.error e, w)

theorem performFor_eq (w : Writer) (strokes : List Stroke) (x : α) : w.performFor strokes x =
    ((w.perform strokes).1.map fun () => x, (w.perform strokes).2) := by
  rw [performFor]
  split <;> next h => rw [h]; rfl

theorem performFor_unit (w : Writer) (strokes : List Stroke) :
    w.performFor strokes () = w.perform strokes := by
  rw [performFor]
  split <;> next h => exact h.symm

theorem perform_append : w.perform (strokes ++ strokes') =
    match w.perform strokes with
    | (.ok (), w) => w.perform strokes'
    | (.error e, w) => (.error e, w) := by
  induction strokes generalizing w with
  | nil => rfl
  | cons s strokes ih =>
    cases s with
    | piece text =>
      rw [List.cons_append, perform, perform]
      cases w.sink.write text with
      | some sink => exact ih
      | none => rfl
    | begun => exact ih
    | nextIsFirst value => exact ih

/-- Strokes are all done, and then others can be; or a piece is rejected, and nothing is done after
it. -/
theorem performFor_append (w : Writer) (strokes : List Stroke) (x : α) :
    (w.performFor strokes x = (.ok x, w.afterAll strokes) ∧
      ∀ (strokes' : List Stroke) (y : β),
        w.performFor (strokes ++ strokes') y = (w.afterAll strokes).performFor strokes' y) ∨
    ∃ e w', w.performFor strokes x = (.error e, w') ∧
      ∀ (strokes' : List Stroke) (y : β), w.performFor (strokes ++ strokes') y = (.error e, w') := by
  simp only [performFor, perform_append]
  generalize hperform : w.perform strokes = outcome
  obtain ⟨result, w'⟩ := outcome
  cases result with
  | error e => exact Or.inr ⟨e, w', rfl, fun _ _ => rfl⟩
  | ok =>
    obtain rfl := perform_ok hperform
    exact Or.inl ⟨rfl, fun _ _ => rfl⟩

/-! ## Writers that differ in their sinks -/

/-- A writer with another sink. -/
def onto (w : Writer) (sink : Sink) : Writer :=
  { w with sink }

theorem exists_afterAll_onto (w : Writer) (strokes : List Stroke) (sink : Sink) :
    ∃ sink', (w.onto sink).afterAll strokes = (w.afterAll strokes).onto sink' := by
  induction strokes generalizing w sink with
  | nil => exact ⟨sink, rfl⟩
  | cons s strokes ih =>
    have hstep : (w.onto sink).after s = (w.after s).onto ((w.onto sink).after s).sink := by
      cases s <;> rfl
    obtain ⟨sink', hrest⟩ := ih (w.after s) ((w.onto sink).after s).sink
    exact ⟨sink', (congrArg (·.afterAll strokes) hstep).trans hrest⟩

end Writer

namespace Report

variable {b : Basis} {rules : List CategoryRule} {ledger : Ledger} {w : Writer}

/-! ## What a report has its writer do -/

/-- The strokes of a chain, unless chains wait for their groups to be complete. -/
def strokesNow (w : Writer) (c : Chain) : List Stroke :=
  if w.grouping == .none then w.opening ++ Writer.item w.json w.isFirst c else []

/-- The strokes of chains that come one after the other. -/
def strokesOf : List Chain → Writer → List Stroke
  | [], _ => []
  | c :: cs, w => strokesNow w c ++ strokesOf cs (w.afterAll (strokesNow w c))

/-- The strokes of the groups of a ledger, if chains are grouped. -/
def strokesGathered (b : Basis) (ledger : Ledger) (w : Writer) : List Stroke :=
  if w.grouping == .none then []
  else
    let body := Writer.groups w.json b.program.display ledger.takeGroups.1
    w.opening ++ if w.json then .piece "\x7b\n" :: body ++ [.piece "\n", .piece "\x7d\n"] else body

/-- The strokes after the last chain. -/
def strokesAtEnd (b : Basis) (ledger : Ledger) (w : Writer) : List Stroke :=
  strokesGathered b ledger w ++ (w.afterAll (strokesGathered b ledger w)).closing

/-- What is left of a ledger at the end. -/
def leftOver (ledger : Ledger) (w : Writer) : Ledger :=
  if w.grouping == .none then ledger else ledger.takeGroups.2

/-- All strokes of a report. -/
def strokes (b : Basis) (rules : List CategoryRule) (es : List Entry) (ledger : Ledger)
    (w : Writer) : List Stroke :=
  strokesOf (es.map Entry.chain) w ++
    strokesAtEnd b (es.foldl (Ledger.enter b.program rules) ledger)
      (w.afterAll (strokesOf (es.map Entry.chain) w))

theorem strokesOf_onto (cs : List Chain) (w : Writer) (sink : Sink) :
    strokesOf cs (w.onto sink) = strokesOf cs w := by
  induction cs generalizing w sink with
  | nil => rfl
  | cons c cs ih =>
    obtain ⟨sink', hafter⟩ := w.exists_afterAll_onto (strokesNow w c) sink
    have hnow : strokesNow (w.onto sink) c = strokesNow w c := rfl
    rw [strokesOf, strokesOf, hnow, hafter, ih]

theorem strokesAtEnd_onto (b : Basis) (ledger : Ledger) (w : Writer) (sink : Sink) :
    strokesAtEnd b ledger (w.onto sink) = strokesAtEnd b ledger w := by
  obtain ⟨sink', hafter⟩ := w.exists_afterAll_onto (strokesGathered b ledger w) sink
  have hgathered : strokesGathered b ledger (w.onto sink) = strokesGathered b ledger w := rfl
  rw [strokesAtEnd, strokesAtEnd, hgathered, hafter]
  rfl

/-- The strokes of a report do not depend on the sink. -/
theorem strokes_onto (es : List Entry) (sink : Sink) :
    strokes b rules es ledger (w.onto sink) = strokes b rules es ledger w := by
  obtain ⟨sink', hafter⟩ := w.exists_afterAll_onto (strokesOf (es.map Entry.chain) w) sink
  rw [strokes, strokes, strokesOf_onto, hafter, strokesAtEnd_onto]

theorem writeNow_eq (w : Writer) (c : Chain) :
    writeNow w c = w.performFor (strokesNow w c) () := by
  unfold writeNow strokesNow
  split
  · exact (Writer.performFor_unit _ _).symm
  · rfl

theorem chains_eq {r : SearchResult} {destinations : List Nat} {es : List Entry}
    (hworded : (destinations.map fun d => (r, d)).mapM (entry b) = .ok es) :
    chains b rules r destinations ledger w =
      w.performFor (strokesOf (es.map Entry.chain) w)
        (es.foldl (Ledger.enter b.program rules) ledger) := by
  induction destinations generalizing es ledger w with
  | nil =>
    obtain rfl := Except.ok.inj hworded
    rfl
  | cons d destinations ih =>
    obtain ⟨e, es', hentry, hrest, rfl⟩ :=
      List.forall₂_cons_left_iff.mp (mapM_ok_iff.mp hworded)
    obtain ⟨hchain, hsource, hdestination⟩ := entry_ok hentry
    dsimp only at hchain hsource hdestination
    subst hdestination
    rw [chains, hchain, ← hsource, List.map_cons, strokesOf]
    dsimp only
    rw [writeNow_eq]
    obtain ⟨hdone, hall⟩ | ⟨error, w', hfull, hall⟩ :=
      w.performFor_append (strokesNow w e.chain) ()
    · rw [hdone, hall]
      exact ih (mapM_ok_iff.mpr hrest)
    · rw [hfull, hall]

/-- Strokes for some chains and then for others. -/
theorem strokesOf_append (cs cs' : List Chain) (w : Writer) :
    strokesOf (cs ++ cs') w = strokesOf cs w ++ strokesOf cs' (w.afterAll (strokesOf cs w)) := by
  induction cs generalizing w with
  | nil => rfl
  | cons c cs ih =>
    rw [List.cons_append, strokesOf, strokesOf, ih, List.append_assoc, Writer.afterAll,
      Writer.afterAll, Writer.afterAll, List.foldl_append]

theorem results_eq {rs : List SearchResult} {es : List Entry} (hworded : entries b rs = .ok es) :
    results b rules rs ledger w =
      w.performFor (strokesOf (es.map Entry.chain) w)
        (es.foldl (Ledger.enter b.program rules) ledger) := by
  induction rs generalizing es ledger w with
  | nil =>
    obtain rfl := Except.ok.inj hworded
    rfl
  | cons r rs ih =>
    obtain ⟨es₁, es₂, hfirst, hrest, rfl⟩ := forall₂_append_left_iff.mp (mapM_ok_iff.mp hworded)
    rw [results, chains_eq (mapM_ok_iff.mpr hfirst), List.map_append, strokesOf_append,
      List.foldl_append]
    obtain ⟨hdone, hall⟩ | ⟨error, w', hfull, hall⟩ :=
      w.performFor_append (strokesOf (es₁.map Entry.chain) w)
        (es₁.foldl (Ledger.enter b.program rules) ledger)
    · rw [hdone, hall]
      exact ih (mapM_ok_iff.mpr hrest)
    · rw [hfull, hall]

theorem writeGathered_eq : writeGathered b ledger w =
    w.performFor (strokesGathered b ledger w) (leftOver ledger w) := by
  unfold writeGathered strokesGathered leftOver
  split
  · rfl
  · dsimp only
    rw [Writer.writeGroups, Writer.performFor]
    split
    · next hfull => rw [hfull]
    · next hdone => rw [hdone]

theorem finish_eq : finish b ledger w =
    w.performFor (strokesAtEnd b ledger w) (leftOver ledger w) := by
  rw [finish, writeGathered_eq, strokesAtEnd]
  obtain ⟨hdone, hall⟩ | ⟨error, w', hfull, hall⟩ :=
    w.performFor_append (strokesGathered b ledger w) (leftOver ledger w)
  · rw [hdone, hall, Writer.performFor]
    dsimp only
    rw [Writer.finish]
    split
    · next hfull => rw [hfull]
    · next hdone => rw [hdone]
  · rw [hfull, hall]

/-- A report of entries performs its strokes. -/
theorem consume_eq {messages : List Message} {es : List Entry}
    (hworded : entries b (Message.results messages) = .ok es) :
    consume b rules messages ledger w = w.performFor (strokes b rules es ledger w)
      (leftOver (es.foldl (Ledger.enter b.program rules) ledger) w) := by
  rw [consume, results_eq hworded, strokes]
  obtain ⟨hdone, hall⟩ | ⟨error, w', hfull, hall⟩ :=
    w.performFor_append (strokesOf (es.map Entry.chain) w)
      (es.foldl (Ledger.enter b.program rules) ledger)
  · rw [hdone, hall]
    refine finish_eq.trans ?_
    rw [leftOver, leftOver, Writer.grouping_afterAll]
  · rw [hfull, hall]

end Report

/-- If every destination can be put into words, so can all together. -/
theorem Report.exists_entries {b : Basis} {rs : List SearchResult}
    (hworded : ∀ r ∈ rs, ∀ d ∈ r.destinations, ∃ ch, b.chain r d = .ok ch) :
    ∃ es, entries b rs = .ok es := by
  have hentry : ∀ finding ∈ findings rs, ∃ e, entry b finding = .ok e := by
    intro finding hfinding
    obtain ⟨hr, hd⟩ := mem_findings.mp hfinding
    obtain ⟨ch, hch⟩ := hworded _ hr _ hd
    exact ⟨⟨ch, finding.1.source, finding.2⟩, by rw [entry, hch]; rfl⟩
  obtain ⟨es, hes⟩ := exists_forall₂_iff.mpr hentry
  exact ⟨es, mapM_ok_iff.mpr hes⟩

/-- A report whose chains can all be put into words has its writer do the same whatever the sink. With
room for `n` bytes it succeeds if the whole text fits and otherwise fails with the sink. Either way what
is written is a beginning of the whole text, and it ends before the first piece that does not fit. -/
theorem limited_sink_takes_prefix {b : Basis} {messages : List Message} (rules : List CategoryRule)
    (json : Bool) (grouping : Grouping) (ledger : Ledger)
    (hworded : ∀ r ∈ Message.results messages, ∀ d ∈ r.destinations, ∃ ch, b.chain r d = .ok ch) :
    ∃ strokes ledger' whole,
      (∀ sink,
        Report.consume b rules messages ledger { sink, json, grouping } =
            Writer.performFor { sink, json, grouping } strokes ledger' ∧
          Report.run b rules messages none ledger { sink, json, grouping } =
            Report.consume b rules messages ledger { sink, json, grouping }) ∧
      Report.consume b rules messages ledger { json, grouping } = (.ok ledger', whole) ∧
      ∀ n outcome w,
        Report.consume b rules messages ledger { sink := { capacity := some n }, json, grouping } =
          (outcome, w) →
        outcome = (if whole.sink.written.utf8ByteSize ≤ n then .ok ledger' else .error Sink.full) ∧
          w.sink.written.toList <+: whole.sink.written.toList ∧
          ∃ accepted rest, Stroke.pieces strokes = accepted ++ rest ∧
            w.sink.written = String.join accepted ∧
            ∀ rejected ∈ rest.head?, n < (w.sink.written ++ rejected).utf8ByteSize := by
  obtain ⟨es, hes⟩ := Report.exists_entries hworded
  let fresh : Writer := { json, grouping }
  let strokes := Report.strokes b rules es ledger fresh
  let ledger' := Report.leftOver (es.foldl (Ledger.enter b.program rules) ledger) fresh
  have hconsume (sink : Sink) : Report.consume b rules messages ledger (fresh.onto sink) =
      (fresh.onto sink).performFor strokes ledger' := by
    rw [Report.consume_eq hes, Report.strokes_onto]
    rfl
  have hwhole : Report.consume b rules messages ledger fresh =
      (.ok ledger', fresh.afterAll strokes) := by
    rw [Report.consume_eq hes, Writer.performFor_eq, Writer.perform_unlimited rfl]
    rfl
  have hwritten : (fresh.afterAll strokes).sink.written = String.join (Stroke.pieces strokes) :=
    Writer.written_afterAll_eq.trans String.empty_append
  refine ⟨strokes, ledger', _, fun sink => ⟨hconsume sink, Report.run_none⟩, hwhole, ?_⟩
  intro n outcome w hlimited
  obtain ⟨accepted, rest, hpieces, haccepted, hfits, hresult, hrejected⟩ :=
    Writer.exists_accepted (w := fresh.onto { capacity := some n }) strokes rfl (Nat.zero_le n)
  obtain ⟨rfl, rfl⟩ := Prod.mk.inj
    (hlimited.symm.trans ((hconsume _).trans (Writer.performFor_eq _ _ _)))
  replace haccepted := haccepted.trans String.empty_append
  rw [haccepted] at hfits hrejected ⊢
  rw [hwritten, hpieces]
  refine ⟨?_, ?_, accepted, rest, rfl, rfl, hrejected⟩
  · rw [hresult, ← if_congr (Writer.rest_eq_nil_iff hfits hrejected) rfl rfl]
    split <;> rfl
  · rw [String.join_append, String.toList_append]
    exact List.prefix_append _ _

/-- A single type, of which nothing is known. -/
def Basis.oneType : Basis where
  program := {}
  graph := {}
  snapshot := { nodes := #[.type 0] }

/-- A result that leads twice from the type to itself. -/
def Message.twice : List Message :=
  [.result { prev := #[0], dist := #[some 0], destinations := [0, 0], source := 0 }, .done]

/-- After the first chain and its comma there is room for one byte more. The line break before the end
has that size, but it comes after the chain that did not fit. -/
theorem limited_sink_takes_prefix_twice :
    (∀ r ∈ Message.results Message.twice, ∀ d ∈ r.destinations,
      ∃ ch, Basis.oneType.chain r d = .ok ch) ∧
    ∃ (ledger : Ledger) (whole w : Writer),
      Report.consume .oneType [] Message.twice {} { json := true } = (.ok ledger, whole) ∧
      Report.consume .oneType [] Message.twice {} { sink := { capacity := some 54 }, json := true } =
        (.error Sink.full, w) ∧
      w.sink.written.toList <+: whole.sink.written.toList ∧
      whole.sink.written.utf8ByteSize = 105 ∧ w.sink.written.utf8ByteSize = 53 := by
  have hworded : ∀ r ∈ Message.results Message.twice, ∀ d ∈ r.destinations,
      ∃ ch, Basis.oneType.chain r d = .ok ch := by
    intro r hr d hd
    obtain rfl := List.mem_singleton.mp hr
    obtain rfl : d = 0 := by simpa using hd
    exact ⟨_, rfl⟩
  have hwholeSize : (Report.consume .oneType [] Message.twice {}
      { json := true }).2.sink.written.utf8ByteSize = 105 := by decide +kernel
  have hsize : (Report.consume .oneType [] Message.twice {}
      { sink := { capacity := some 54 }, json := true }).2.sink.written.utf8ByteSize = 53 := by
    decide +kernel
  obtain ⟨strokes, ledger, whole, -, hwhole, hall⟩ :=
    limited_sink_takes_prefix [] true .none {} hworded
  obtain ⟨hresult, hbeginning, -⟩ := hall 54 _ _ rfl
  rw [hwhole] at hwholeSize
  rw [if_neg (by rw [hwholeSize]; decide)] at hresult
  exact ⟨hworded, ledger, whole, _, hwhole, Prod.ext hresult rfl, hbeginning, hwholeSize, hsize⟩

end CallAudit

import CallAudit.Proofs.Classifier.Matching
import CallAudit.Proofs.Pattern.Stem

/-!
# Rules that cannot meet

An outline of a rule says how the names begin that the rule is about, and how many parameters it asks
for.  Where two outlines are clear of each other, no method is given different reasons by rules that
fit them (`Rule.Fits.same_reason`).  Outlines are computed from a table without looking at a method,
so a table can be searched for rules that might meet (`Outline.allClear`).
-/

namespace CallAudit

/-! ## Texts of one byte for each character -/

namespace Text

/-- The characters that bytes stand for, if each stands for one. -/
def ofBytes? : List UInt8 → Option (List Char)
  | [] => some []
  | b :: bytes =>
      if b.toNat < 128 then (ofBytes? bytes).map (Char.ofNat b.toNat :: ·) else none

/-- The characters of a text, if each takes one byte. -/
def spelling? (s : String) : Option (List Char) :=
  ofBytes? s.toByteArray.data.toList

/-- A character takes one byte, which is its number, or begins with a byte that is no character. -/
theorem utf8EncodeChar_cases (c : Char) :
    (∃ b : UInt8, String.utf8EncodeChar c = [b] ∧ Char.ofNat b.toNat = c) ∨
      ∃ b bytes, String.utf8EncodeChar c = b :: bytes ∧ ¬ b.toNat < 128 := by
  have hbyte : ∀ n, n < 256 → (UInt8.ofNat n).toNat = n := fun n hn => by
    rw [UInt8.toNat_ofNat', Nat.mod_eq_of_lt hn]
  unfold String.utf8EncodeChar
  dsimp only
  split
  · next hone =>
    refine Or.inl ⟨_, rfl, ?_⟩
    rw [hbyte _ (by omega)]
    exact Char.ofNat_toNat c
  · right
    split
    · exact ⟨_, _, rfl, by rw [hbyte _ (by omega)]; omega⟩
    split
    · exact ⟨_, _, rfl, by rw [hbyte _ (by omega)]; omega⟩
    · exact ⟨_, _, rfl, by rw [hbyte _ (by omega)]; omega⟩

theorem ofBytes?_utf8 {cs cs' : List Char}
    (h : ofBytes? (cs.flatMap String.utf8EncodeChar) = some cs') : cs = cs' := by
  induction cs generalizing cs' with
  | nil => exact Option.some.inj h
  | cons c cs ih =>
    rw [List.flatMap_cons] at h
    rcases utf8EncodeChar_cases c with ⟨b, hc, hb⟩ | ⟨b, bytes, hc, hb⟩
    · rw [hc, List.singleton_append, ofBytes?] at h
      split at h
      · obtain ⟨rest, hrest, rfl⟩ := Option.map_eq_some_iff.mp h
        rw [hb, ih hrest]
      · cases h
    · rw [hc, List.cons_append, ofBytes?, if_neg hb] at h
      cases h

theorem toList_of_spelling? {s : String} {cs : List Char} (h : spelling? s = some cs) :
    s.toList = cs := by
  refine ofBytes?_utf8 ?_
  rwa [spelling?, ← String.utf8Encode_toList, List.utf8Encode, List.toList_data_toByteArray] at h

end Text

/-! ## Outlines -/

/-- Reads a pattern whose notation is given by its characters. -/
def Pattern.readChars (cs : List Char) : Option Pattern :=
  match readGroup (cs.length + 1) {} cs with
  | some (p, []) => p.finish.toPattern?
  | _ => none

theorem Pattern.read_eq (s : String) : read s = readChars s.toList := rfl

/-- How the names begin that a test accepts, given as it is written. -/
def NameTest.stems? : (exact pattern : Option String) → Option (List Stem)
  | some _, some _ => none
  | some name, none => (Text.spelling? name).map fun cs => [⟨cs, true⟩]
  | none, some written =>
      ((Text.spelling? written).bind Pattern.readChars).map Pattern.textStems
  | none, none => some [.unknown]

/-- What is known of the methods that a rule is about, and what the rule says of them. -/
structure Outline where
  types : List Stem
  members : List Stem
  counts : Option (List Nat)
  family : RuleFamily
  reason : Option Reason

namespace Outline

/-- The outline of a rule that makes sense and is about something. -/
def ofSpec? (spec : RuleSpec) : Option Outline :=
  match NameTest.stems? spec.declaringType spec.declaringTypePattern,
      NameTest.stems? spec.member spec.memberPattern, Outcome.ofSpec 1 spec with
  | some types, some members, .ok outcome =>
      if spec.declaringType.isNone && spec.declaringTypePattern.isNone then none
      else some {
        types, members
        counts := spec.parameters
        family := spec.family
        reason := outcome.reason? }
  | _, _, _ => none

/-- Whether no name is covered by a stem of either list. -/
def namesApart (ss ts : List Stem) : Bool := ss.all fun s => ts.all s.apart

/-- Whether no number is in both lists, where both are given. -/
def countsApart : (ms ns : Option (List Nat)) → Bool
  | some ms, some ns => ms.all fun m => !ns.contains m
  | _, _ => false

/-- Whether a rule is a broad bucket. -/
def isBroad (o : Outline) : Bool := o.family == .catchAll

/-- Whether no method is given different reasons by rules of two outlines. -/
def clear (a b : Outline) : Bool :=
  a.reason.isNone || b.reason.isNone || a.isBroad != b.isBroad || namesApart a.types b.types ||
    namesApart a.members b.members || countsApart a.counts b.counts || a.reason == b.reason

/-- Whether all outlines are clear of each other. -/
def allClear : List Outline → Bool
  | [] => true
  | o :: os => os.all o.clear && allClear os

end Outline

/-- A rule is as its outline says. -/
structure Rule.Fits (r : Rule) (o : Outline) : Prop where
  type : ∀ name, r.declaringType.accepts name = true → ∃ s ∈ o.types, s.Covers name.toList
  member : ∀ name, r.member.accepts name = true → ∃ s ∈ o.members, s.Covers name.toList
  counts : r.parameters = o.counts
  family : r.family = o.family
  reason : r.outcome.reason? = o.reason

/-! ## Rules fit their outlines -/

theorem NameTest.exists_of_stems? {exact pattern : Option String} {stems : List Stem}
    (h : stems? exact pattern = some stems) (what : String) :
    ∃ test, NameTest.ofSpec what exact pattern = .ok test ∧
      ∀ name, test.accepts name = true → ∃ s ∈ stems, s.Covers name.toList := by
  unfold stems? at h
  split at h
  · cases h
  · next wanted =>
    obtain ⟨cs, hcs, rfl⟩ := Option.map_eq_some_iff.mp h
    refine ⟨.exactly wanted, rfl, fun name hname => ⟨_, List.mem_singleton.mpr rfl, ?_⟩⟩
    -- a name that is given in full is all of its stem
    obtain rfl : wanted = name := by simpa [accepts] using hname
    rw [Text.toList_of_spelling? hcs]
    exact Stem.covers_self cs
  · next written =>
    obtain ⟨p, hp, rfl⟩ := Option.map_eq_some_iff.mp h
    obtain ⟨cs, hcs, hp⟩ := Option.bind_eq_some_iff.mp hp
    refine ⟨.matching p, ?_, fun name hname => Pattern.exists_stem_of_occursIn hname⟩
    rw [NameTest.ofSpec, Pattern.read_eq, Text.toList_of_spelling? hcs, hp]
  · obtain rfl := Option.some.inj h
    exact ⟨.any, rfl, fun name _ => ⟨_, List.mem_singleton.mpr rfl, Stem.covers_unknown⟩⟩

theorem NameTest.ne_any_of_ofSpec {what : String} {exact pattern : Option String} {test : NameTest}
    (h : NameTest.ofSpec what exact pattern = .ok test)
    (hnamed : ¬(exact.isNone && pattern.isNone) = true) : test ≠ .any := by
  rintro rfl
  unfold NameTest.ofSpec at h
  split at h
  · cases h
  · cases h
  · split at h <;> cases h
  · exact hnamed rfl

/-- A rule that has an outline makes sense and fits it. -/
theorem Outline.exists_rule {spec : RuleSpec} {o : Outline} (h : ofSpec? spec = some o) :
    ∃ r, Rule.ofSpec 1 spec = .ok r ∧ r.Fits o := by
  unfold ofSpec? at h
  split at h
  next types members outcome htypes hmembers houtcome =>
    split at h
    · cases h
    next hnamed =>
      obtain rfl := Option.some.inj h
      obtain ⟨declaringType, htype, htype'⟩ := NameTest.exists_of_stems? htypes "declaring_type"
      obtain ⟨member, hmember, hmember'⟩ := NameTest.exists_of_stems? hmembers "member"
      have hany : ¬(declaringType = .any ∧ member = .any) := fun hboth =>
        NameTest.ne_any_of_ofSpec htype hnamed hboth.1
      let r : Rule := {
        declaringType, member, outcome
        parameters := spec.parameters
        parameterTypes := spec.parameterTypes
        anyParameterType := spec.anyParameterType
        family := spec.family }
      refine ⟨r, ?_, htype', hmember', rfl, rfl, rfl⟩
      simp only [Rule.ofSpec, htype, hmember, houtcome, bind, Except.bind, if_neg hany]
      rfl
  · cases h

/-! ## Rules that are clear of each other -/

theorem Outline.not_covers_of_namesApart {ss ts : List Stem} {name : List Char}
    (h : namesApart ss ts = true) (hs : ∃ s ∈ ss, s.Covers name) (ht : ∃ t ∈ ts, t.Covers name) :
    False := by
  obtain ⟨s, hs, hcovers⟩ := hs
  obtain ⟨t, ht, hcovers'⟩ := ht
  have hapart : s.apart t = true := List.all_eq_true.mp (List.all_eq_true.mp h s hs) t ht
  exact Stem.not_covers_of_apart hapart hcovers hcovers'

/-- The families that decide together: all broad buckets, or none. -/
def DecideTogether (families : List RuleFamily) : Prop :=
  ∃ broad, ∀ family ∈ families, (family == .catchAll) = broad

theorem decideTogether_specific : DecideTogether [.annotated, .detectedApi] :=
  ⟨false, by decide⟩

theorem decideTogether_broad : DecideTogether [.catchAll] :=
  ⟨true, by decide⟩

/-- Where rules cannot decide, some of those that decide together give different reasons. -/
theorem RuleSet.nontrivial_of_reasonFor_error {s : RuleSet} {id : MethodId} {m : Method}
    {e : AuditError} (h : s.reasonFor id m = .error e) :
    ∃ families, DecideTogether families ∧ (s.reasons families m).Nontrivial := by
  by_cases hsafe : s.HasMatch .safe m
  · cases h.symm.trans (reasonFor_of_safe hsafe)
  by_cases hsilent : s.reasons [.annotated, .detectedApi] m = ∅
  · rw [reasonFor_of_silent hsafe hsilent] at h
    split at h
    · cases h
    split at h
    · cases h
    · exact ⟨_, decideTogether_broad, nontrivial_of_agreed_error h⟩
  · rw [reasonFor_of_specific hsafe hsilent] at h
    exact ⟨_, decideTogether_specific, nontrivial_of_agreed_error h⟩

namespace Rule

variable {r r' : Rule} {a b : Outline} {families : List RuleFamily} {m : Method} {x y : Reason}

theorem accepts_iff : r.accepts m = true ↔
    r.declaringType.accepts m.declaringType = true ∧ r.member.accepts m.name = true ∧
      r.parameters.all (·.contains m.parameters.length) = true ∧
      r.parameterTypes.all (leadingTypesMatch · (m.parameters.map (·.typeName))) = true ∧
      r.anyParameterType.all (m.parameters.map (·.typeName)).contains = true := by
  simp [accepts, and_assoc]

/-- What a rule gives as a reason is in its outline. -/
theorem Fits.reason_of_gives (hr : r.Fits a) (hg : r.Gives families m x) : a.reason = some x := by
  rw [← hr.reason, hg.outcome]
  rfl

/-- Rules whose outlines are clear of each other agree wherever they decide together. -/
theorem Fits.same_reason (hr : r.Fits a) (hr' : r'.Fits b) (h : a.clear b = true)
    (hfamilies : DecideTogether families) (hg : r.Gives families m x) (hg' : r'.Gives families m y) :
    x = y := by
  obtain ⟨broad, hbroad⟩ := hfamilies
  obtain ⟨htype, hmember, hcount, -⟩ := accepts_iff.mp hg.accepts
  obtain ⟨htype', hmember', hcount', -⟩ := accepts_iff.mp hg'.accepts
  have hx : a.reason = some x := hr.reason_of_gives hg
  have hy : b.reason = some y := hr'.reason_of_gives hg'
  have hlevel : a.isBroad = b.isBroad := by
    rw [Outline.isBroad, Outline.isBroad, ← hr.family, ← hr'.family, hbroad _ hg.family,
      hbroad _ hg'.family]
  have htypes : ¬ Outline.namesApart a.types b.types = true := fun hapart =>
    Outline.not_covers_of_namesApart hapart (hr.type _ htype) (hr'.type _ htype')
  have hmembers : ¬ Outline.namesApart a.members b.members = true := fun hapart =>
    Outline.not_covers_of_namesApart hapart (hr.member _ hmember) (hr'.member _ hmember')
  have hcounts : ¬ Outline.countsApart a.counts b.counts = true := by
    intro hapart
    rw [hr.counts] at hcount
    rw [hr'.counts] at hcount'
    unfold Outline.countsApart at hapart
    split at hapart
    · next ms ns hms hns =>
      rw [hms] at hcount
      rw [hns] at hcount'
      have hnot := List.all_eq_true.mp hapart _ (List.contains_iff_mem.mp hcount)
      rw [Option.all_some] at hcount'
      rw [hcount'] at hnot
      cases hnot
    · cases hapart
  -- of all that makes outlines clear of each other, only the same reason is left
  simpa [Outline.clear, hx, hy, hlevel, htypes, hmembers, hcounts] using h

end Rule

namespace Outline

/-- Rules that fit two outlines agree wherever they decide together. -/
def Agree (a b : Outline) : Prop :=
  ∀ (r r' : Rule) (families : List RuleFamily) (m : Method) (x y : Reason), r.Fits a → r'.Fits b →
    DecideTogether families → r.Gives families m x → r'.Gives families m y → x = y

theorem agree_self (o : Outline) : o.Agree o := by
  intro r r' families m x y hr hr' _ hg hg'
  exact Option.some.inj ((hr.reason_of_gives hg).symm.trans (hr'.reason_of_gives hg'))

theorem Agree.symm {a b : Outline} (h : a.Agree b) : b.Agree a :=
  fun r r' families m x y hr hr' hfamilies hg hg' =>
    (h r' r families m y x hr' hr hfamilies hg' hg).symm

theorem agree_of_clear {a b : Outline} (h : a.clear b = true) : a.Agree b :=
  fun _ _ _ _ _ _ hr hr' => hr.same_reason hr' h

theorem allClear_iff_pairwise {os : List Outline} :
    allClear os = true ↔ os.Pairwise fun a b => a.clear b = true := by
  induction os with
  | nil => exact iff_of_true rfl .nil
  | cons o os ih =>
    rw [allClear, Bool.and_eq_true, List.all_eq_true, List.pairwise_cons, ih]

theorem agree_of_allClear {os : List Outline} (h : allClear os = true) {a b : Outline} (ha : a ∈ os)
    (hb : b ∈ os) : a.Agree b := by
  induction os with
  | nil => cases ha
  | cons o os ih =>
    rw [allClear, Bool.and_eq_true] at h
    have hfirst : ∀ c ∈ os, o.Agree c := fun c hc =>
      agree_of_clear (List.all_eq_true.mp h.1 c hc)
    rcases List.mem_cons.mp ha with hao | ha
    · rcases List.mem_cons.mp hb with hbo | hb
      · rw [hao, hbo]
        exact agree_self o
      · rw [hao]
        exact hfirst b hb
    · rcases List.mem_cons.mp hb with hbo | hb
      · rw [hbo]
        exact (hfirst a ha).symm
      · exact ih h.2 ha hb

end Outline

end CallAudit

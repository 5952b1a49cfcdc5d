import CallAudit.Proofs.Facts.Meaning

/-!
# Tables that requests fill

A program is filled by requests to enter a row, or to have a place for a text.  Whatever the requests
were, a text has one place for good, and the row under it is the first that was put forward with a
description, or the first of all as long as none has one (`tables_kept`).
-/

namespace CallAudit

/-- A request to a program: to enter a row, or to have a place for a text. -/
inductive Request where
  | addMethod (row : Method)
  | addType (row : TypeRow)
  | ensureMethod (key : String)
  | ensureType (fullName : String)

namespace Request

/-- What a request is about. -/
def subject : Request → Reference
  | addMethod row => .method row.key
  | addType row => .type row.fullName
  | ensureMethod key => .method key
  | ensureType fullName => .type fullName

/-- The keys that some requests are about. -/
def keys (rs : List Request) : List String :=
  rs.filterMap (·.subject.key?)

/-- The method that a request puts forward.  A key that came up before is only looked up. -/
def method? (known : List String) : Request → Option Method
  | addMethod row => some row
  | ensureMethod key => if key ∈ known then none else some (.placeholder key)
  | _ => none

/-- The type that comes with a method. -/
def declaring? (row : Method) : Option TypeRow :=
  if row.declaringType.isEmpty then none else some (.placeholder row.declaringType)

/-- The type that a request puts forward: its own, or the one that declares the method that it puts
forward. -/
def type? (known : List String) : Request → Option TypeRow
  | addMethod row => declaring? row
  | addType row => some row
  | ensureMethod key => if key ∈ known then none else declaring? (.placeholder key)
  | ensureType fullName => some (.placeholder fullName)

/-- What requests put forward one after the other, each after the keys of those before it. -/
def offers {α : Type} (offer? : List String → Request → Option α) (known : List String) :
    List Request → List α
  | [] => []
  | r :: rs => (offer? known r).toList ++ offers offer? (known ++ keys [r]) rs

/-- The methods that some requests put forward. -/
def methods (rs : List Request) : List Method :=
  offers method? [] rs

/-- The types that some requests put forward. -/
def types (rs : List Request) : List TypeRow :=
  offers type? [] rs

theorem offers_append {α : Type} (offer? : List String → Request → Option α) (known : List String)
    (rs rs' : List Request) : offers offer? known (rs ++ rs') =
      offers offer? known rs ++ offers offer? (known ++ keys rs) rs' := by
  induction rs generalizing known with
  | nil =>
    rw [keys, List.filterMap_nil, List.append_nil]
    rfl
  | cons r rs ih =>
    have hkeys : keys (r :: rs) = keys [r] ++ keys rs := List.filterMap_append (l := [r])
    rw [List.cons_append, offers, offers, ih, hkeys, List.append_assoc, List.append_assoc]

theorem offers_concat {α : Type} (offer? : List String → Request → Option α) (rs : List Request)
    (r : Request) :
    offers offer? [] (rs ++ [r]) = offers offer? [] rs ++ (offer? (keys rs) r).toList := by
  rw [offers_append, offers, offers, List.append_nil, List.nil_append]

end Request

/-! ## The row that stands -/

section Rows

variable {α : Type} (text : α → String) (described : α → Bool)

/-- Of rows that are put forward one after the other the first with a description stands, or the first
of all as long as none has one. -/
def standing (offered : List α) : Option α :=
  (offered.find? described).or offered.head?

/-- A row after another was put forward under its text. -/
def completed (old row : α) : α :=
  if !described old && described row then row else old

/-- Completes the row under the text of a new one, or appends the new one if its text is new. -/
def enterRow : List α → α → List α
  | [], row => [row]
  | old :: rows, row =>
      if text old = text row then completed described old row :: rows
      else old :: enterRow rows row

variable {text described}

theorem standing_concat (offered : List α) (row : α) : standing described (offered ++ [row]) =
    some ((standing described offered).elim row fun old => completed described old row) := by
  unfold standing completed
  rw [List.find?_append, List.head?_append]
  cases hfind : offered.find? described with
  | some old =>
    -- a row that has a description stands
    have hold : described old = true := List.find?_some hfind
    simp [hold]
  | none =>
    cases hhead : offered.head? with
    | none => cases hrow : described row <;> simp [hrow]
    | some old =>
      have hmem : old ∈ offered := List.mem_of_mem_head? (Option.mem_def.mpr hhead)
      have hold : described old = false := by
        have := List.find?_eq_none.mp hfind old hmem
        simpa using this
      cases hrow : described row <;> simp [hold, hrow]

theorem mem_of_standing {offered : List α} {row : α} (h : standing described offered = some row) :
    row ∈ offered := by
  unfold standing at h
  cases hfind : offered.find? described with
  | some old =>
    rw [hfind, Option.some_or] at h
    exact Option.some.inj h ▸ List.mem_of_find?_eq_some hfind
  | none =>
    rw [hfind, Option.none_or] at h
    exact List.mem_of_mem_head? (Option.mem_def.mpr h)

theorem text_completed {old row : α} (h : text old = text row) :
    text (completed described old row) = text row := by
  unfold completed
  split
  · rfl
  · exact h

theorem find?_enterRow (rows : List α) (row : α) (key : String) :
    (enterRow text described rows row).find? (text · == key) =
      if text row = key then
        some ((rows.find? (text · == key)).elim row fun old => completed described old row)
      else rows.find? (text · == key) := by
  induction rows with
  | nil =>
    rw [enterRow, List.find?_singleton]
    simp
  | cons old rows ih =>
    rw [enterRow]
    by_cases hold : text old = text row
    · rw [if_pos hold, List.find?_cons, List.find?_cons, text_completed hold, hold]
      by_cases hkey : text row = key
      · simp [hkey]
      · have hbeq : (text row == key) = false := beq_eq_false_iff_ne.mpr hkey
        simp only [hbeq, if_neg hkey]
    · rw [if_neg hold, List.find?_cons, List.find?_cons, ih]
      by_cases hkey : text old = key
      · -- what is looked for stands here, and the new row has another text
        have hrow : ¬text row = key := fun hrow => hold (hkey.trans hrow.symm)
        simp [hkey, hrow]
      · have hbeq : (text old == key) = false := beq_eq_false_iff_ne.mpr hkey
        simp only [hbeq]

/-- Entering a row is modifying the one that is found under its text. -/
theorem enterRow_eq (rows : List α) (row : α) : enterRow text described rows row =
    match rows.findIdx? (text · == text row) with
    | some i => rows.modify i (completed described · row)
    | none => rows ++ [row] := by
  induction rows with
  | nil => rfl
  | cons old rows ih =>
    rw [enterRow, List.findIdx?_cons, ih]
    by_cases hold : text old = text row
    · rw [if_pos hold, if_pos (beq_iff_eq.mpr hold)]
      exact (List.modify_zero_cons ..).symm
    · rw [if_neg hold, if_neg (mt beq_iff_eq.mp hold)]
      cases rows.findIdx? (text · == text row) <;> rfl

/-- Without a description a row changes nothing where there is one under its text. -/
theorem enterRow_of_undescribed {rows : List α} {row : α} (hrow : described row = false)
    (h : text row ∈ rows.map text) : enterRow text described rows row = rows := by
  induction rows with
  | nil => exact absurd h List.not_mem_nil
  | cons old rows ih =>
    rw [enterRow]
    split
    · rw [completed, hrow, Bool.and_false]
      rfl
    · next hold =>
      rw [List.map_cons, List.mem_cons] at h
      rw [ih (h.resolve_left (Ne.symm hold))]

/-- What is found among rows is what stands of the rows put forward, if that was so before the last. -/
theorem find?_elim_enterRow {rows offered : List α} {offer : Option α} {key : String}
    (h : rows.find? (text · == key) = standing described (offered.filter (text · == key))) :
    (offer.elim rows (enterRow text described rows)).find? (text · == key) =
      standing described ((offered ++ offer.toList).filter (text · == key)) := by
  cases offer with
  | none => rw [Option.elim_none, Option.toList_none, List.append_nil, h]
  | some row =>
    rw [Option.elim_some, Option.toList_some, find?_enterRow, List.filter_append,
      List.filter_singleton, h]
    by_cases hkey : text row = key
    · rw [if_pos hkey, beq_iff_eq.mpr hkey, cond_true, standing_concat]
    · rw [if_neg hkey, beq_eq_false_iff_ne.mpr hkey, cond_false, List.append_nil]

end Rows

/-! ## Tables after requests -/

namespace Program

variable {p : Program} {rs : List Request}

/-- Does what a request asks for, and answers with the place of what it is about. -/
def respond (p : Program) : Request → Nat × Program
  | .addMethod row => p.addMethod row
  | .addType row => p.addType row
  | .ensureMethod key => p.ensureMethod key
  | .ensureType fullName => p.ensureType fullName

/-- The program that some requests have filled. -/
def after (rs : List Request) : Program :=
  rs.foldl (fun p r => (p.respond r).2) {}

theorem after_concat (rs : List Request) (r : Request) :
    after (rs ++ [r]) = ((after rs).respond r).2 :=
  List.foldl_append

/-! ### Rows -/

theorem types_addType_eq (p : Program) (row : TypeRow) : (p.addType row).2.types =
    enterRow TypeRow.fullName TypeRow.described p.types row := by
  rw [enterRow_eq]
  unfold addType typeId?
  cases p.types.findIdx? (·.fullName == row.fullName) <;> rfl

theorem types_ensureType_eq (p : Program) (fullName : String) : (p.ensureType fullName).2.types =
    enterRow TypeRow.fullName TypeRow.described p.types (.placeholder fullName) := by
  by_cases hknown : fullName ∈ p.names
  · rw [ensureType_of_mem hknown, enterRow_of_undescribed rfl hknown]
  · have hid : p.typeId? fullName = none := typeId?_eq_none_iff.mpr hknown
    unfold ensureType
    rw [hid]
    exact types_addType_eq p _

theorem types_addMethod_eq (p : Program) (row : Method) : (p.addMethod row).2.types =
    if row.declaringType.isEmpty then p.types
    else enterRow TypeRow.fullName TypeRow.described p.types (.placeholder row.declaringType) := by
  rw [types_addMethod]
  unfold ensureDeclaringType
  split
  · rfl
  · exact types_ensureType_eq p _

/-- The types after a request are those before and the one that it puts forward. -/
theorem types_respond (p : Program) (r : Request) : (p.respond r).2.types =
    (r.type? p.keys).elim p.types (enterRow TypeRow.fullName TypeRow.described p.types) := by
  have hadd : ∀ row : Method, (p.addMethod row).2.types =
      (Request.declaring? row).elim p.types
        (enterRow TypeRow.fullName TypeRow.described p.types) := by
    intro row
    rw [types_addMethod_eq, Request.declaring?]
    cases row.declaringType.isEmpty <;> rfl
  cases r with
  | addMethod row => exact hadd row
  | addType row => exact types_addType_eq p row
  | ensureType fullName => exact types_ensureType_eq p fullName
  | ensureMethod key =>
    by_cases hkey : key ∈ p.keys
    · rw [Request.type?, if_pos hkey]
      exact congrArg Program.types (ensureMethod_of_mem hkey)
    · rw [Request.type?, if_neg hkey, ← hadd, respond, ensureMethod,
        methodId?_eq_none_iff.mpr hkey]

theorem keys_respond (p : Program) (r : Request) :
    (p.respond r).2.keys = Distinct.insertAll p.keys (Request.keys [r]) := by
  cases r with
  | addMethod row => exact keys_addMethod p row
  | addType row => exact congrArg (List.map Method.key) (methods_addType p row)
  | ensureMethod key => exact keys_ensureMethod p key
  | ensureType fullName => exact congrArg (List.map Method.key) (methods_ensureType p fullName)

/-- The keys of the methods are those that the requests were about. -/
theorem keys_after (rs : List Request) : (after rs).keys = Distinct.ofList (Request.keys rs) := by
  induction rs using List.reverseRecOn with
  | nil => rfl
  | append_singleton rs r ih =>
    have hkeys : Request.keys (rs ++ [r]) = Request.keys rs ++ Request.keys [r] :=
      List.filterMap_append
    rw [after_concat, keys_respond, ih, hkeys, Distinct.ofList_append]

theorem type?_after (rs : List Request) (r : Request) :
    r.type? (after rs).keys = r.type? (Request.keys rs) := by
  cases r with
  | ensureMethod key => simp only [Request.type?, keys_after, Distinct.mem_ofList]
  | addMethod row => rfl
  | addType row => rfl
  | ensureType fullName => rfl

theorem find?_types_after (rs : List Request) (fullName : String) :
    (after rs).types.find? (·.fullName == fullName) =
      standing TypeRow.described ((Request.types rs).filter (·.fullName == fullName)) := by
  induction rs using List.reverseRecOn with
  | nil => rfl
  | append_singleton rs r ih =>
    rw [after_concat, types_respond, type?_after, Request.types, Request.offers_concat]
    exact find?_elim_enterRow ih

/-! ### Places -/

theorem Interned.respond (h : p.Interned) (r : Request) : (p.respond r).2.Interned := by
  cases r with
  | addMethod row => exact h.addMethod row
  | addType row => exact h.addType row
  | ensureMethod key => exact h.ensureMethod key
  | ensureType fullName => exact h.ensureType fullName

theorem interned_after (rs : List Request) : (after rs).Interned := by
  induction rs using List.reverseRecOn with
  | nil => exact interned_empty
  | append_singleton rs r ih =>
    rw [after_concat]
    exact ih.respond r

theorem typeUnder_after {fullName : String} {row : TypeRow} : (after rs).TypeUnder fullName row ↔
    standing TypeRow.described ((Request.types rs).filter (·.fullName == fullName)) = some row := by
  rw [(interned_after rs).typeUnder_iff, ← find?_types_after,
    find?_eq_some_iff_of_nodup (interned_after rs).names]

/-- A type in the table was put forward. -/
theorem mem_types_of_mem_after {row : TypeRow} (h : row ∈ (after rs).types) :
    row ∈ Request.types rs := by
  have hunder := (interned_after rs).typeUnder_iff.mpr ⟨h, rfl⟩
  exact (List.mem_filter.mp (mem_of_standing (typeUnder_after.mp hunder))).1

end Program

end CallAudit

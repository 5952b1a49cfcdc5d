import CallAudit.Proofs.Facts.Recording
import CallAudit.Proofs.MapM

/-!
# What a document means

A document says of every key which method has it: the one of the first record under that key, or else
a placeholder if anything refers to the key, and of every full name which type has it.  It says of its
tuples, in the order in which they first come up, which of these they relate.  Recording a document
says the same (`document_recorded_as_meant`), though the tables grow while they are read.
-/

namespace CallAudit

variable {p q : Program} {key fullName : String} {d : FactDocument}

/-! ## Records -/

/-- What a record says of a method, be it by default. -/
structure MethodRecord.Describes (m : MethodRecord) (row : Method) : Prop where
  key : row.key = m.key.getD (m.declaringType ++ "::" ++ m.name ++ "()")
  declaringType : row.declaringType = m.declaringType
  name : row.name = m.name
  parameters : row.parameters = m.parameters
  returnType : row.returnType = m.returnType.getD "System.Void"
  modifiers : row.modifiers = m.modifiers
  described : row.described = true

/-- What a record says of a type; what it leaves open follows from the name. -/
structure TypeRecord.Describes (t : TypeRecord) (row : TypeRow) : Prop where
  fullName : row.fullName = t.fullName
  «namespace» : row.namespace = t.namespace.getD (TypeRow.namespaceOf t.fullName)
  enclosing : row.enclosing = t.enclosing.or (TypeRow.enclosingOf t.fullName)
  isInterface : row.isInterface = t.isInterface
  isPublic : row.isPublic = t.isPublic
  described : row.described = true

theorem MethodRecord.describes_row (m : MethodRecord) : m.Describes m.row :=
  ⟨rfl, rfl, rfl, rfl, rfl, rfl, rfl⟩

theorem TypeRecord.describes_row (t : TypeRecord) : t.Describes t.row :=
  ⟨rfl, rfl, rfl, rfl, rfl, rfl⟩

namespace FactDocument

/-- The first record of a method under a key. -/
def methodRecord? (d : FactDocument) (key : String) : Option MethodRecord :=
  d.methods.find? fun m => m.key.getD (Method.defaultKey m.declaringType m.name) == key

/-- The first record of a type. -/
def typeRecord? (d : FactDocument) (fullName : String) : Option TypeRecord :=
  d.types.find? (·.fullName == fullName)

end FactDocument

/-! ## The first record stands -/

namespace Program

/-- Appends a row unless there is one under its text. -/
def enterFirst {α : Type} (text : α → String) (rows : List α) (row : α) : List α :=
  if text row ∈ rows.map text then rows else rows ++ [row]

/-- Rows that are entered one after the other are found as if all of them had been. -/
theorem find?_foldl_enterFirst {α : Type} (text : α → String) (rows new : List α) (key : String) :
    (new.foldl (enterFirst text) rows).find? (text · == key) =
      (rows ++ new).find? (text · == key) := by
  induction new generalizing rows with
  | nil => rw [List.foldl_nil, List.append_nil]
  | cons row new ih =>
    rw [List.foldl_cons, ih, enterFirst]
    split
    · next hmem =>
      obtain ⟨old, hold, htext⟩ := List.mem_map.mp hmem
      rw [List.find?_append, List.find?_append, List.find?_cons]
      split
      · next hrow =>
        -- the row that was there is found before this one
        cases hfind : rows.find? (text · == key) with
        | some found => rfl
        | none =>
          refine absurd (List.find?_eq_none.mp hfind old hold) ?_
          rw [htext, hrow, not_not]
      · rfl
    · rw [List.append_assoc, List.singleton_append]

theorem modify_eq_self {α : Type} {f : α → α} {xs : List α} (h : ∀ x ∈ xs, f x = x) (i : Nat) :
    xs.modify i f = xs := by
  refine List.ext_getElem (List.length_modify ..) fun j hj hj' => ?_
  rw [List.getElem_modify]
  split
  · exact h _ (List.getElem_mem hj')
  · rfl

theorem types_addType_of_described (h : ∀ t ∈ p.types, t.described = true) (row : TypeRow) :
    (p.addType row).2.types = enterFirst TypeRow.fullName p.types row := by
  unfold addType enterFirst
  rw [← names]
  cases hid : p.typeId? row.fullName with
  | some id =>
    rw [if_pos (mem_names_of_typeId? hid)]
    refine modify_eq_self (fun t ht => ?_) id
    rw [TypeRow.completedBy, h t ht]
    rfl
  | none => rw [if_neg (typeId?_eq_none_iff.mp hid)]

theorem methods_addMethod_of_described (h : ∀ m ∈ p.methods, m.described = true) (row : Method) :
    (p.addMethod row).2.methods = enterFirst Method.key p.methods row := by
  have hkeys : (p.ensureDeclaringType row.declaringType).keys = p.methods.map Method.key :=
    congrArg (List.map Method.key) (methods_ensureDeclaringType p _)
  unfold addMethod enterFirst
  dsimp only
  rw [← hkeys]
  cases hid : (p.ensureDeclaringType row.declaringType).methodId? row.key with
  | some id =>
    rw [if_pos (mem_keys_of_methodId? hid), methods_ensureDeclaringType]
    refine modify_eq_self (fun m hm => ?_) id
    rw [Method.completedBy, h m hm]
    rfl
  | none => rw [if_neg (methodId?_eq_none_iff.mp hid), methods_ensureDeclaringType]

theorem mem_of_mem_enterFirst {α : Type} {text : α → String} {rows : List α} {row x : α}
    (h : x ∈ enterFirst text rows row) : x ∈ rows ∨ x = row := by
  unfold enterFirst at h
  split at h
  · exact Or.inl h
  · rwa [List.mem_append, List.mem_singleton] at h

/-- What enters one described row where all are described enters described rows one after the other. -/
theorem rows_foldl_enter {α β : Type} (rows : Program → List α) (enter : Program → β → Program)
    (row : β → α) {text : α → String} {described : α → Bool}
    (hstep : ∀ p b, (∀ x ∈ rows p, described x = true) →
      rows (enter p b) = enterFirst text (rows p) (row b))
    (hrow : ∀ b, described (row b) = true) (bs : List β) (h : ∀ x ∈ rows p, described x = true) :
    rows (bs.foldl enter p) = (bs.map row).foldl (enterFirst text) (rows p) := by
  induction bs generalizing p with
  | nil => rfl
  | cons b bs ih =>
    have hnext : ∀ x ∈ rows (enter p b), described x = true := by
      intro x hx
      rw [hstep p b h] at hx
      rcases mem_of_mem_enterFirst hx with hx | rfl
      · exact h x hx
      · exact hrow b
    rw [List.foldl_cons, ih hnext, hstep p b h]
    rfl

/-- Entering the types of a document. -/
theorem types_enterTypes (ts : List TypeRecord) (h : ∀ t ∈ p.types, t.described = true) :
    (ts.foldl (fun p t => (p.addType t.row).2) p).types =
      (ts.map TypeRecord.row).foldl (enterFirst TypeRow.fullName) p.types :=
  rows_foldl_enter Program.types (fun p t => (p.addType t.row).2) TypeRecord.row
    (fun _ t hp => types_addType_of_described hp t.row) (fun _ => rfl) ts h

/-- Entering the methods of a document. -/
theorem methods_enterMethods (ms : List MethodRecord) (h : ∀ m ∈ p.methods, m.described = true) :
    (ms.foldl (fun p m => (p.addMethod m.row).2) p).methods =
      (ms.map MethodRecord.row).foldl (enterFirst Method.key) p.methods :=
  rows_foldl_enter Program.methods (fun p m => (p.addMethod m.row).2) MethodRecord.row
    (fun _ m hp => methods_addMethod_of_described hp m.row) (fun _ => rfl) ms h

theorem methods_enterTypes (ts : List TypeRecord) (p : Program) :
    (ts.foldl (fun p t => (p.addType t.row).2) p).methods = p.methods := by
  induction ts generalizing p with
  | nil => rfl
  | cons t ts ih => rw [List.foldl_cons, ih, methods_addType]

theorem types_ensureType_congr (h : p.types = q.types) (fullName : String) :
    (p.ensureType fullName).2.types = (q.ensureType fullName).2.types := by
  have hid : ∀ n, p.typeId? n = q.typeId? n := fun n => by rw [typeId?, typeId?, h]
  unfold ensureType addType
  rw [hid]
  split
  · exact h
  · rw [hid]
    split <;> simp only [h]

/-- Entering the methods of a document refers to their declaring types. -/
theorem types_enterMethods (ms : List MethodRecord) (h : p.types = q.types) :
    (ms.foldl (fun p m => (p.addMethod m.row).2) p).types =
      (q.referAll (ms.flatMap fun m =>
        (Reference.ofEndpoint? .type m.declaringType).toList)).types := by
  induction ms generalizing p q with
  | nil => exact h
  | cons m ms ih =>
    rw [List.foldl_cons, List.flatMap_cons, referAll_append]
    refine ih ?_
    rw [types_addMethod]
    have htype : m.row.declaringType = m.declaringType := rfl
    rw [htype]
    unfold ensureDeclaringType Reference.ofEndpoint?
    split
    · exact h
    · exact types_ensureType_congr h m.declaringType

end Program

/-! ## Rows that are described -/

namespace FactDocument

open Program

theorem described_eq_enter (d : FactDocument) :
    d.described = d.methods.foldl (fun p m => (p.addMethod m.row).2)
      (d.types.foldl (fun p t => (p.addType t.row).2) {}) := by
  have htypes : ∀ (ts : List TypeRecord) (r : Recording),
      (ts.foldl (fun r t => (r.addType t.row).2) r).program =
        ts.foldl (fun p t => (p.addType t.row).2) r.program :=
    fun ts r => (List.foldl_hom Recording.program fun _ _ => rfl).symm
  have hmethods : ∀ (ms : List MethodRecord) (r : Recording),
      (ms.foldl (fun r m => (r.addMethod m.row).2) r).program =
        ms.foldl (fun p m => (p.addMethod m.row).2) r.program :=
    fun ms r => (List.foldl_hom Recording.program fun _ _ => rfl).symm
  exact (hmethods _ _).trans (by rw [htypes])

theorem find?_methods_described (d : FactDocument) (key : String) :
    d.described.methods.find? (·.key == key) = (d.methodRecord? key).map MethodRecord.row := by
  rw [described_eq_enter, methods_enterMethods _ (by simp [methods_enterTypes]),
    find?_foldl_enterFirst, methods_enterTypes, List.nil_append, List.find?_map]
  rfl

/-- The program after the types of a document. -/
def entered (d : FactDocument) : Program :=
  d.types.foldl (fun p t => (p.addType t.row).2) {}

theorem find?_types_entered (d : FactDocument) (fullName : String) :
    d.entered.types.find? (·.fullName == fullName) =
      (d.typeRecord? fullName).map TypeRecord.row := by
  rw [entered, types_enterTypes _ (by simp), find?_foldl_enterFirst, List.nil_append, List.find?_map]
  rfl

theorem interned_entered (d : FactDocument) : d.entered.Interned := by
  unfold entered
  generalize d.types = ts
  induction ts using List.reverseRecOn with
  | nil => exact interned_empty
  | append_singleton ts t ih =>
    rw [List.foldl_append]
    exact ih.addType t.row

/-- The methods of a document refer to the types that declare them. -/
def declaringTypes (d : FactDocument) : List Reference :=
  d.methods.flatMap fun m => (Reference.ofEndpoint? .type m.declaringType).toList

theorem types_described (d : FactDocument) :
    d.described.types = (d.entered.referAll d.declaringTypes).types := by
  rw [described_eq_enter]
  exact types_enterMethods d.methods rfl

/-- Whether a document mentions a type: something refers to it, or a method is declared on it, be it by
a record or by a key that no record describes. -/
def MentionsType (d : FactDocument) (fullName : String) : Prop :=
  .type fullName ∈ d.references ∨ fullName.isEmpty = false ∧
    ((∃ m ∈ d.methods, m.declaringType = fullName) ∨
      ∃ key, .method key ∈ d.references ∧ d.methodRecord? key = none ∧
        (Method.placeholder key).declaringType = fullName)

theorem methodRecord?_eq_none_iff : d.methodRecord? key = none ↔ key ∉ d.described.keys := by
  have hfind := find?_methods_described d key
  rw [← Option.map_eq_none_iff (f := MethodRecord.row), ← hfind, List.find?_eq_none, keys,
    List.mem_map, not_exists]
  simp

theorem typeRecord?_eq_none_iff : d.typeRecord? fullName = none ↔ fullName ∉ d.entered.names := by
  have hfind := find?_types_entered d fullName
  rw [← Option.map_eq_none_iff (f := TypeRecord.row), ← hfind, List.find?_eq_none, names,
    List.mem_map, not_exists]
  simp

end FactDocument

namespace Recording

open Program

theorem mem_keys_ofDocument : key ∈ (ofDocument d).program.keys ↔
    key ∈ d.described.keys ∨ .method key ∈ d.references := by
  rw [program_ofDocument, mem_keys_referAll]

theorem mem_names_ofDocument : fullName ∈ (ofDocument d).program.names ↔
    fullName ∈ d.entered.names ∨ d.MentionsType fullName := by
  have hdescribed : d.described.names = (d.entered.referAll d.declaringTypes).names :=
    congrArg (List.map TypeRow.fullName) d.types_described
  have hdeclaring : (∃ ref ∈ d.declaringTypes, d.entered.CallsFor fullName ref) ↔
      fullName.isEmpty = false ∧ ∃ m ∈ d.methods, m.declaringType = fullName := by
    simp only [FactDocument.declaringTypes, List.mem_flatMap, Reference.mem_ofEndpoint?]
    constructor
    · rintro ⟨_, ⟨m, hm, hname, rfl⟩, rfl⟩
      exact ⟨hname, m, hm, rfl⟩
    · rintro ⟨hname, m, hm, rfl⟩
      exact ⟨_, ⟨m, hm, hname, rfl⟩, rfl⟩
  have hreferred : (∃ ref ∈ d.references, d.described.CallsFor fullName ref) ↔
      .type fullName ∈ d.references ∨ fullName.isEmpty = false ∧
        ∃ key, .method key ∈ d.references ∧ d.methodRecord? key = none ∧
          (Method.placeholder key).declaringType = fullName := by
    simp only [FactDocument.methodRecord?_eq_none_iff]
    constructor
    · rintro ⟨key | name, href, hcalls⟩
      · exact Or.inr ⟨hcalls.2.1, key, href, hcalls.1, hcalls.2.2⟩
      · exact Or.inl (hcalls ▸ href)
    · rintro (href | ⟨hname, key, href, hnew, htype⟩)
      · exact ⟨_, href, rfl⟩
      · exact ⟨_, href, hnew, hname, htype⟩
  -- first the types are entered, then those that methods are declared on, then those referred to
  rw [program_ofDocument, mem_names_referAll, hreferred, hdescribed, mem_names_referAll, hdeclaring,
    FactDocument.MentionsType, and_or_left, or_assoc]
  exact or_congr Iff.rfl or_left_comm

end Recording

/-! ## Texts and rows -/

namespace Program

/-- Whether a method stands under a key, where it is looked up. -/
def MethodUnder (p : Program) (key : String) (row : Method) : Prop :=
  ∃ id, p.methodId? key = some id ∧ p.method? id = some row

/-- Whether a type stands under a full name, where it is looked up. -/
def TypeUnder (p : Program) (fullName : String) (row : TypeRow) : Prop :=
  ∃ id, p.typeId? fullName = some id ∧ p.type? id = some row

theorem exists_place_iff {α : Type} {text : α → String} {rows : List α} {key : String} {row : α} :
    (∃ id : Nat, (∃ row', rows[id]? = some row' ∧ text row' = key) ∧ rows[id]? = some row) ↔
      row ∈ rows ∧ text row = key := by
  rw [List.mem_iff_getElem?]
  constructor
  · rintro ⟨id, ⟨row', hrow', htext⟩, hrow⟩
    obtain rfl := Option.some.inj (hrow'.symm.trans hrow)
    exact ⟨⟨id, hrow⟩, htext⟩
  · rintro ⟨⟨id, hrow⟩, htext⟩
    exact ⟨id, ⟨row, hrow, htext⟩, hrow⟩

theorem Interned.methodUnder_iff (h : p.Interned) {row : Method} :
    p.MethodUnder key row ↔ row ∈ p.methods ∧ row.key = key := by
  unfold MethodUnder
  simp only [h.methodId?_eq_some_iff]
  exact exists_place_iff

theorem Interned.typeUnder_iff (h : p.Interned) {row : TypeRow} :
    p.TypeUnder fullName row ↔ row ∈ p.types ∧ row.fullName = fullName := by
  unfold TypeUnder
  simp only [h.typeId?_eq_some_iff]
  exact exists_place_iff

/-- Where all other rows are made from their texts, so is the one under a text that they do not have. -/
theorem under_iff_of_made {α : Type} {text : α → String} {make : String → α}
    (hmake : ∀ k, text (make k) = k) {rows first : List α}
    (hrows : ∀ row ∈ rows, row ∈ first ∨ ∃ k, row = make k) (hkey : key ∉ first.map text) {row : α} :
    row ∈ rows ∧ text row = key ↔ key ∈ rows.map text ∧ row = make key := by
  have hmade : ∀ row ∈ rows, text row = key → row = make key := by
    intro row hrow htext
    rcases hrows row hrow with hfirst | ⟨k, rfl⟩
    · exact absurd (List.mem_map.mpr ⟨row, hfirst, htext⟩) hkey
    · rw [← htext, hmake]
  constructor
  · rintro ⟨hrow, htext⟩
    exact ⟨List.mem_map.mpr ⟨row, hrow, htext⟩, hmade row hrow htext⟩
  · rintro ⟨hmem, rfl⟩
    obtain ⟨row, hrow, htext⟩ := List.mem_map.mp hmem
    rw [← hmade row hrow htext]
    exact ⟨hrow, htext⟩

end Program

namespace Recording

open Program

theorem methodUnder_of_record {m : MethodRecord} (h : d.methodRecord? key = some m) :
    (ofDocument d).program.MethodUnder key m.row := by
  have hfind : d.described.methods.find? (·.key == key) = some m.row := by
    rw [FactDocument.find?_methods_described, h]
    rfl
  obtain ⟨hmem, hkey⟩ := (find?_eq_some_iff_of_nodup (interned_described d).keys).mp hfind
  rw [(interned_ofDocument d).methodUnder_iff, program_ofDocument, mem_methods_referAll]
  exact ⟨Or.inl hmem, hkey⟩

theorem methodUnder_of_no_record (h : d.methodRecord? key = none) {row : Method} :
    (ofDocument d).program.MethodUnder key row ↔
      .method key ∈ d.references ∧ row = .placeholder key := by
  have hkey := FactDocument.methodRecord?_eq_none_iff.mp h
  have hmake : ∀ k, (Method.placeholder k).key = k := fun _ => rfl
  rw [(interned_ofDocument d).methodUnder_iff, under_iff_of_made hmake (fun row hrow => ?_) hkey]
  · refine and_congr (mem_keys_ofDocument.trans ?_) Iff.rfl
    exact or_iff_right hkey
  · rw [program_ofDocument, mem_methods_referAll] at hrow
    exact hrow.imp id fun ⟨k, _, _, hk⟩ => ⟨k, hk⟩

theorem typeUnder_of_record {t : TypeRecord} (h : d.typeRecord? fullName = some t) :
    (ofDocument d).program.TypeUnder fullName t.row := by
  have hfind : d.entered.types.find? (·.fullName == fullName) = some t.row := by
    rw [FactDocument.find?_types_entered, h]
    rfl
  obtain ⟨hmem, hname⟩ := (find?_eq_some_iff_of_nodup d.interned_entered.names).mp hfind
  rw [(interned_ofDocument d).typeUnder_iff, program_ofDocument, mem_types_referAll,
    d.types_described, mem_types_referAll]
  exact ⟨Or.inl (Or.inl hmem), hname⟩

theorem typeUnder_of_no_record (h : d.typeRecord? fullName = none) {row : TypeRow} :
    (ofDocument d).program.TypeUnder fullName row ↔
      d.MentionsType fullName ∧ row = .placeholder fullName := by
  have hname := FactDocument.typeRecord?_eq_none_iff.mp h
  have hmake : ∀ n, (TypeRow.placeholder n).fullName = n := fun _ => rfl
  rw [(interned_ofDocument d).typeUnder_iff, under_iff_of_made hmake (fun row hrow => ?_) hname]
  · refine and_congr (mem_names_ofDocument.trans ?_) Iff.rfl
    exact or_iff_right hname
  · rw [program_ofDocument, mem_types_referAll, d.types_described, mem_types_referAll] at hrow
    rcases hrow with (hrow | ⟨n, -, -, rfl⟩) | ⟨n, -, -, rfl⟩
    · exact Or.inl hrow
    · exact Or.inr ⟨n, rfl⟩
    · exact Or.inr ⟨n, rfl⟩

end Recording

/-! ## Tuples and places -/

/-- Whether both endpoints of a tuple name something. -/
def Tuple.isWhole (t : Tuple) : Bool :=
  !t.1.isEmpty && !t.2.isEmpty

namespace Program

/-- Whether the row at a place has the text of a reference. -/
def PlacedAt (p : Program) : Reference → Nat → Prop
  | .method key, id => ∃ row, p.method? id = some row ∧ row.key = key
  | .type fullName, id => ∃ row, p.type? id = some row ∧ row.fullName = fullName

/-- Whether pairs of places say what tuples say: those of which neither endpoint is empty, in the order
in which they first come up. -/
def Tells (p : Program) (left right : String → Reference) (ts : List Tuple)
    (pairs : List (Nat × Nat)) : Prop :=
  List.Forall₂ (fun t pair => p.PlacedAt (left t.1) pair.1 ∧ p.PlacedAt (right t.2) pair.2)
    (Distinct.ofList (ts.filter Tuple.isWhole)) pairs

/-- Whether places are those of methods by their keys, in the order in which these first come up. -/
def TellsMethods (p : Program) (keys : List String) (ids : List MethodId) : Prop :=
  List.Forall₂ (fun key id => p.PlacedAt (.method key) id)
    (Distinct.ofList (keys.filter fun key => !key.isEmpty)) ids

theorem Interned.placeOf?_eq_some_iff (h : p.Interned) {ref : Reference} {id : Nat} :
    p.placeOf? ref = some id ↔ p.PlacedAt ref id := by
  cases ref with
  | method key => exact h.methodId?_eq_some_iff
  | type fullName => exact h.typeId?_eq_some_iff

/-- Where no text comes twice, texts and their places correspond one to one. -/
theorem Interned.placedAt_inj (h : p.Interned) {sort : String → Reference}
    (hsort : sort = .method ∨ sort = .type) {text text' : String} {id id' : Nat}
    (hid : p.PlacedAt (sort text) id) (hid' : p.PlacedAt (sort text') id') :
    text = text' ↔ id = id' := by
  constructor
  · rintro rfl
    rw [← h.placeOf?_eq_some_iff] at hid hid'
    exact Option.some.inj (hid.symm.trans hid')
  · rintro rfl
    -- one row has one text
    rcases hsort with rfl | rfl
    all_goals
      obtain ⟨row, hrow, rfl⟩ := hid
      obtain ⟨row', hrow', rfl⟩ := hid'
      rw [Option.some.inj (hrow.symm.trans hrow')]

theorem exists_placedAt_method (h : key ∈ p.keys) : ∃ id, p.PlacedAt (.method key) id := by
  obtain ⟨row, hrow, hkey⟩ := List.mem_map.mp h
  obtain ⟨id, hid⟩ := List.mem_iff_getElem?.mp hrow
  exact ⟨id, row, hid, hkey⟩

theorem exists_placedAt_type (h : fullName ∈ p.names) : ∃ id, p.PlacedAt (.type fullName) id := by
  obtain ⟨row, hrow, hname⟩ := List.mem_map.mp h
  obtain ⟨id, hid⟩ := List.mem_iff_getElem?.mp hrow
  exact ⟨id, row, hid, hname⟩

theorem lt_length_of_placedAt_method {id : MethodId} (h : p.PlacedAt (.method key) id) :
    id < p.methods.length := by
  obtain ⟨row, hrow, -⟩ := h
  exact (List.getElem?_eq_some_iff.mp hrow).1

theorem lt_length_of_placedAt_type {id : TypeId} (h : p.PlacedAt (.type fullName) id) :
    id < p.types.length := by
  obtain ⟨row, hrow, -⟩ := h
  exact (List.getElem?_eq_some_iff.mp hrow).1

/-! ## Tuples that are told -/

variable {left right : String → Reference} {t : Tuple} {ts : List Tuple} {texts : List String}

theorem endpoint?_of_empty {sort : String → Reference} {text : String} (h : text.isEmpty = true) :
    p.endpoint? sort text = none := by
  rw [endpoint?, Reference.ofEndpoint?, if_pos h]
  rfl

theorem Interned.endpoint?_of_placedAt (h : p.Interned) {sort : String → Reference} {text : String}
    {id : Nat} (htext : text.isEmpty = false) (hid : p.PlacedAt (sort text) id) :
    p.endpoint? sort text = some id := by
  rw [endpoint?, Reference.ofEndpoint?, htext, if_neg Bool.false_ne_true, Option.bind_some]
  exact h.placeOf?_eq_some_iff.mpr hid

/-- A tuple with an empty endpoint relates nothing. -/
theorem pair?_of_not_isWhole (h : t.isWhole = false) : p.pair? left right t = none := by
  rw [Tuple.isWhole, Bool.and_eq_false_iff, Bool.not_eq_false', Bool.not_eq_false'] at h
  unfold pair?
  rcases h with h | h
  · rw [endpoint?_of_empty h]
  · rw [endpoint?_of_empty h]
    cases p.endpoint? left t.1 <;> rfl

/-- The pairs that tuples make say what the tuples say, if what these refer to has a place. -/
theorem Interned.tells (h : p.Interned) (hleft : left = .method ∨ left = .type)
    (hright : right = .method ∨ right = .type)
    (hplaces : ∀ ref ∈ ts.flatMap (Tuple.references left right), ∃ id, p.PlacedAt ref id) :
    p.Tells left right ts (Distinct.ofList (ts.filterMap (p.pair? left right))) := by
  refine Distinct.forall₂_ofList ⟨?one, ?other⟩
    (forall₂_filter_filterMap (fun t ht hwhole => ?_) fun t => pair?_of_not_isWhole)
  case one =>
    rintro t pair t' ⟨hl, hr⟩ ⟨hl', hr'⟩
    exact Prod.ext ((h.placedAt_inj hleft hl hl').mpr rfl) ((h.placedAt_inj hright hr hr').mpr rfl)
  case other =>
    rintro t pair pair' ⟨hl, hr⟩ ⟨hl', hr'⟩
    exact Prod.ext ((h.placedAt_inj hleft hl hl').mp rfl) ((h.placedAt_inj hright hr hr').mp rfl)
  -- both endpoints of a whole tuple are referred to
  rw [Tuple.isWhole, Bool.and_eq_true, Bool.not_eq_true', Bool.not_eq_true'] at hwhole
  have hrefs : ∀ ref ∈ t.references left right, ∃ id, p.PlacedAt ref id := fun ref href =>
    hplaces ref (List.mem_flatMap.mpr ⟨t, ht, href⟩)
  rw [Tuple.references, List.forall_mem_append] at hrefs
  obtain ⟨a, ha⟩ := hrefs.1 _ (Reference.mem_ofEndpoint?.mpr ⟨hwhole.1, rfl⟩)
  obtain ⟨b, hb⟩ := hrefs.2 _ (Reference.mem_ofEndpoint?.mpr ⟨hwhole.2, rfl⟩)
  refine ⟨(a, b), ?_, ha, hb⟩
  rw [pair?, h.endpoint?_of_placedAt hwhole.1 ha, h.endpoint?_of_placedAt hwhole.2 hb]

theorem Interned.tellsMethods (h : p.Interned)
    (hplaces : ∀ ref ∈ texts.flatMap fun key => (Reference.ofEndpoint? .method key).toList,
      ∃ id, p.PlacedAt ref id) :
    p.TellsMethods texts (Distinct.ofList (texts.filterMap (p.endpoint? .method))) := by
  have hsort : Reference.method = .method ∨ Reference.method = .type := Or.inl rfl
  refine Distinct.forall₂_ofList ⟨?one, ?other⟩
    (forall₂_filter_filterMap (fun key hkey hname => ?_) fun key hname => ?_)
  case one => exact fun key id key' hid hid' => (h.placedAt_inj hsort hid hid').mpr rfl
  case other => exact fun key id id' hid hid' => (h.placedAt_inj hsort hid hid').mp rfl
  · rw [Bool.not_eq_true'] at hname
    obtain ⟨id, hid⟩ := hplaces (.method key)
      (List.mem_flatMap.mpr ⟨key, hkey, Reference.mem_ofEndpoint?.mpr ⟨hname, rfl⟩⟩)
    exact ⟨id, h.endpoint?_of_placedAt hname hid, hid⟩
  · rw [Bool.not_eq_false'] at hname
    exact endpoint?_of_empty hname

theorem Tells.exists_placedAt {pairs : List (Nat × Nat)} (h : p.Tells left right ts pairs) :
    ∀ pair ∈ pairs, ∃ t : Tuple, p.PlacedAt (left t.1) pair.1 ∧ p.PlacedAt (right t.2) pair.2 :=
  exists_forall₂_iff.mp ⟨_, List.Forall₂.flip h⟩

theorem TellsMethods.lt_length {ids : List MethodId} (h : p.TellsMethods texts ids) :
    ∀ id ∈ ids, id < p.methods.length := by
  intro id hid
  obtain ⟨key, hkey⟩ := exists_forall₂_iff.mp ⟨_, List.Forall₂.flip h⟩ id hid
  exact lt_length_of_placedAt_method hkey

end Program

/-! ## The meaning of a document -/

open Program

/-- The methods that facts are about. -/
def Facts.methodIds (f : Facts) : List MethodId :=
  (f.directCalls ++ f.virtualCalls ++ f.overrides ++ f.fieldAccessDependencies ++
    f.resolvedReflectionCalls).flatMap (fun pair => [pair.1, pair.2]) ++
  f.staticConstructorDependencies.map Prod.snd ++ f.typeDependencies.map Prod.fst ++
  f.entryMethods.getD [] ++ f.unanalyzedMethods

/-- The types that facts are about. -/
def Facts.typeIds (f : Facts) : List TypeId :=
  f.staticConstructorDependencies.map Prod.fst ++ f.typeDependencies.map Prod.snd

/-- Whether a program and facts are what a document means. -/
structure FactDocument.Means (d : FactDocument) (p : Program) (f : Facts) : Prop where
  /-- A text is looked up where the one row with that text stands. -/
  places : ∀ ref id, p.placeOf? ref = some id ↔ p.PlacedAt ref id
  describedMethods : ∀ key m, d.methodRecord? key = some m →
    ∃ row, p.MethodUnder key row ∧ m.Describes row
  otherMethods : ∀ key, d.methodRecord? key = none → ∀ row, p.MethodUnder key row ↔
    .method key ∈ d.references ∧ row = .placeholder key
  describedTypes : ∀ fullName t, d.typeRecord? fullName = some t →
    ∃ row, p.TypeUnder fullName row ∧ t.Describes row
  otherTypes : ∀ fullName, d.typeRecord? fullName = none → ∀ row, p.TypeUnder fullName row ↔
    d.MentionsType fullName ∧ row = .placeholder fullName
  directCalls : p.Tells .method .method d.directCalls f.directCalls
  virtualCalls : p.Tells .method .method d.virtualCalls f.virtualCalls
  overrides : p.Tells .method .method d.overrides f.overrides
  staticConstructorDependencies :
    p.Tells .type .method d.staticConstructorDependencies f.staticConstructorDependencies
  fieldAccessDependencies :
    p.Tells .method .method d.fieldAccessDependencies f.fieldAccessDependencies
  typeDependencies : p.Tells .method .type d.typeDependencies f.typeDependencies
  resolvedReflectionCalls :
    p.Tells .method .method d.resolvedReflectionCalls f.resolvedReflectionCalls
  /-- An entry surface is there if and only if the document has one. -/
  entryMethods : Option.Rel p.TellsMethods d.entryMethods f.entryMethods
  unanalyzedMethods : p.TellsMethods d.unanalyzedMethods f.unanalyzedMethods

namespace FactDocument.Means

variable {f : Facts} (h : d.Means p f)
include h

theorem methodIds_lt : ∀ id ∈ f.methodIds, id < p.methods.length := by
  have hcalls : ∀ {ts pairs}, p.Tells .method .method ts pairs →
      ∀ pair ∈ pairs, ∀ id ∈ [pair.1, pair.2], id < p.methods.length := by
    intro ts pairs htells pair hpair
    obtain ⟨t, hleft, hright⟩ := htells.exists_placedAt pair hpair
    simp [lt_length_of_placedAt_method hleft, lt_length_of_placedAt_method hright]
  unfold Facts.methodIds
  simp only [List.forall_mem_append, List.forall_mem_flatMap, List.forall_mem_map]
  refine ⟨⟨⟨⟨⟨⟨⟨⟨hcalls h.directCalls, hcalls h.virtualCalls⟩, hcalls h.overrides⟩,
    hcalls h.fieldAccessDependencies⟩, hcalls h.resolvedReflectionCalls⟩, ?_⟩, ?_⟩, ?_⟩,
    h.unanalyzedMethods.lt_length⟩
  · intro pair hpair
    obtain ⟨t, -, hright⟩ := h.staticConstructorDependencies.exists_placedAt pair hpair
    exact lt_length_of_placedAt_method hright
  · intro pair hpair
    obtain ⟨t, hleft, -⟩ := h.typeDependencies.exists_placedAt pair hpair
    exact lt_length_of_placedAt_method hleft
  · have hentries := h.entryMethods
    generalize d.entryMethods = texts, f.entryMethods = ids at hentries
    cases hentries with
    | none => exact fun id hid => absurd hid List.not_mem_nil
    | some htells => exact htells.lt_length

theorem typeIds_lt : ∀ id ∈ f.typeIds, id < p.types.length := by
  unfold Facts.typeIds
  simp only [List.forall_mem_append, List.forall_mem_map]
  constructor
  · intro pair hpair
    obtain ⟨t, hleft, -⟩ := h.staticConstructorDependencies.exists_placedAt pair hpair
    exact lt_length_of_placedAt_type hleft
  · intro pair hpair
    obtain ⟨t, -, hright⟩ := h.typeDependencies.exists_placedAt pair hpair
    exact lt_length_of_placedAt_type hright

end FactDocument.Means

theorem Recording.exists_placedAt {ref : Reference} (h : ref ∈ d.references) :
    ∃ id, (ofDocument d).program.PlacedAt ref id := by
  cases ref with
  | method key => exact exists_placedAt_method (mem_keys_ofDocument.mpr (Or.inr h))
  | type fullName => exact exists_placedAt_type (mem_names_ofDocument.mpr (Or.inr (Or.inl h)))

theorem Recording.means_ofDocument (d : FactDocument) :
    d.Means (ofDocument d).program (ofDocument d).facts := by
  have h := interned_ofDocument d
  have hm : Reference.method = .method ∨ Reference.method = .type := Or.inl rfl
  have ht : Reference.type = .method ∨ Reference.type = .type := Or.inr rfl
  have hplaces : ∀ ref ∈ d.references, ∃ id, (ofDocument d).program.PlacedAt ref id :=
    fun ref => exists_placedAt
  unfold FactDocument.references at hplaces
  simp only [List.forall_mem_append] at hplaces
  obtain ⟨⟨⟨⟨⟨⟨⟨⟨hdirect, hvirtual⟩, hoverrides⟩, hstatic⟩, hfields⟩, htypes⟩, hresolved⟩, hentries⟩,
    hunanalyzed⟩ := hplaces
  rw [facts_ofDocument]
  exact {
    places := fun ref id => h.placeOf?_eq_some_iff
    describedMethods := fun key m hrecord =>
      ⟨m.row, methodUnder_of_record hrecord, m.describes_row⟩
    otherMethods := fun key hnone row => methodUnder_of_no_record hnone
    describedTypes := fun fullName t hrecord =>
      ⟨t.row, typeUnder_of_record hrecord, t.describes_row⟩
    otherTypes := fun fullName hnone row => typeUnder_of_no_record hnone
    directCalls := h.tells hm hm hdirect
    virtualCalls := h.tells hm hm hvirtual
    overrides := h.tells hm hm hoverrides
    staticConstructorDependencies := h.tells ht hm hstatic
    fieldAccessDependencies := h.tells hm hm hfields
    typeDependencies := h.tells hm ht htypes
    resolvedReflectionCalls := h.tells hm hm hresolved
    entryMethods := by
      unfold FactDocument.factsAt
      generalize d.entryMethods = entries at hentries
      cases entries with
      | none => exact .none
      | some keys => exact .some (h.tellsMethods hentries)
    unanalyzedMethods := h.tellsMethods hunanalyzed }

/-- Whatever a document holds, recording it gives what it means, over places that are in the tables. -/
theorem document_recorded_as_meant (d : FactDocument) :
    let r := Recording.ofDocument d
    d.Means r.program r.facts ∧ (∀ id ∈ r.facts.methodIds, id < r.program.methods.length) ∧
      ∀ id ∈ r.facts.typeIds, id < r.program.types.length :=
  have hmeans := Recording.means_ofDocument d
  ⟨hmeans, hmeans.methodIds_lt, hmeans.typeIds_lt⟩

end CallAudit

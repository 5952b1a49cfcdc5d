import CallAudit.Facts.Recording
import CallAudit.Proofs.Json.Reading
import CallAudit.Proofs.Json.Record

/-!
# Documents that were written

A fact document that is written is read back as it was, whatever texts it holds and whichever of its
parts are missing (`document_read_back`).  Each kind of record is settled on its own: its object has the
members that the reader of the record asks for, and each member reads back.
-/

namespace CallAudit

/-! ## Parameters -/

namespace Parameter

theorem readsBack_toJson (p : Parameter) : p.toJson.ReadsBack := by
  apply Json.ReadsBack.ofMembers
  simp only [List.forall_mem_cons, List.not_mem_nil, false_implies, implies_true, and_true]
  exact ⟨.ofText _, .ofText _⟩

theorem nodup_fieldNames : fieldNames.Nodup := by decide

theorem ofJson?_toJson (p : Parameter) : ofJson? p.toJson = some p := by
  have hfields : p.toJson.fields? fieldNames =
      some [some (.ofText p.typeName), some (.ofText p.name)] := by
    refine (Json.fields?_ofMembers ?_ fieldNames).trans rfl
    exact nodup_fieldNames
  rw [ofJson?, hfields]
  rfl

end Parameter

/-! ## Methods -/

namespace MethodRecord

theorem readsBack_toJson (m : MethodRecord) : m.toJson.ReadsBack := by
  apply Json.ReadsBack.ofMembers
  simp only [List.forall_mem_cons, List.not_mem_nil, false_implies, implies_true, and_true]
  exact ⟨.ofText? _, .ofText _, .ofText _, .list Parameter.readsBack_toJson _, .ofText? _, .bool _,
    .bool _, .bool _, .bool _, .bool _⟩

theorem nodup_fieldNames : (fieldNames ++ modifierNames).Nodup := by decide

/-- A method that was written has no members that it does not know. -/
theorem keepsRest_toJson (m : MethodRecord) : keepsRest m.toJson = true := by
  have hknown : ∀ name ∈ fieldNames ++ modifierNames,
      (fieldNames ++ modifierNames).contains name = true := fun name hname =>
    List.contains_iff_mem.mpr hname
  rw [toJson, Json.ofMembers, keepsRest, List.all_map, List.all_eq_true]
  intro member hmember
  have hname : member.1 ∈ fieldNames ++ modifierNames := List.mem_map_of_mem hmember
  show ((fieldNames ++ modifierNames).contains member.1 || _) = true
  rw [hknown _ hname, Bool.true_or]

theorem modifiersOfJson?_toJson (m : MethodRecord) :
    modifiersOfJson? m.toJson = some m.modifiers := by
  have hfields : m.toJson.members? modifierNames =
      some [some (.bool m.modifiers.isVirtual), some (.bool m.modifiers.isAbstract),
        some (.bool m.modifiers.isStatic), some (.bool m.modifiers.isConstructor),
        some (.bool m.modifiers.isPublic)] := by
    refine (Json.members?_ofMembers ?_ modifierNames).trans rfl
    exact nodup_fieldNames
  rw [modifiersOfJson?, hfields]
  rfl

theorem ofJson?_toJson (m : MethodRecord) : ofJson? m.toJson = some m := by
  have hfields : m.toJson.members? fieldNames =
      some [some (.ofText? m.key), some (.ofText m.declaringType), some (.ofText m.name),
        some (.array (m.parameters.map Parameter.toJson)), some (.ofText? m.returnType)] := by
    refine (Json.members?_ofMembers ?_ fieldNames).trans rfl
    exact nodup_fieldNames
  have hparameters := Json.list?_map Parameter.ofJson?_toJson m.parameters
  have hrest : (guard (keepsRest m.toJson) : Option Unit) = some () :=
    if_pos (keepsRest_toJson m)
  rw [ofJson?, hfields]
  dsimp only [Option.bind_eq_bind, Option.bind_some]
  rw [hrest]
  simp [modifiersOfJson?_toJson, Json.optional, Json.required, Json.nullable_ofText?, hparameters,
    Json.ofText, Json.text?]

end MethodRecord

/-! ## Types -/

namespace TypeRecord

theorem readsBack_toJson (t : TypeRecord) : t.toJson.ReadsBack := by
  apply Json.ReadsBack.ofMembers
  simp only [List.forall_mem_cons, List.not_mem_nil, false_implies, implies_true, and_true]
  exact ⟨.ofText _, .ofText? _, .ofText? _, .bool _, .bool _⟩

theorem nodup_fieldNames : fieldNames.Nodup := by decide

theorem ofJson?_toJson (t : TypeRecord) : ofJson? t.toJson = some t := by
  have hfields : t.toJson.fields? fieldNames =
      some [some (.ofText t.fullName), some (.ofText? t.namespace), some (.ofText? t.enclosing),
        some (.bool t.isInterface), some (.bool t.isPublic)] := by
    refine (Json.fields?_ofMembers ?_ fieldNames).trans rfl
    exact nodup_fieldNames
  rw [ofJson?, hfields]
  simp [Json.optional, Json.required, Json.nullable_ofText?, Json.ofText, Json.text?, Json.bool?]

end TypeRecord

/-! ## Documents -/

namespace FactDocument

theorem readsBack_tuplesToJson (tuples : List Tuple) : (tuplesToJson tuples).ReadsBack := by
  refine Json.ReadsBack.list (fun tuple : Tuple => ?_) tuples
  exact .ofTexts [tuple.1, tuple.2]

theorem list?_tuplesToJson (tuples : List Tuple) :
    Json.list? Json.pair? (tuplesToJson tuples) = some tuples := by
  refine Json.list?_map (fun tuple : Tuple => ?_) tuples
  show Json.pair? (Json.ofTexts [tuple.1, tuple.2]) = some tuple
  rfl

/-- An entry surface that is there is an array, and one that is not is `null`. -/
theorem readsBack_entries (entries : Option (List String)) :
    ((entries.map Json.ofTexts).getD .null).ReadsBack := by
  cases entries with
  | none => exact .null
  | some keys => exact .ofTexts keys

theorem nullable_entries (entries : Option (List String)) :
    Json.nullable (Json.list? Json.text?) ((entries.map Json.ofTexts).getD .null) = some entries := by
  cases entries with
  | none => rfl
  | some keys =>
    show (Json.list? Json.text? (Json.ofTexts keys)).map some = _
    rw [Json.list?_ofTexts, Option.map_some]

theorem readsBack_toJson (d : FactDocument) : d.toJson.ReadsBack := by
  apply Json.ReadsBack.ofMembers
  simp only [List.forall_mem_cons, List.not_mem_nil, false_implies, implies_true, and_true]
  exact ⟨.list MethodRecord.readsBack_toJson _, .list TypeRecord.readsBack_toJson _,
    readsBack_tuplesToJson _, readsBack_tuplesToJson _, readsBack_tuplesToJson _,
    readsBack_tuplesToJson _, readsBack_tuplesToJson _, readsBack_tuplesToJson _,
    readsBack_entries _, .ofTexts _, readsBack_tuplesToJson _⟩

theorem nodup_fieldNames : fieldNames.Nodup := by decide

theorem ofJson?_toJson (d : FactDocument) : ofJson? d.toJson = some d := by
  have hfields : d.toJson.fields? fieldNames =
      some [some (.array (d.methods.map MethodRecord.toJson)),
        some (.array (d.types.map TypeRecord.toJson)), some (tuplesToJson d.directCalls),
        some (tuplesToJson d.virtualCalls), some (tuplesToJson d.overrides),
        some (tuplesToJson d.staticConstructorDependencies),
        some (tuplesToJson d.fieldAccessDependencies), some (tuplesToJson d.typeDependencies),
        some ((d.entryMethods.map Json.ofTexts).getD .null), some (.ofTexts d.unanalyzedMethods),
        some (tuplesToJson d.resolvedReflectionCalls)] := by
    refine (Json.fields?_ofMembers ?_ fieldNames).trans rfl
    exact nodup_fieldNames
  have hmethods := Json.list?_map MethodRecord.ofJson?_toJson d.methods
  have htypes := Json.list?_map TypeRecord.ofJson?_toJson d.types
  rw [ofJson?, hfields]
  simp [Json.optional, hmethods, htypes, list?_tuplesToJson, nullable_entries, Json.list?_ofTexts]

theorem read_write (d : FactDocument) : read d.write = some d := by
  rw [read, write, d.readsBack_toJson.read_compactText, Option.bind_some, ofJson?_toJson]

end FactDocument

/-- A document that is written is a JSON text for its object, and is read back as the document it was.
So what is recorded from the text is what is recorded from the document. -/
theorem document_read_back (d : FactDocument) :
    Json.read d.write = some d.toJson ∧ FactDocument.read d.write = some d ∧
      Recording.read d.write = some (Recording.ofDocument d) := by
  refine ⟨d.readsBack_toJson.read_compactText, d.read_write, ?_⟩
  rw [Recording.read, d.read_write, Option.map_some]

end CallAudit

import CallAudit.Program.Table
import CallAudit.Proofs.Distinct
import Mathlib.Data.List.Nodup
import Mathlib.Tactic.ByContra

/-!
# Keys and their places

Interning adds a key at the end or leaves the keys as they are (`keys_addMethod`, `names_addType`), so
that no key occurs twice (`Interned`) and a place that was given to a key stays its place (`Grows`).
-/

namespace CallAudit

namespace Program

variable {p q r : Program} {key fullName : String} {id : Nat}

/-- The keys of the methods, in the order of their places. -/
def keys (p : Program) : List String := p.methods.map (·.key)

/-- The full names of the types, in the order of their places. -/
def names (p : Program) : List String := p.types.map (·.fullName)

/-! ## Looking up -/

theorem findIdx?_eq_idxOf? {α : Type} (f : α → String) (xs : List α) (text : String) :
    xs.findIdx? (f · == text) = (xs.map f).idxOf? text := by
  rw [List.idxOf?, List.findIdx?_map]
  rfl

theorem methodId?_eq : p.methodId? key = p.keys.idxOf? key :=
  findIdx?_eq_idxOf? Method.key p.methods key

theorem typeId?_eq : p.typeId? fullName = p.names.idxOf? fullName :=
  findIdx?_eq_idxOf? TypeRow.fullName p.types fullName

theorem methodId?_eq_none_iff : p.methodId? key = none ↔ key ∉ p.keys := by
  rw [methodId?_eq, List.idxOf?_eq_none_iff]

theorem typeId?_eq_none_iff : p.typeId? fullName = none ↔ fullName ∉ p.names := by
  rw [typeId?_eq, List.idxOf?_eq_none_iff]

theorem mem_keys_of_methodId? (h : p.methodId? key = some id) : key ∈ p.keys := by
  by_contra hnot
  rw [methodId?_eq_none_iff.mpr hnot] at h
  exact absurd h (by simp)

theorem mem_names_of_typeId? (h : p.typeId? fullName = some id) : fullName ∈ p.names := by
  by_contra hnot
  rw [typeId?_eq_none_iff.mpr hnot] at h
  exact absurd h (by simp)

/-- No key and no full name occurs twice. -/
structure Interned (p : Program) : Prop where
  keys : p.keys.Nodup
  names : p.names.Nodup

/-- In a list without repetitions the place of an element is the one where it stands. -/
theorem idxOf?_eq_some_iff {xs : List String} {text : String} {i : Nat} (h : xs.Nodup) :
    xs.idxOf? text = some i ↔ xs[i]? = some text := by
  rw [List.idxOf?, List.findIdx?_eq_some_iff_getElem]
  constructor
  · rintro ⟨hlt, hhere, -⟩
    rw [List.getElem?_eq_getElem hlt, eq_of_beq hhere]
  · intro hget
    obtain ⟨hlt, rfl⟩ := List.getElem?_eq_some_iff.mp hget
    refine ⟨hlt, beq_self_eq_true _, ?_⟩
    intro j hj hsame
    have := (List.Nodup.getElem_inj_iff h).mp (eq_of_beq hsame)
    omega

/-- Where no text occurs twice, a row is found by its own. -/
theorem find?_eq_some_iff_of_nodup {α : Type} {text : α → String} {rows : List α}
    (h : (rows.map text).Nodup) {row : α} :
    rows.find? (text · == key) = some row ↔ row ∈ rows ∧ text row = key := by
  constructor
  · intro hfind
    have htext := List.find?_some hfind
    exact ⟨List.mem_of_find?_eq_some hfind, eq_of_beq htext⟩
  · rintro ⟨hmem, rfl⟩
    cases hfind : rows.find? (text · == text row) with
    | none => exact absurd (List.find?_eq_none.mp hfind row hmem) (by simp)
    | some row' =>
      -- the two rows have one text, which occurs once
      have hsame := List.find?_some hfind
      have hrow := List.inj_on_of_nodup_map h (List.mem_of_find?_eq_some hfind) hmem
      rw [hrow (eq_of_beq hsame)]

namespace Interned

theorem methodId?_eq_some_iff (h : p.Interned) :
    p.methodId? key = some id ↔ ∃ row, p.method? id = some row ∧ row.key = key := by
  rw [methodId?_eq, idxOf?_eq_some_iff h.keys, Program.keys, List.getElem?_map,
    Option.map_eq_some_iff]
  rfl

theorem typeId?_eq_some_iff (h : p.Interned) :
    p.typeId? fullName = some id ↔ ∃ row, p.type? id = some row ∧ row.fullName = fullName := by
  rw [typeId?_eq, idxOf?_eq_some_iff h.names, Program.names, List.getElem?_map,
    Option.map_eq_some_iff]
  rfl

theorem typeNamed?_eq_some_iff (h : p.Interned) {row : TypeRow} :
    p.typeNamed? fullName = some row ↔ row ∈ p.types ∧ row.fullName = fullName :=
  find?_eq_some_iff_of_nodup h.names

end Interned

/-! ## Keys and names after interning -/

/-- What completes a row keeps the texts that rows are found by. -/
theorem map_modify_completed {α : Type} (f : α → String) (row : α) {xs : List α} {i : Nat}
    {completed : α → α} (hi : (xs.map f).idxOf? (f row) = some i)
    (hf : ∀ x, f x = f row → f (completed x) = f row) : (xs.modify i completed).map f = xs.map f := by
  rw [List.idxOf?, List.findIdx?_eq_some_iff_getElem] at hi
  obtain ⟨hlt, hhere, -⟩ := hi
  rw [List.length_map] at hlt
  rw [List.getElem_map] at hhere
  refine List.ext_getElem (by simp) ?_
  intro j hj hj'
  rw [List.getElem_map, List.getElem_map, List.getElem_modify]
  split
  · next heq =>
    subst heq
    rw [hf _ (eq_of_beq hhere), eq_of_beq hhere]
  · rfl

theorem names_addType (p : Program) (row : TypeRow) :
    (p.addType row).2.names = Distinct.insert p.names row.fullName := by
  unfold addType
  cases hid : p.typeId? row.fullName with
  | some id =>
    rw [Distinct.insert_of_mem (mem_names_of_typeId? hid)]
    refine map_modify_completed TypeRow.fullName row (typeId?_eq ▸ hid) ?_
    intro old hold
    unfold TypeRow.completedBy
    split
    · rfl
    · exact hold
  | none =>
    rw [Distinct.insert_of_not_mem (typeId?_eq_none_iff.mp hid)]
    exact List.map_append

@[simp] theorem methods_addType (p : Program) (row : TypeRow) :
    (p.addType row).2.methods = p.methods := by
  unfold addType
  split <;> rfl

@[simp] theorem methods_ensureType (p : Program) (fullName : String) :
    (p.ensureType fullName).2.methods = p.methods := by
  unfold ensureType
  split
  · rfl
  · exact methods_addType p _

theorem names_ensureType (p : Program) (fullName : String) :
    (p.ensureType fullName).2.names = Distinct.insert p.names fullName := by
  unfold ensureType
  cases hid : p.typeId? fullName with
  | some id => rw [Distinct.insert_of_mem (mem_names_of_typeId? hid)]
  | none => exact names_addType p (TypeRow.placeholder fullName)

@[simp] theorem methods_ensureDeclaringType (p : Program) (declaringType : String) :
    (p.ensureDeclaringType declaringType).methods = p.methods := by
  unfold ensureDeclaringType
  split
  · rfl
  · exact methods_ensureType p declaringType

theorem names_ensureDeclaringType (p : Program) (declaringType : String) :
    (p.ensureDeclaringType declaringType).names =
      if declaringType.isEmpty then p.names else Distinct.insert p.names declaringType := by
  unfold ensureDeclaringType
  split
  · rfl
  · exact names_ensureType p declaringType

theorem keys_addMethod (p : Program) (row : Method) :
    (p.addMethod row).2.keys = Distinct.insert p.keys row.key := by
  have hkeys : (p.ensureDeclaringType row.declaringType).keys = p.keys :=
    congrArg (List.map Method.key) (methods_ensureDeclaringType p _)
  unfold addMethod
  dsimp only
  rw [← hkeys]
  cases hid : (p.ensureDeclaringType row.declaringType).methodId? row.key with
  | some id =>
    rw [Distinct.insert_of_mem (mem_keys_of_methodId? hid)]
    refine map_modify_completed Method.key row (methodId?_eq ▸ hid) ?_
    intro old hold
    unfold Method.completedBy
    split
    · rfl
    · exact hold
  | none =>
    rw [Distinct.insert_of_not_mem (methodId?_eq_none_iff.mp hid)]
    exact List.map_append

@[simp] theorem types_addMethod (p : Program) (row : Method) :
    (p.addMethod row).2.types = (p.ensureDeclaringType row.declaringType).types := by
  unfold addMethod
  dsimp only
  split <;> rfl

theorem names_addMethod (p : Program) (row : Method) :
    (p.addMethod row).2.names = (p.ensureDeclaringType row.declaringType).names :=
  congrArg (List.map TypeRow.fullName) (types_addMethod p row)

theorem keys_ensureMethod (p : Program) (key : String) :
    (p.ensureMethod key).2.keys = Distinct.insert p.keys key := by
  unfold ensureMethod
  cases hid : p.methodId? key with
  | some id => rw [Distinct.insert_of_mem (mem_keys_of_methodId? hid)]
  | none => exact keys_addMethod p (Method.placeholder key)

/-! ## Placeholders -/

theorem ensureType_of_mem (h : fullName ∈ p.names) : (p.ensureType fullName).2 = p := by
  unfold ensureType
  cases hid : p.typeId? fullName with
  | some id => rfl
  | none => exact absurd h (typeId?_eq_none_iff.mp hid)

theorem ensureType_of_not_mem (h : fullName ∉ p.names) :
    (p.ensureType fullName).2 = { p with types := p.types ++ [TypeRow.placeholder fullName] } := by
  have hid : p.typeId? (TypeRow.placeholder fullName).fullName = none := typeId?_eq_none_iff.mpr h
  have hid' : p.typeId? fullName = none := hid
  rw [ensureType, hid', addType, hid]

theorem ensureMethod_of_mem (h : key ∈ p.keys) : (p.ensureMethod key).2 = p := by
  unfold ensureMethod
  cases hid : p.methodId? key with
  | some id => rfl
  | none => exact absurd h (methodId?_eq_none_iff.mp hid)

/-- A key that is new comes with the type that it gives away. -/
theorem ensureMethod_eq_of_not_mem (h : key ∉ p.keys) : p.ensureMethod key = (p.methods.length,
    { methods := p.methods ++ [Method.placeholder key]
      types := (p.ensureDeclaringType (Method.placeholder key).declaringType).types }) := by
  have hid : (p.ensureDeclaringType (Method.placeholder key).declaringType).methodId?
      (Method.placeholder key).key = none := by
    -- entering the declaring type leaves the methods as they are
    rw [methodId?_eq_none_iff, keys, methods_ensureDeclaringType]
    exact h
  rw [ensureMethod, methodId?_eq_none_iff.mpr h, addMethod]
  dsimp only
  rw [hid]
  dsimp only
  rw [methods_ensureDeclaringType]

theorem ensureMethod_of_not_mem (h : key ∉ p.keys) : (p.ensureMethod key).2 =
    { methods := p.methods ++ [Method.placeholder key]
      types := (p.ensureDeclaringType (Method.placeholder key).declaringType).types } :=
  congrArg Prod.snd (ensureMethod_eq_of_not_mem h)

/-! ## No key twice -/

theorem interned_empty : Interned {} := ⟨List.nodup_nil, List.nodup_nil⟩

namespace Interned

theorem addType (h : p.Interned) (row : TypeRow) : (p.addType row).2.Interned where
  keys := by
    rw [Program.keys, methods_addType]
    exact h.keys
  names := by
    rw [names_addType]
    exact Distinct.nodup_insert h.names

theorem ensureType (h : p.Interned) (fullName : String) : (p.ensureType fullName).2.Interned := by
  unfold Program.ensureType
  split
  · exact h
  · exact h.addType _

theorem ensureDeclaringType (h : p.Interned) (declaringType : String) :
    (p.ensureDeclaringType declaringType).Interned := by
  unfold Program.ensureDeclaringType
  split
  · exact h
  · exact h.ensureType _

theorem addMethod (h : p.Interned) (row : Method) : (p.addMethod row).2.Interned where
  keys := by
    rw [keys_addMethod]
    exact Distinct.nodup_insert h.keys
  names := by
    rw [names_addMethod]
    exact (h.ensureDeclaringType _).names

theorem ensureMethod (h : p.Interned) (key : String) : (p.ensureMethod key).2.Interned := by
  unfold Program.ensureMethod
  split
  · exact h
  · exact h.addMethod _

end Interned

/-! ## Places that stay -/

/-- Every key and every full name of `p` stands at the same place in `q`. -/
structure Grows (p q : Program) : Prop where
  keys : p.keys <+: q.keys
  names : p.names <+: q.names

namespace Grows

theorem refl (p : Program) : Grows p p := ⟨List.prefix_refl _, List.prefix_refl _⟩

theorem trans (h : Grows p q) (h' : Grows q r) : Grows p r :=
  ⟨h.keys.trans h'.keys, h.names.trans h'.names⟩

theorem idxOf?_of_prefix {xs ys : List String} {text : String} (h : xs <+: ys)
    (hi : xs.idxOf? text = some id) : ys.idxOf? text = some id := by
  obtain ⟨zs, rfl⟩ := h
  rw [List.idxOf?] at hi ⊢
  rw [List.findIdx?_append, hi]
  rfl

theorem methodId? (h : Grows p q) (hid : p.methodId? key = some id) : q.methodId? key = some id := by
  rw [methodId?_eq] at hid ⊢
  exact idxOf?_of_prefix h.keys hid

theorem typeId? (h : Grows p q) (hid : p.typeId? fullName = some id) :
    q.typeId? fullName = some id := by
  rw [typeId?_eq] at hid ⊢
  exact idxOf?_of_prefix h.names hid

end Grows

theorem grows_ensureType (p : Program) (fullName : String) : Grows p (p.ensureType fullName).2 where
  keys := by
    have hkeys : (p.ensureType fullName).2.keys = p.keys :=
      congrArg (List.map Method.key) (methods_ensureType p fullName)
    exact hkeys ▸ List.prefix_refl _
  names := by
    rw [names_ensureType]
    exact Distinct.prefix_insert _ _

theorem grows_ensureMethod (p : Program) (key : String) : Grows p (p.ensureMethod key).2 where
  keys := by
    rw [keys_ensureMethod]
    exact Distinct.prefix_insert _ _
  names := by
    unfold ensureMethod
    split
    · exact List.prefix_refl _
    · rw [names_addMethod, names_ensureDeclaringType]
      split
      · exact List.prefix_refl _
      · exact Distinct.prefix_insert _ _

/-- The place that interning answers with is the one where the key stands afterwards. -/
theorem idxOf?_concat {xs : List String} {text : String} (h : text ∉ xs) :
    (xs ++ [text]).idxOf? text = some xs.length := by
  rw [List.idxOf?, List.findIdx?_append]
  rw [← List.idxOf?_eq_none_iff, List.idxOf?] at h
  rw [h]
  simp

theorem typeId?_ensureType (p : Program) (fullName : String) :
    (p.ensureType fullName).2.typeId? fullName = some (p.ensureType fullName).1 := by
  cases hid : p.typeId? fullName with
  | some id => simp [ensureType, hid]
  | none =>
    have hplace := idxOf?_concat (typeId?_eq_none_iff.mp hid)
    rw [names, List.length_map] at hplace
    rw [typeId?_eq, names_ensureType, Distinct.insert_of_not_mem (typeId?_eq_none_iff.mp hid), names,
      hplace]
    have hid' : p.typeId? (TypeRow.placeholder fullName).fullName = none := hid
    rw [ensureType, hid, addType, hid']

theorem methodId?_ensureMethod (p : Program) (key : String) :
    (p.ensureMethod key).2.methodId? key = some (p.ensureMethod key).1 := by
  cases hid : p.methodId? key with
  | some id => simp [ensureMethod, hid]
  | none =>
    have hnew := methodId?_eq_none_iff.mp hid
    have hplace := idxOf?_concat hnew
    rw [keys, List.length_map] at hplace
    rw [methodId?_eq, keys_ensureMethod, Distinct.insert_of_not_mem hnew, keys, hplace,
      ensureMethod_eq_of_not_mem hnew]

end Program

end CallAudit

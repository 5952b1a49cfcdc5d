import CallAudit.Json.Record
import CallAudit.Proofs.MapM

/-!
# Records that were written as objects

In an object that names no member twice, a member is found under its name wherever it stands
(`members?_ofMembers`).  So the fields of a record can be picked out of an object by any list of names,
and an object can hold the fields of two records side by side.
-/

namespace CallAudit.Json

variable {members : List (String × Json)}

theorem member?_ofMembers (h : (members.map Prod.fst).Nodup) (name : String) :
    member? name (members.map fun (name, value) => (some name, value)) =
      some (members.lookup name) := by
  induction members with
  | nil => rfl
  | cons m members ih =>
    obtain ⟨name', value⟩ := m
    obtain ⟨hnew, hrest⟩ := List.nodup_cons.mp h
    rw [List.map_cons, List.lookup_cons]
    by_cases hname : name = name'
    · subst hname
      -- no later member has the name
      have hnone : (members.map fun (name, value) => ((some name : Spelt), value)).filter
          (·.1 == some name) = [] := by
        rw [List.filter_eq_nil_iff]
        intro entry hentry heq
        obtain ⟨m, hm, rfl⟩ := List.mem_map.mp hentry
        exact hnew (List.mem_map.mpr ⟨m, hm, by simpa using heq⟩)
      rw [member?, List.filter_cons_of_pos (by simp), hnone]
      simp
    · have hdiffer : (name == name') = false := beq_eq_false_iff_ne.mpr hname
      rw [member?, List.filter_cons_of_neg (by simpa using Ne.symm hname), ← member?, ih hrest,
        hdiffer]

/-- Members are found under their names, in whatever order they are asked for. -/
theorem members?_ofMembers (h : (members.map Prod.fst).Nodup) (names : List String) :
    members? names (ofMembers members) = some (names.map fun name => members.lookup name) := by
  have hspelt : (members.map fun (name, value) => ((some name : Spelt), value)).all (·.1.isSome) =
      true := by simp
  rw [ofMembers, members?, if_pos hspelt, mapM_some_iff, List.forall₂_map_right_iff,
    List.forall₂_same]
  exact fun name _ => member?_ofMembers h name

/-- An object is asked for the fields of a record by their names. -/
theorem fields?_ofMembers (h : (members.map Prod.fst).Nodup) (names : List String) :
    fields? names (ofMembers members) = some (names.map fun name => members.lookup name) :=
  members?_ofMembers h names

theorem list?_map {α : Type} {read : Json → Option α} {toJson : α → Json}
    (h : ∀ a, read (toJson a) = some a) (xs : List α) :
    list? read (.array (xs.map toJson)) = some xs := by
  rw [list?, items?, Option.bind_some, mapM_some_iff, List.forall₂_map_left_iff, List.forall₂_same]
  exact fun a _ => h a

theorem list?_ofTexts (lines : List String) : list? text? (ofTexts lines) = some lines :=
  list?_map (fun line => (rfl : text? (ofText line) = some line)) lines

theorem nullable_ofText? (s : Option String) : nullable text? (ofText? s) = some s := by
  cases s <;> rfl

end CallAudit.Json

import CallAudit.Proofs.Program.Enclosing
import CallAudit.Proofs.Program.Requests
import CallAudit.Proofs.Text.Cut

/-!
# Types around a type

Where namespaces and enclosing types are what the names spell out, names get shorter on the way to the
outermost type, so that no chain has a cycle (`Program.SpelledOut.acyclic`).  The walk then finds the
namespace that a name spells out exactly if all types that the name is nested in have rows
(`Program.SpelledOut.outermostNamespace?_eq_some_iff`).
-/

namespace CallAudit

/-! ## Names of nested types -/

/-- Whether a full name is that of a type nested in another one, at whatever depth. -/
def NestedIn (fullName outer : String) : Prop :=
  ∃ inner, fullName = outer ++ "/" ++ inner

namespace TypeRow

variable {fullName outer : String}

theorem toList_of_nestedIn {inner : String} (h : fullName = outer ++ "/" ++ inner) :
    fullName.toList = outer.toList ++ '/' :: inner.toList := by
  rw [h, String.toList_append, String.toList_append, List.append_assoc]
  rfl

theorem nestedIn_of_toList {after : List Char}
    (h : fullName.toList = outer.toList ++ '/' :: after) : NestedIn fullName outer := by
  refine ⟨String.ofList after, String.toList_injective ?_⟩
  simp [h]

theorem enclosingOf_eq_some (h : enclosingOf fullName = some outer) :
    ∃ after, Cut.splitLast? '/' fullName.toList = some (outer.toList, after) := by
  unfold enclosingOf Text.beforeLast? at h
  obtain ⟨⟨before, after⟩, hsplit, rfl⟩ := Option.map_eq_some_iff.mp h
  exact ⟨after, by rw [hsplit, String.toList_ofList]⟩

theorem nestedIn_of_enclosingOf (h : enclosingOf fullName = some outer) :
    NestedIn fullName outer := by
  obtain ⟨after, hsplit⟩ := enclosingOf_eq_some h
  exact nestedIn_of_toList (Cut.splitLast?_eq_some hsplit)

theorem not_nestedIn_of_enclosingOf (h : enclosingOf fullName = none) : ¬NestedIn fullName outer := by
  rintro ⟨inner, hname⟩
  unfold enclosingOf Text.beforeLast? at h
  rw [Option.map_eq_none_iff] at h
  refine Cut.splitLast?_eq_none h ?_
  rw [toList_of_nestedIn hname]
  exact List.mem_append_right _ List.mem_cons_self

/-- A type is nested in its enclosing type and in what that one is nested in. -/
theorem nestedIn_iff_of_enclosingOf (h : enclosingOf fullName = some outer) {other : String} :
    NestedIn fullName other ↔ other = outer ∨ NestedIn outer other := by
  obtain ⟨after, hsplit⟩ := enclosingOf_eq_some h
  constructor
  · rintro ⟨inner, hname⟩
    rcases Cut.before_of_splitLast? hsplit (toList_of_nestedIn hname) with hsame | ⟨rest, hrest⟩
    · exact Or.inl (String.toList_injective hsame)
    · exact Or.inr (nestedIn_of_toList hrest)
  · rintro (rfl | ⟨inner, houter⟩)
    · exact nestedIn_of_enclosingOf h
    · obtain ⟨inner', hname⟩ := nestedIn_of_enclosingOf h
      exact ⟨inner ++ "/" ++ inner', by rw [hname, houter]; simp only [String.append_assoc]⟩

theorem namespaceOf_of_nestedIn (h : NestedIn fullName outer) :
    namespaceOf fullName = namespaceOf outer := by
  obtain ⟨inner, hname⟩ := h
  unfold namespaceOf Text.beforeFirst
  rw [toList_of_nestedIn hname, Cut.beforeFirst_append]

theorem length_lt_of_enclosingOf (h : enclosingOf fullName = some outer) :
    outer.length < fullName.length := by
  obtain ⟨inner, hname⟩ := nestedIn_of_enclosingOf h
  rw [← String.length_toList, ← String.length_toList, toList_of_nestedIn hname]
  simp

/-- A row that says of its type what the name spells out. -/
structure SpelledOut (row : TypeRow) : Prop where
  «namespace» : row.namespace = namespaceOf row.fullName
  enclosing : row.enclosing = enclosingOf row.fullName

theorem spelledOut_placeholder (fullName : String) : (placeholder fullName).SpelledOut := ⟨rfl, rfl⟩

end TypeRow

/-! ## Names that spell out what is around a type -/

namespace Program

variable {p : Program} {name outer last : String}

/-- Tables that say of every type what its name spells out. -/
def SpelledOut (p : Program) : Prop :=
  ∀ row ∈ p.types, row.SpelledOut

/-- Whether all types that a type is nested in by its name have rows. -/
def HasEnclosing (p : Program) (fullName : String) : Prop :=
  ∀ outer, NestedIn fullName outer → outer ∈ p.names

namespace SpelledOut

theorem exists_typeNamed? (h : p.SpelledOut) (hname : name ∈ p.names) : ∃ row : TypeRow,
    p.typeNamed? name = some row ∧ row.fullName = name ∧ row.SpelledOut := by
  obtain ⟨row, hrow, htext⟩ := List.mem_map.mp hname
  cases hfind : p.typeNamed? name with
  | none => exact absurd (List.find?_eq_none.mp hfind row hrow) (by simp [htext])
  | some found =>
    have hfound := List.find?_some hfind
    exact ⟨found, rfl, eq_of_beq hfound, h found (List.mem_of_find?_eq_some hfind)⟩

theorem enclosing?_eq (h : p.SpelledOut) (hname : name ∈ p.names) :
    p.enclosing? name = TypeRow.enclosingOf name := by
  obtain ⟨row, hrow, rfl, hspelled⟩ := h.exists_typeNamed? hname
  rw [enclosing?, hrow, Option.bind_some, hspelled.enclosing]

theorem enclosingOf_of_enclosing? (h : p.SpelledOut) (henclosing : p.enclosing? name = some outer) :
    TypeRow.enclosingOf name = some outer := by
  rw [← h.enclosing?_eq (mem_names_of_enclosing? (by rw [henclosing]; rfl)), henclosing]

/-- Names get shorter on the way outwards. -/
theorem length_lt_of_transGen (h : p.SpelledOut)
    (hway : Relation.TransGen p.EnclosedBy name outer) : outer.length < name.length := by
  induction hway with
  | single hstep => exact TypeRow.length_lt_of_enclosingOf (h.enclosingOf_of_enclosing? hstep)
  | tail _ hstep ih =>
    exact (TypeRow.length_lt_of_enclosingOf (h.enclosingOf_of_enclosing? hstep)).trans ih

theorem acyclic (h : p.SpelledOut) (name : String) : p.Acyclic name :=
  fun _ _ hround => absurd (h.length_lt_of_transGen hround) (Nat.lt_irrefl _)

/-- All names of a chain spell out one namespace, and the last one has a row if all have one. -/
theorem chainEnds_spec (h : p.SpelledOut) (hname : name ∈ p.names) (hends : p.ChainEnds name last) :
    TypeRow.namespaceOf last = TypeRow.namespaceOf name ∧ (last ∈ p.names ↔ p.HasEnclosing name) := by
  obtain ⟨hchain, hend⟩ := hends
  -- along the chain from its end, since a name is nested in what the next one is nested in
  induction hchain using Relation.ReflTransGen.head_induction_on with
  | refl =>
    rw [h.enclosing?_eq hname] at hend
    refine ⟨rfl, fun _ outer hnested => ?_, fun _ => hname⟩
    exact absurd hnested (TypeRow.not_nestedIn_of_enclosingOf hend)
  | @head name outer hstep hchain ih =>
    have hspelled := h.enclosingOf_of_enclosing? hstep
    have hhas : p.HasEnclosing name ↔ outer ∈ p.names ∧ p.HasEnclosing outer := by
      unfold HasEnclosing
      simp only [TypeRow.nestedIn_iff_of_enclosingOf hspelled, or_imp, forall_and, forall_eq]
    rw [TypeRow.namespaceOf_of_nestedIn (TypeRow.nestedIn_of_enclosingOf hspelled), hhas]
    by_cases houter : outer ∈ p.names
    · obtain ⟨hnamespace, hmem⟩ := ih houter
      exact ⟨hnamespace, by rw [hmem, and_iff_right houter]⟩
    · -- the chain ends at a type that has no row
      rcases hchain.cases_head with rfl | ⟨further, hfurther, -⟩
      · exact ⟨rfl, fun hmem => absurd hmem houter, fun hboth => absurd hboth.1 houter⟩
      · exact absurd (mem_names_of_enclosing? (Option.isSome_of_eq_some hfurther)) houter

/-- The walk finds the namespace that a name spells out, if there is one, exactly if all types that the
name is nested in have rows. -/
theorem outermostNamespace?_eq_some_iff (h : p.SpelledOut) {row : TypeRow} (hrow : row ∈ p.types)
    (ns : String) : p.outermostNamespace? row.fullName = some ns ↔
      row.namespace = ns ∧ ns.isEmpty = false ∧ p.HasEnclosing row.fullName := by
  have hname : row.fullName ∈ p.names := List.mem_map_of_mem hrow
  obtain ⟨hnamespace, hmem⟩ := h.chainEnds_spec hname (h.acyclic row.fullName).chainEnds
  rw [(h row hrow).namespace, ← hnamespace, ← hmem, outermostNamespace?]
  by_cases hlast : p.outermostType row.fullName ∈ p.names
  · obtain ⟨last, hfind, htext, hspelled⟩ := h.exists_typeNamed? hlast
    rw [hfind, Option.bind_some, hspelled.namespace, htext]
    cases hempty : (TypeRow.namespaceOf (p.outermostType row.fullName)).isEmpty with
    | true =>
      refine ⟨fun hnone => absurd hnone (by simp), ?_⟩
      rintro ⟨rfl, hsome, -⟩
      exact absurd (hempty.symm.trans hsome) (by simp)
    | false =>
      refine ⟨fun hsome => ?_, fun ⟨hsame, _⟩ => by rw [hsame]; rfl⟩
      obtain rfl := Option.some.inj hsome
      exact ⟨rfl, hempty, hlast⟩
  · have hfind : p.typeNamed? (p.outermostType row.fullName) = none := by
      refine List.find?_eq_none.mpr fun found hfound htext => hlast ?_
      exact List.mem_map.mpr ⟨found, hfound, eq_of_beq htext⟩
    rw [hfind, Option.bind_none]
    exact ⟨fun hnone => absurd hnone (by simp), fun hall => absurd hall.2.2 hlast⟩

/-- The walk finds no namespace if the name spells out none, or some type that it is nested in has no
row. -/
theorem outermostNamespace?_eq_none_iff (h : p.SpelledOut) {row : TypeRow} (hrow : row ∈ p.types) :
    p.outermostNamespace? row.fullName = none ↔
      row.namespace.isEmpty = true ∨ ¬p.HasEnclosing row.fullName := by
  rw [Option.eq_none_iff_forall_ne_some]
  simp only [ne_eq, h.outermostNamespace?_eq_some_iff hrow, not_and, forall_eq']
  cases row.namespace.isEmpty <;> simp

end SpelledOut

end Program

/-! ## Requests that leave names to speak for themselves -/

namespace Request

/-- A request that says of no type more than its name spells out. -/
def SpelledOut : Request → Prop
  | addType row => row.SpelledOut
  | _ => True

theorem mem_offers {α : Type} {offer? : List String → Request → Option α} {known : List String}
    {rs : List Request} {x : α} (h : x ∈ offers offer? known rs) :
    ∃ r ∈ rs, ∃ known', offer? known' r = some x := by
  induction rs generalizing known with
  | nil => exact absurd h List.not_mem_nil
  | cons r rs ih =>
    rw [offers, List.mem_append, Option.mem_toList] at h
    rcases h with hfirst | hrest
    · exact ⟨r, List.mem_cons_self, known, hfirst⟩
    · obtain ⟨r', hr', hoffer⟩ := ih hrest
      exact ⟨r', List.mem_cons_of_mem _ hr', hoffer⟩

theorem SpelledOut.type? {r : Request} (hr : r.SpelledOut) {known : List String} {row : TypeRow}
    (h : r.type? known = some row) : row.SpelledOut := by
  have hdeclaring : ∀ {m : Method}, declaring? m = some row → row.SpelledOut := by
    intro m hm
    unfold declaring? at hm
    split at hm
    · cases hm
    · rw [← Option.some.inj hm]
      exact TypeRow.spelledOut_placeholder _
  cases r with
  | addType row' => exact Option.some.inj h ▸ hr
  | addMethod m => exact hdeclaring h
  | ensureType fullName =>
    rw [← Option.some.inj h]
    exact TypeRow.spelledOut_placeholder _
  | ensureMethod key =>
    rw [Request.type?] at h
    split at h
    · cases h
    · exact hdeclaring h

end Request

theorem Program.spelledOut_after {rs : List Request} (hrs : ∀ r ∈ rs, r.SpelledOut) :
    (after rs).SpelledOut := by
  intro row hrow
  obtain ⟨r, hr, known, hoffer⟩ := Request.mem_offers (mem_types_of_mem_after hrow)
  exact (hrs r hr).type? hoffer

end CallAudit

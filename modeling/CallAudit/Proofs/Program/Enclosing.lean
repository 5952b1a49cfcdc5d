import CallAudit.Program.Names
import CallAudit.Proofs.Program.Interning
import Mathlib.Data.List.Perm.Subperm
import Mathlib.Logic.Relation

/-!
# Chains of enclosing types

From a type to the one around it, to the one around that: such a chain ends at a name that has no row,
or whose row has no type around it, or it comes back to one of its names.  A walk along a chain without
a cycle visits no row twice, so that as many steps as there are rows are enough to get to its end, and
the outermost type is the last name of the chain (`Program.outermostType_ends_chain`).
-/

namespace CallAudit.Program

variable {p : Program} {name other outer last : String} {n : Nat}

/-! ## The walk outwards -/

theorem outward_of_enclosing?_eq_none (h : p.enclosing? name = none) (n : Nat) :
    p.outward n name = name := by
  cases n with
  | zero => rfl
  | succ n => rw [outward, h]

theorem outward_add (m n : Nat) (name : String) :
    p.outward (m + n) name = p.outward n (p.outward m name) := by
  induction m generalizing name with
  | zero => rw [Nat.zero_add, outward]
  | succ m ih =>
    rw [Nat.succ_add, outward, outward]
    cases henclosing : p.enclosing? name with
    | some outer => exact ih outer
    | none => exact (outward_of_enclosing?_eq_none henclosing n).symm

/-- A walk that can go on could go on before. -/
theorem enclosing?_outward_isSome {i : Nat} (hi : i ≤ n)
    (h : (p.enclosing? (p.outward n name)).isSome) : (p.enclosing? (p.outward i name)).isSome := by
  rw [Option.isSome_iff_ne_none] at h ⊢
  intro hnone
  obtain ⟨k, rfl⟩ := Nat.exists_eq_add_of_le hi
  rw [outward_add, outward_of_enclosing?_eq_none hnone] at h
  exact h hnone

theorem mem_names_of_enclosing? (h : (p.enclosing? name).isSome) : name ∈ p.names := by
  obtain ⟨outer, houter⟩ := Option.isSome_iff_exists.mp h
  obtain ⟨row, hrow, -⟩ := Option.bind_eq_some_iff.mp houter
  have hname := List.find?_some hrow
  exact List.mem_map.mpr ⟨row, List.mem_of_find?_eq_some hrow, eq_of_beq hname⟩

/-- A walk that has visited different types and can go on has taken fewer steps than there are rows. -/
theorem lt_length_of_distinct
    (hdistinct : ∀ i j, i < j → j ≤ n → p.outward i name ≠ p.outward j name)
    (h : (p.enclosing? (p.outward n name)).isSome) : n < p.types.length := by
  -- what the walk has visited is `n + 1` different names of rows
  have hnodup : ((List.range (n + 1)).map (p.outward · name)).Nodup := by
    refine List.Nodup.map_on (fun i hi j hj hsame => ?_) List.nodup_range
    rw [List.mem_range] at hi hj
    by_contra hne
    rcases Nat.lt_or_gt_of_ne hne with hlt | hlt
    · exact hdistinct i j hlt (by omega) hsame
    · exact hdistinct j i hlt (by omega) hsame.symm
  have hvisited : (List.range (n + 1)).map (p.outward · name) ⊆ p.names := by
    intro visited hmem
    obtain ⟨i, hi, rfl⟩ := List.mem_map.mp hmem
    rw [List.mem_range] at hi
    exact mem_names_of_enclosing? (enclosing?_outward_isSome (by omega) h)
  have hlength := (List.subperm_of_subset hnodup hvisited).length_le
  rw [List.length_map, List.length_range, names, List.length_map] at hlength
  omega

/-! ## Chains -/

/-- The row of one type says that the other is around it. -/
def EnclosedBy (p : Program) (inner outer : String) : Prop :=
  p.enclosing? inner = some outer

/-- A name stands on the chain of enclosing types that begins at a name. -/
def OnChain (p : Program) (name other : String) : Prop :=
  Relation.ReflTransGen p.EnclosedBy name other

/-- The chain that begins at a name comes back to none of its names. -/
def Acyclic (p : Program) (name : String) : Prop :=
  ∀ other, p.OnChain name other → ¬Relation.TransGen p.EnclosedBy other other

/-- The chain that begins at a name has a last name. -/
structure ChainEnds (p : Program) (name last : String) : Prop where
  onChain : p.OnChain name last
  enclosing? : p.enclosing? last = none

theorem EnclosedBy.eq (h : p.EnclosedBy name outer) (h' : p.EnclosedBy name other) : outer = other :=
  Option.some.inj (h.symm.trans h')

/-- A name after which the chain goes on is no last one. -/
theorem ChainEnds.not_enclosedBy (h : p.ChainEnds name last) : ¬p.EnclosedBy last outer := by
  intro houter
  have hnone := h.enclosing?
  rw [EnclosedBy, hnone] at houter
  exact absurd houter (by simp)

theorem onChain_outward (n : Nat) (name : String) : p.OnChain name (p.outward n name) := by
  induction n generalizing name with
  | zero => exact .refl
  | succ n ih =>
    rw [outward]
    cases henclosing : p.enclosing? name with
    | none => exact .refl
    | some outer => exact .head henclosing (ih outer)

/-- The walk leads on from a name to a later one as long as it can go on. -/
theorem transGen_outward {i j : Nat} (hij : i < j) (hj : j ≤ n)
    (h : (p.enclosing? (p.outward n name)).isSome) :
    Relation.TransGen p.EnclosedBy (p.outward i name) (p.outward j name) := by
  -- a walk that can go on after `n` steps has moved at each of them
  have hstep : ∀ k < n, p.EnclosedBy (p.outward k name) (p.outward (k + 1) name) := by
    intro k hk
    obtain ⟨outer, houter⟩ := Option.isSome_iff_exists.mp
      (enclosing?_outward_isSome (Nat.le_of_lt hk) h)
    rw [EnclosedBy, outward_add k 1, outward, houter]
    rfl
  induction j with
  | zero => omega
  | succ j ih =>
    rcases Nat.lt_succ_iff_lt_or_eq.mp hij with hlt | rfl
    · exact (ih hlt (by omega)).tail (hstep j hj)
    · exact .single (hstep i hj)

/-- On a chain without a cycle the walk has come to the end when it has taken a step more than there
are rows. -/
theorem Acyclic.enclosing?_outermostType (h : p.Acyclic name) :
    p.enclosing? (p.outermostType name) = none := by
  by_contra hsome
  have hopen := Option.isSome_iff_ne_none.mpr hsome
  have hlt := lt_length_of_distinct (fun i j hij hj hsame => ?_) hopen
  · omega
  · -- a name that the walk meets again lies on a cycle
    have hround := transGen_outward hij hj hopen
    rw [← hsame] at hround
    exact h _ (onChain_outward i name) hround

namespace ChainEnds

/-- Every name of a chain leads to the last one. -/
theorem of_onChain (h : p.ChainEnds name last) (hother : p.OnChain name other) :
    p.ChainEnds other last := by
  refine ⟨?_, h.enclosing?⟩
  have hunique : Relator.RightUnique p.EnclosedBy := fun _ _ _ => EnclosedBy.eq
  -- of two names of one chain one leads to the other
  rcases Relation.ReflTransGen.total_of_right_unique hunique hother h.onChain with hon | hback
  · exact hon
  · rcases hback.cases_head with rfl | ⟨outer, houter, -⟩
    · exact .refl
    · exact absurd houter h.not_enclosedBy

theorem eq (h : p.ChainEnds name last) (h' : p.ChainEnds name other) : last = other := by
  rcases (h.of_onChain h'.onChain).onChain.cases_head with hsame | ⟨outer, houter, -⟩
  · exact hsame.symm
  · exact absurd houter h'.not_enclosedBy

/-- A name from which a last one is reached does not come back to itself. -/
theorem not_transGen (h : p.ChainEnds name last) : ¬Relation.TransGen p.EnclosedBy name name := by
  obtain ⟨hon, hend⟩ := h
  -- a cycle through a name is one through the next name as well, up to the last one, which has no next
  induction hon using Relation.ReflTransGen.head_induction_on with
  | refl =>
    intro hround
    obtain ⟨outer, houter, -⟩ := Relation.TransGen.head'_iff.mp hround
    exact (ChainEnds.mk .refl hend).not_enclosedBy houter
  | head hstep hon ih =>
    intro hround
    obtain ⟨outer, houter, hback⟩ := Relation.TransGen.head'_iff.mp hround
    obtain rfl := hstep.eq houter
    exact ih (.tail' hback hstep)

theorem acyclic (h : p.ChainEnds name last) : p.Acyclic name :=
  fun _ hother => (h.of_onChain hother).not_transGen

end ChainEnds

/-- A chain has no cycle exactly if the walk along it comes to an end. -/
theorem acyclic_iff : p.Acyclic name ↔ p.enclosing? (p.outermostType name) = none :=
  ⟨Acyclic.enclosing?_outermostType, fun h => ChainEnds.acyclic ⟨onChain_outward _ name, h⟩⟩

instance (p : Program) (name : String) : Decidable (p.Acyclic name) :=
  decidable_of_iff _ acyclic_iff.symm

theorem Acyclic.chainEnds (h : p.Acyclic name) : p.ChainEnds name (p.outermostType name) :=
  ⟨onChain_outward _ name, h.enclosing?_outermostType⟩

theorem ChainEnds.outermostType_eq (h : p.ChainEnds name last) : p.outermostType name = last :=
  h.acyclic.chainEnds.eq h

/-- A name has no type around it if it has no row, or a row that says so. -/
theorem enclosing?_eq_none_iff : p.enclosing? name = none ↔
    p.typeNamed? name = none ∨ ∃ row, p.typeNamed? name = some row ∧ row.enclosing = none := by
  unfold enclosing?
  cases p.typeNamed? name <;> simp

/-- The walk to the outermost type stops at a name of the chain of enclosing types, and goes all the way
along a chain without a cycle, however long: it stops at the last name, which has no row or no type
around it and which all names of the chain lead to.  From there it goes no further, and it ends at the
same name for a type and for the one around it. -/
theorem outermostType_ends_chain (p : Program) (name : String) :
    p.OnChain name (p.outermostType name) ∧
    (p.Acyclic name →
      (p.typeNamed? (p.outermostType name) = none ∨
        ∃ row, p.typeNamed? (p.outermostType name) = some row ∧ row.enclosing = none) ∧
      (∀ other, p.OnChain name other → p.OnChain other (p.outermostType name)) ∧
      p.outermostType (p.outermostType name) = p.outermostType name ∧
      ∀ outer, p.EnclosedBy name outer → p.outermostType outer = p.outermostType name) := by
  refine ⟨onChain_outward _ name, fun hacyclic => ?_⟩
  have hends := hacyclic.chainEnds
  refine ⟨enclosing?_eq_none_iff.mp hends.enclosing?, fun other hother => ?_, ?_, fun outer houter => ?_⟩
  · exact (hends.of_onChain hother).onChain
  · exact (hends.of_onChain hends.onChain).outermostType_eq
  · exact (hends.of_onChain (.single houter)).outermostType_eq

/-- Three types, each in the next one, and the last of them in one that has no row. -/
def nested : Program where
  types := [
    { fullName := "App.Outer/Inner", «namespace» := "App", enclosing := some "App.Outer" },
    { fullName := "App.Outer", «namespace» := "App", enclosing := some "App.Gone" },
    { fullName := "App.Outer/Inner/Core", «namespace» := "App", enclosing := some "App.Outer/Inner" }]

/-- The walk uses every row. -/
theorem outermostType_ends_chain_without_row :
    nested.Acyclic "App.Outer/Inner/Core" ∧
      nested.outermostType "App.Outer/Inner/Core" = "App.Gone" ∧
      nested.typeNamed? "App.Gone" = none ∧
      nested.OnChain "App.Outer/Inner" "App.Gone" ∧
      nested.outermostType "App.Gone" = "App.Gone" ∧
      nested.outermostType "App.Outer/Inner" = "App.Gone" := by
  have hacyclic : nested.Acyclic "App.Outer/Inner/Core" := by decide +kernel
  have hlast : nested.outermostType "App.Outer/Inner/Core" = "App.Gone" := by decide +kernel
  have hinner : nested.EnclosedBy "App.Outer/Inner/Core" "App.Outer/Inner" := by
    unfold EnclosedBy
    decide +kernel
  have hgone : (nested.typeNamed? "App.Gone").isSome = false := by decide +kernel
  obtain ⟨-, hall⟩ := outermostType_ends_chain nested "App.Outer/Inner/Core"
  obtain ⟨hrow, hlead, hagain, hsame⟩ := hall hacyclic
  rw [hlast] at hrow hlead hagain hsame
  refine ⟨hacyclic, hlast, ?_, hlead _ (.single hinner), hagain, hsame _ hinner⟩
  refine hrow.resolve_right fun ⟨row, hfound, _⟩ => ?_
  rw [hfound] at hgone
  cases hgone

end CallAudit.Program

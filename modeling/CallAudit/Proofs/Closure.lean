import CallAudit.Reachability
import Mathlib.Data.List.Nodup
import Mathlib.Data.List.Perm.Subperm
import Mathlib.Logic.Relation

/-!
# Closures are exact

A closure holds exactly what can be reached from the roots that count (`mem_reachable_iff`), each node
once, and steps that stay within it add nothing to it (`closure_exact`).  The visit has fuel enough: a
round takes one node off the queue, and only nodes that were never seen enter it.
-/

namespace CallAudit.Closure

variable {α : Type} [DecidableEq α] {neighbours : α → List α} {everything queue seen : List α}
  {fuel : Nat} {node : α}

/-- What a round finds in the neighbourhood of a node. -/
def fresh (neighbours : α → List α) (node : α) (seen : List α) : List α :=
  Distinct.ofList ((neighbours node).filter (· ∉ seen))

theorem mem_fresh {a : α} : a ∈ fresh neighbours node seen ↔ a ∈ neighbours node ∧ a ∉ seen := by
  simp [fresh]

/-- A visit under way: the queue was seen, and what left it has all its neighbours seen. -/
structure Visiting (neighbours : α → List α) (queue seen : List α) : Prop where
  queued : ∀ a ∈ queue, a ∈ seen
  expanded : ∀ a ∈ seen, a ∉ queue → ∀ b ∈ neighbours a, b ∈ seen

theorem Visiting.round (h : Visiting neighbours (node :: queue) seen) :
    Visiting neighbours (queue ++ fresh neighbours node seen)
      (seen ++ fresh neighbours node seen) where
  queued := by
    intro a ha
    rw [List.mem_append] at ha ⊢
    exact ha.imp_left fun ha => h.queued a (List.mem_cons_of_mem node ha)
  expanded := by
    intro a ha hqueue b hb
    rw [List.mem_append, not_or] at hqueue
    have hseen : a ∈ seen := (List.mem_append.mp ha).resolve_right hqueue.2
    by_cases hb' : b ∈ seen
    · exact List.mem_append_left _ hb'
    by_cases hnode : a = node
    · subst hnode
      exact List.mem_append_right _ (mem_fresh.mpr ⟨hb, hb'⟩)
    · refine absurd (h.expanded a hseen ?_ b hb) hb'
      rw [List.mem_cons, not_or]
      exact ⟨hnode, hqueue.1⟩

/-- The nodes that are yet to be seen shrink by what a round finds. -/
theorem unseen_round (seen : List α) (node : α)
    (hall : ∀ a b, b ∈ neighbours a → b ∈ everything) :
    (everything.filter (· ∉ seen ++ fresh neighbours node seen)).length +
      (fresh neighbours node seen).length ≤ (everything.filter (· ∉ seen)).length := by
  -- of the unseen nodes, those that are found are seen now, and the others are still unseen
  have hsplit := List.length_eq_countP_add_countP (fun a => decide (a ∈ fresh neighbours node seen))
    (l := everything.filter (· ∉ seen))
  have hfound : (fresh neighbours node seen).length ≤
      (everything.filter (· ∉ seen)).countP fun a => decide (a ∈ fresh neighbours node seen) := by
    rw [List.countP_eq_length_filter]
    have hnodup : (fresh neighbours node seen).Nodup := Distinct.nodup_ofList _
    refine (hnodup.subperm fun a ha => ?_).length_le
    obtain ⟨hmem, hnew⟩ := mem_fresh.mp ha
    simpa [ha, hnew] using hall node a hmem
  have hrest : everything.filter (· ∉ seen ++ fresh neighbours node seen) =
      (everything.filter (· ∉ seen)).filter fun a =>
        decide ¬decide (a ∈ fresh neighbours node seen) = true := by
    rw [List.filter_filter]
    congr 1
    funext a
    by_cases h₁ : a ∈ seen <;> by_cases h₂ : a ∈ fresh neighbours node seen <;> simp [h₁, h₂]
  rw [hrest, ← List.countP_eq_length_filter]
  omega

theorem subset_visit {a : α} (ha : a ∈ seen) : a ∈ visit neighbours fuel queue seen := by
  induction fuel generalizing queue seen with
  | zero => exact ha
  | succ fuel ih =>
    cases queue with
    | nil => exact ha
    | cons node queue => exact ih (List.mem_append_left _ ha)

/-- Whatever a visit has seen at the end can be reached from what it had seen at the start. -/
theorem reach_of_mem_visit {a : α} (h : ∀ b ∈ queue, b ∈ seen)
    (ha : a ∈ visit neighbours fuel queue seen) :
    ∃ r ∈ seen, Relation.ReflTransGen (fun x y => y ∈ neighbours x) r a := by
  induction fuel generalizing queue seen with
  | zero => exact ⟨a, ha, .refl⟩
  | succ fuel ih =>
    cases queue with
    | nil => exact ⟨a, ha, .refl⟩
    | cons node queue =>
      have hqueue : ∀ b ∈ queue ++ fresh neighbours node seen,
          b ∈ seen ++ fresh neighbours node seen := by
        intro b hb
        rw [List.mem_append] at hb ⊢
        exact hb.imp_left fun hb => h b (List.mem_cons_of_mem node hb)
      obtain ⟨r, hr, hreach⟩ := ih hqueue ha
      rcases List.mem_append.mp hr with hr | hr
      · exact ⟨r, hr, hreach⟩
      · exact ⟨node, h node List.mem_cons_self, .head (mem_fresh.mp hr).1 hreach⟩

/-- With fuel enough, nothing that was seen has a neighbour that was not. -/
theorem visit_closed (hall : ∀ a b, b ∈ neighbours a → b ∈ everything)
    (h : Visiting neighbours queue seen)
    (hfuel : queue.length + (everything.filter (· ∉ seen)).length ≤ fuel) :
    ∀ a ∈ visit neighbours fuel queue seen, ∀ b ∈ neighbours a,
      b ∈ visit neighbours fuel queue seen := by
  induction fuel generalizing queue seen with
  | zero =>
    have hqueue : queue = [] := List.length_eq_zero_iff.mp (by omega)
    subst hqueue
    exact fun a ha b hb => h.expanded a ha (by simp) b hb
  | succ fuel ih =>
    cases queue with
    | nil => exact fun a ha b hb => h.expanded a ha (by simp) b hb
    | cons node queue =>
      refine ih h.round ?_
      have := unseen_round seen node hall
      show (queue ++ fresh neighbours node seen).length +
        (everything.filter (· ∉ seen ++ fresh neighbours node seen)).length ≤ fuel
      rw [List.length_append]
      rw [List.length_cons] at hfuel
      omega

/-- A closure is what its roots reach. -/
theorem mem_reachable_iff {contains : α → Bool} {roots : List α} {a : α}
    (hall : ∀ a b, b ∈ neighbours a → b ∈ everything) :
    a ∈ reachable contains neighbours everything roots ↔
      ∃ r ∈ roots, contains r ∧ Relation.ReflTransGen (fun x y => y ∈ neighbours x) r a := by
  have hstart : ∀ r, r ∈ Distinct.ofList (roots.filter contains) ↔ r ∈ roots ∧ contains r := by
    intro r
    rw [Distinct.mem_ofList, List.mem_filter]
  constructor
  · intro ha
    obtain ⟨r, hr, hreach⟩ := reach_of_mem_visit (fun _ hb => hb) ha
    exact ⟨r, ((hstart r).mp hr).1, ((hstart r).mp hr).2, hreach⟩
  · rintro ⟨r, hr, hcontains, hreach⟩
    have hclosed := visit_closed hall
      (⟨fun _ ha => ha, fun a ha hqueue => absurd ha hqueue⟩ : Visiting neighbours
        (Distinct.ofList (roots.filter contains)) (Distinct.ofList (roots.filter contains)))
      (Nat.add_le_add_left (List.length_filter_le _ everything) _)
    induction hreach with
    | refl => exact subset_visit ((hstart r).mpr ⟨hr, hcontains⟩)
    | tail _ hstep ih => exact hclosed _ ih _ hstep

/-! ## Each node once -/

/-- A round finds nothing that was seen, and nothing twice. -/
theorem nodup_append_fresh (h : seen.Nodup) (node : α) :
    (seen ++ fresh neighbours node seen).Nodup := by
  refine List.nodup_append.mpr ⟨h, Distinct.nodup_ofList _, ?_⟩
  rintro a ha b hb rfl
  exact (mem_fresh.mp hb).2 ha

theorem nodup_visit (h : seen.Nodup) : (visit neighbours fuel queue seen).Nodup := by
  induction fuel generalizing queue seen with
  | zero => exact h
  | succ fuel ih =>
    cases queue with
    | nil => exact h
    | cons node queue => exact ih (nodup_append_fresh h node)

theorem nodup_reachable (contains : α → Bool) (neighbours : α → List α) (everything roots : List α) :
    (reachable contains neighbours everything roots).Nodup :=
  nodup_visit (Distinct.nodup_ofList _)

/-! ## What does not matter -/

section

variable {contains : α → Bool} {roots roots' : List α} {neighbours' : α → List α}
  {everything' : List α}

theorem reachable_filter_roots : reachable contains neighbours everything (roots.filter contains) =
    reachable contains neighbours everything roots := by
  unfold reachable
  rw [List.filter_filter]
  simp only [Bool.and_self]

/-- Roots matter as a set. -/
theorem reachable_perm_of_roots (hall : ∀ a b, b ∈ neighbours a → b ∈ everything)
    (hroots : ∀ r, r ∈ roots' ↔ r ∈ roots) :
    (reachable contains neighbours everything roots').Perm
      (reachable contains neighbours everything roots) := by
  refine (List.perm_ext_iff_of_nodup (nodup_reachable ..) (nodup_reachable ..)).mpr fun a => ?_
  rw [mem_reachable_iff hall, mem_reachable_iff hall]
  simp only [hroots]

/-- More steps than before reach no more, as long as they stay within what was reached. -/
theorem reachable_perm_of_steps (hall : ∀ a b, b ∈ neighbours a → b ∈ everything)
    (hall' : ∀ a b, b ∈ neighbours' a → b ∈ everything')
    (hmore : ∀ a ∈ reachable contains neighbours everything roots, ∀ b ∈ neighbours a,
      b ∈ neighbours' a)
    (hwithin : ∀ a ∈ reachable contains neighbours everything roots, ∀ b ∈ neighbours' a,
      b ∈ reachable contains neighbours everything roots) :
    (reachable contains neighbours' everything' roots).Perm
      (reachable contains neighbours everything roots) := by
  refine (List.perm_ext_iff_of_nodup (nodup_reachable ..) (nodup_reachable ..)).mpr fun a => ?_
  constructor
  · intro ha
    obtain ⟨r, hr, hcontains, hreach⟩ := (mem_reachable_iff hall').mp ha
    -- a walk by the new steps starts within the closure, and no step of it leads out
    induction hreach with
    | refl => exact (mem_reachable_iff hall).mpr ⟨r, hr, hcontains, .refl⟩
    | tail hwalk hstep ih =>
      exact hwithin _ (ih ((mem_reachable_iff hall').mpr ⟨r, hr, hcontains, hwalk⟩)) _ hstep
  · intro ha
    obtain ⟨r, hr, hcontains, hreach⟩ := (mem_reachable_iff hall).mp ha
    refine (mem_reachable_iff hall').mpr ⟨r, hr, hcontains, ?_⟩
    -- a walk by the old steps passes only through the closure, where they are still there
    induction hreach with
    | refl => exact .refl
    | tail hwalk hstep ih =>
      have hmem := (mem_reachable_iff hall).mpr ⟨r, hr, hcontains, hwalk⟩
      exact (ih hmem).tail (hmore _ hmem _ hstep)

end

theorem mem_of_mem_rowOf (rows : List (α × List α)) {a b : α} (h : b ∈ rowOf rows a) :
    b ∈ rows.flatMap Prod.snd := by
  unfold rowOf at h
  cases hrow : rows.lookup a with
  | none =>
    rw [hrow] at h
    exact absurd h List.not_mem_nil
  | some row =>
    rw [hrow] at h
    obtain ⟨before, after, rfl, -⟩ := List.lookup_eq_some_iff.mp hrow
    exact List.mem_flatMap.mpr ⟨(a, row), by simp, h⟩

/-- The closure of some roots, for steps that lead to finitely many nodes: it holds each node once, and
exactly the nodes that steps lead to from a root that counts.  Hence it holds every neighbour of its
nodes, whether that would count as a root or not.  Roots that do not count give nothing, and neither do
roots that are repeated.  Nor do steps that stay within the closure, such as those from a node to itself
and those that close a circle. -/
theorem closure_exact (hall : ∀ a b, b ∈ neighbours a → b ∈ everything) (contains : α → Bool)
    (roots : List α) :
    let closure := reachable contains neighbours everything roots
    closure.Nodup ∧
      (∀ a, a ∈ closure ↔
        ∃ r ∈ roots, contains r ∧ Relation.ReflTransGen (fun x y => y ∈ neighbours x) r a) ∧
      (∀ a ∈ closure, ∀ b ∈ neighbours a, b ∈ closure) ∧
      reachable contains neighbours everything (roots.filter contains) = closure ∧
      (∀ roots', (∀ r, r ∈ roots' ↔ r ∈ roots) →
        (reachable contains neighbours everything roots').Perm closure) ∧
      ∀ neighbours' everything', (∀ a b, b ∈ neighbours' a → b ∈ everything') →
        (∀ a ∈ closure, ∀ b ∈ neighbours a, b ∈ neighbours' a) →
        (∀ a ∈ closure, ∀ b ∈ neighbours' a, b ∈ closure) →
        (reachable contains neighbours' everything' roots).Perm closure := by
  intro closure
  refine ⟨nodup_reachable .., fun a => mem_reachable_iff hall, ?_, reachable_filter_roots,
    fun roots' => reachable_perm_of_roots hall,
    fun neighbours' everything' => reachable_perm_of_steps hall⟩
  intro a ha b hb
  obtain ⟨r, hr, hcontains, hreach⟩ := (mem_reachable_iff hall).mp ha
  exact (mem_reachable_iff hall).mpr ⟨r, hr, hcontains, hreach.tail hb⟩

/-- Three nodes in a circle, of which one leads to itself and one to a node without a row. -/
def circle : List (Nat × List Nat) := [(0, [1]), (1, [1, 2]), (2, [0, 3]), (4, [5])]

/-- A root that is repeated and one without a row reach the circle and the node it leads to. -/
theorem closure_exact_circle :
    reachableInRows circle [1, 9, 1] = [1, 2, 0, 3] ∧ (reachableInRows circle [1, 9, 1]).Nodup ∧
      Relation.ReflTransGen (fun x y => y ∈ rowOf circle x) 1 3 ∧
      (circle.lookup 3).isSome = false ∧
      (reachableInRows circle [9, 1, 1]).Perm (reachableInRows circle [1, 9, 1]) := by
  have hclosure : reachableInRows circle [1, 9, 1] = [1, 2, 0, 3] := by decide
  obtain ⟨hnodup, hmem, -, -, hroots, -⟩ := closure_exact
    (fun _ _ => mem_of_mem_rowOf circle) (fun a => (circle.lookup a).isSome) [1, 9, 1]
  refine ⟨hclosure, hnodup, ?_, by decide, hroots [9, 1, 1] (by simp)⟩
  have hlast : 3 ∈ reachableInRows circle [1, 9, 1] := by
    rw [hclosure]
    decide
  obtain ⟨r, hr, hcontains, hreach⟩ := (hmem 3).mp hlast
  -- only one of the roots has a row
  have hone : ∀ r ∈ [1, 9, 1], (circle.lookup r).isSome = true → r = 1 := by decide
  exact hone r hr hcontains ▸ hreach

end CallAudit.Closure

import CallAudit.Search.BreadthFirst
import Mathlib.Data.List.Chain
import Mathlib.Order.Bounds.Basic

/-!
# Permitted walks

What a search looks for, said without the search: the walks that its constraints permit, and their
lengths.  A walk is a list of nodes; `WalkTo` counts its steps and grows it at the end, which is how
a search finds it.
-/

namespace CallAudit

namespace Constraints

variable (c : Constraints) (neighbours : Array (List Nat))

/-- Whether a walk may go on from a node that it has come to. -/
def passes (v : Nat) : Bool :=
  !c.blocks v && !c.isDestination v && !c.isDeadEnd v

/-- Whether a walk may go from `u` to `v`. -/
def Crosses (u v : Nat) : Prop :=
  v ∈ neighbours[u]?.getD [] ∧ c.isForbidden u v = false

/-- The walks from `source` to `target` that the constraints permit.  Every node between the two ends
must let the walk pass; nothing is asked of the ends. -/
structure Permits (source target : Nat) (walk : List Nat) : Prop where
  starts : walk.head? = some source
  ends : walk.getLast? = some target
  crosses : walk.IsChain (c.Crosses neighbours)
  passes : ∀ x ∈ walk.tail.dropLast, c.passes x

/-- The numbers of steps in which `target` can be walked to. -/
def walkLengths (source target : Nat) : Set Nat :=
  {steps | ∃ walk, c.Permits neighbours source target walk ∧ walk.length = steps + 1}

/-- Some permitted walk of so many steps leads to a node. -/
inductive WalkTo (source : Nat) : (steps target : Nat) → Prop
  | source : WalkTo source 0 source
  | step {steps u v : Nat} : WalkTo source steps u → (u = source ∨ c.passes u) →
      c.Crosses neighbours u v → WalkTo source (steps + 1) v

end Constraints

namespace Constraints.Permits

variable {c : Constraints} {neighbours : Array (List Nat)} {source u v : Nat} {walk : List Nat}

theorem singleton : c.Permits neighbours source source [source] :=
  ⟨rfl, rfl, List.isChain_singleton source, by simp⟩

theorem ne_nil (h : c.Permits neighbours source u walk) : walk ≠ [] := by
  rintro rfl
  exact absurd h.starts (by simp)

theorem eq_singleton_of_length (h : c.Permits neighbours source u walk) (hlen : walk.length = 1) :
    walk = [source] := by
  obtain ⟨x, rfl⟩ := List.length_eq_one_iff.mp hlen
  have hx : x = source := by simpa using h.starts
  rw [hx]

/-- A walk that ends where it starts and visits no node twice does not move. -/
theorem eq_singleton_of_nodup (h : c.Permits neighbours source source walk) (hnodup : walk.Nodup) :
    walk = [source] := by
  obtain ⟨x, rest, rfl⟩ := List.exists_cons_of_ne_nil h.ne_nil
  obtain rfl : x = source := by simpa using h.starts
  cases rest with
  | nil => rfl
  | cons y rest =>
    have hlast := h.ends
    rw [List.getLast?_cons_cons] at hlast
    exact absurd (List.mem_of_getLast? hlast) (List.nodup_cons.mp hnodup).1

theorem passes_of_getElem? {i x : Nat} (h : c.Permits neighbours source u walk) (hpos : 0 < i)
    (hlt : i + 1 < walk.length) (hx : walk[i]? = some x) : c.passes x := by
  refine h.passes x (List.mem_of_getElem? (i := i - 1) ?_)
  rw [List.getElem?_dropLast, List.length_tail, if_pos (by omega), List.getElem?_tail,
    Nat.sub_add_cancel hpos, hx]

theorem crosses_of_getElem? {i x y : Nat} (h : c.Permits neighbours source u walk)
    (hx : walk[i]? = some x) (hy : walk[i + 1]? = some y) : c.Crosses neighbours x y := by
  obtain ⟨hlt, rfl⟩ := List.getElem?_eq_some_iff.mp hx
  obtain ⟨hlt', rfl⟩ := List.getElem?_eq_some_iff.mp hy
  exact List.isChain_iff_getElem.mp h.crosses i hlt'

/-- A walk goes on from its end, if that is where it started or lets it pass. -/
theorem append (h : c.Permits neighbours source u walk) (hpass : walk.length = 1 ∨ c.passes u)
    (hcross : c.Crosses neighbours u v) : c.Permits neighbours source v (walk ++ [v]) where
  starts := by
    rw [List.head?_append_of_ne_nil _ h.ne_nil]
    exact h.starts
  ends := by simp
  crosses := by
    rw [List.isChain_append]
    refine ⟨h.crosses, List.isChain_singleton v, ?_⟩
    intro x hx y hy
    have hxu : u = x := by simpa [h.ends] using hx
    have hyv : v = y := by simpa using hy
    exact hxu ▸ hyv ▸ hcross
  passes := by
    intro x hx
    obtain ⟨a, rest, rfl⟩ := List.exists_cons_of_ne_nil h.ne_nil
    have hmem : x ∈ rest := by simpa using hx
    -- the nodes between the ends of the longer walk are those of the shorter one and its end
    have hne : rest ≠ [] := List.ne_nil_of_mem hmem
    have hlast : rest.getLast hne = u := by
      have := h.ends
      rw [List.getLast?_cons_of_ne_nil hne, List.getLast?_eq_some_getLast hne] at this
      exact Option.some.inj this
    rw [← List.dropLast_append_getLast hne, List.mem_append, List.mem_singleton, hlast] at hmem
    rcases hmem with hmem | rfl
    · exact h.passes x (by simpa using hmem)
    · refine hpass.resolve_left ?_
      have : 0 < rest.length := List.length_pos_of_ne_nil hne
      simp only [List.length_cons]
      omega

/-- A walk of at least one step has a last one. -/
theorem of_append (h : c.Permits neighbours source v (walk ++ [v])) (hne : walk ≠ []) :
    ∃ u, c.Permits neighbours source u walk ∧ (walk.length = 1 ∨ c.passes u) ∧
      c.Crosses neighbours u v := by
  obtain ⟨hchain, -, hjoin⟩ := List.isChain_append.mp h.crosses
  have hends : walk.getLast? = some (walk.getLast hne) := List.getLast?_eq_some_getLast hne
  obtain ⟨a, rest, rfl⟩ := List.exists_cons_of_ne_nil hne
  -- past its start, the shorter walk lies between the ends of the longer one
  have hinner : ∀ x ∈ rest, c.passes x := by
    intro x hx
    exact h.passes x (by simpa using hx)
  refine ⟨(a :: rest).getLast hne, ⟨?_, hends, hchain, ?_⟩, ?_, hjoin _ hends _ rfl⟩
  · simpa using h.starts
  · intro x hx
    exact hinner x ((List.dropLast_sublist rest).subset hx)
  · cases rest with
    | nil => exact Or.inl rfl
    | cons b rest =>
      right
      rw [List.getLast_cons (by simp)]
      exact hinner _ (List.getLast_mem _)

end Constraints.Permits

namespace Constraints

variable {c : Constraints} {neighbours : Array (List Nat)} {source steps v : Nat}

theorem WalkTo.exists_walk (h : c.WalkTo neighbours source steps v) :
    ∃ walk, c.Permits neighbours source v walk ∧ walk.length ≤ steps + 1 := by
  induction h with
  | source => exact ⟨[source], Permits.singleton, by simp⟩
  | @step steps u v _ hpass hcross ih =>
    rcases hpass with rfl | hpass
    · -- a walk that comes back to its source may as well start there
      exact ⟨[u] ++ [v], Permits.singleton.append (Or.inl rfl) hcross, by simp⟩
    · obtain ⟨walk, hwalk, hlen⟩ := ih
      exact ⟨walk ++ [v], hwalk.append (Or.inr hpass) hcross, by simpa using hlen⟩

theorem Permits.walkTo {walk : List Nat} (h : c.Permits neighbours source v walk) :
    c.WalkTo neighbours source (walk.length - 1) v := by
  -- a walk was found hop by hop, the last one last
  induction walk using List.reverseRecOn generalizing v with
  | nil => exact absurd rfl h.ne_nil
  | append_singleton walk x ih =>
    obtain rfl : x = v := by simpa using h.ends
    by_cases hne : walk = []
    · subst hne
      obtain rfl : x = source := by simpa using h.starts
      exact .source
    · obtain ⟨u, hwalk, hpass, hcross⟩ := h.of_append hne
      have hpos : 0 < walk.length := List.length_pos_of_ne_nil hne
      have hstep : (walk ++ [x]).length - 1 = walk.length - 1 + 1 := by
        rw [List.length_append, List.length_singleton]
        omega
      rw [hstep]
      refine .step (ih hwalk) ?_ hcross
      rcases hpass with hlen | hpass
      · left
        have hends := hwalk.ends
        rw [hwalk.eq_singleton_of_length hlen] at hends
        simpa using hends.symm
      · exact Or.inr hpass

end Constraints

end CallAudit

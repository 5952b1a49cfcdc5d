import CallAudit.Proofs.Search.Shortest

/-!
# Searches over other numbers

What a search finds can be said without the order of neighbours (`mem_search_iff`).  So numbers that
have the same neighbours, in whatever order, and the same constraints, once they are matched by a
permutation (`Constraints.Matching`), have the same lengths of shortest walks between them
(`Constraints.Matching.leads_iff`), although searches may find other walks of these lengths.
-/

namespace CallAudit

/-! ## What a search lists -/

/-- Whether the search from `i` lists `j` at `k` hops. -/
def Constraints.Leads (c : Constraints) (neighbours : Array (List Nat)) (i j k : Nat) : Prop :=
  c.isDestination i = true ∧ j = i ∧ k = 0 ∨
    c.isDestination i = false ∧ j ≠ i ∧ c.isDestination j = true ∧ c.blocks j = false ∧
      IsLeast (c.walkLengths neighbours i j) k

section

variable {c : Constraints} {neighbours : Array (List Nat)} {source v k : Nat}

theorem mem_search_iff (hrange : Search.InRange neighbours) (hs : source < neighbours.size)
    (hall : c.findsAll = true) :
    v ∈ (search neighbours c source).destinations ∧
        (search neighbours c source).distance? v = some k ↔ c.Leads neighbours source v k := by
  unfold Constraints.Leads
  cases hdestination : c.isDestination source with
  | true =>
    have hstart : (search neighbours c source).distance? v =
        if v = source then some 0 else none := by
      rw [Search.search_eq_start hdestination]
      exact Search.start_distance? hs
    rw [hstart, Search.search_eq_start hdestination]
    show v ∈ [source] ∧ _ ↔ _
    rw [List.mem_singleton]
    constructor
    · rintro ⟨rfl, hk⟩
      rw [if_pos rfl] at hk
      exact Or.inl ⟨rfl, rfl, (Option.some.inj hk).symm⟩
    · rintro (⟨-, rfl, rfl⟩ | ⟨hfalse, -⟩)
      · exact ⟨rfl, if_pos rfl⟩
      · exact absurd hfalse (by simp)
  | false =>
    obtain ⟨low, hlevelled, -⟩ := Search.levelled_final (c := c) hs hall hrange
    rw [Search.search_eq_final hdestination]
    show v ∈ (Search.final neighbours c source).destinations ∧
      (Search.final neighbours c source).distance? v = some k ↔ _
    rw [hlevelled.mem_destinations, Search.final_distance?_eq_some_iff hs hall hrange]
    constructor
    · rintro ⟨⟨hne, -, hend, hblocks⟩, hleast⟩
      exact Or.inr ⟨rfl, hne, hend, hblocks, hleast⟩
    · rintro (⟨htrue, -⟩ | ⟨-, hne, hend, hblocks, hleast⟩)
      · exact absurd htrue (by simp)
      · have hfound := (Search.final_distance?_eq_some_iff hs hall hrange).mpr hleast
        exact ⟨⟨hne, ⟨k, hfound⟩, hend, hblocks⟩, hleast⟩

theorem nodup_destinations_search (hrange : Search.InRange neighbours)
    (hs : source < neighbours.size) (hall : c.findsAll = true) :
    (search neighbours c source).destinations.Nodup := by
  cases hdestination : c.isDestination source with
  | true =>
    rw [Search.search_eq_start hdestination]
    exact List.nodup_singleton source
  | false =>
    obtain ⟨low, hlevelled, -⟩ := Search.levelled_final (c := c) hs hall hrange
    rw [Search.search_eq_final hdestination]
    exact hlevelled.nodup_destinations

end

namespace Constraints

variable {σ : Equiv.Perm Nat} {neighbours neighbours' : Array (List Nat)} {c c' : Constraints}
  {i j : Nat}

/-! ## Matching -/

/-- `σ` matches numbers that have the same neighbours, in whatever order, and of which the constraints
say the same. -/
structure Matching (σ : Equiv.Perm Nat) (neighbours neighbours' : Array (List Nat))
    (c c' : Constraints) : Prop where
  neighbours : ∀ u v, σ v ∈ neighbours'[σ u]?.getD [] ↔ v ∈ neighbours[u]?.getD []
  isSource : ∀ v, c'.isSource (σ v) = c.isSource v
  isDestination : ∀ v, c'.isDestination (σ v) = c.isDestination v
  isBarred : ∀ v, c'.isBarred (σ v) = c.isBarred v
  isDeadEnd : ∀ v, c'.isDeadEnd (σ v) = c.isDeadEnd v
  isForbidden : ∀ u v, c'.isForbidden (σ u) (σ v) = c.isForbidden u v
  stopsAtSources : c'.stopsAtSources = c.stopsAtSources

namespace Matching

theorem symm (h : Matching σ neighbours neighbours' c c') :
    Matching σ.symm neighbours' neighbours c' c where
  neighbours := fun u v => by rw [← h.neighbours, σ.apply_symm_apply, σ.apply_symm_apply]
  isSource := fun v => by rw [← h.isSource, σ.apply_symm_apply]
  isDestination := fun v => by rw [← h.isDestination, σ.apply_symm_apply]
  isBarred := fun v => by rw [← h.isBarred, σ.apply_symm_apply]
  isDeadEnd := fun v => by rw [← h.isDeadEnd, σ.apply_symm_apply]
  isForbidden := fun u v => by rw [← h.isForbidden, σ.apply_symm_apply, σ.apply_symm_apply]
  stopsAtSources := h.stopsAtSources.symm

theorem blocks (h : Matching σ neighbours neighbours' c c') (v : Nat) :
    c'.blocks (σ v) = c.blocks v := by
  rw [Constraints.blocks, Constraints.blocks, h.stopsAtSources, h.isSource, h.isBarred]

theorem crosses (h : Matching σ neighbours neighbours' c c') {u v : Nat}
    (hcross : c.Crosses neighbours u v) : c'.Crosses neighbours' (σ u) (σ v) :=
  ⟨(h.neighbours u v).mpr hcross.1, (h.isForbidden u v).trans hcross.2⟩

/-- A permitted walk is permitted over the matched numbers. -/
theorem permits (h : Matching σ neighbours neighbours' c c') {walk : List Nat}
    (hwalk : c.Permits neighbours i j walk) :
    c'.Permits neighbours' (σ i) (σ j) (walk.map σ) where
  starts := by rw [List.head?_map, hwalk.starts, Option.map_some]
  ends := by rw [List.getLast?_map, hwalk.ends, Option.map_some]
  crosses := by
    rw [List.isChain_map]
    exact hwalk.crosses.imp fun _ _ => h.crosses
  passes := by
    intro x hx
    rw [← List.map_tail, ← List.map_dropLast] at hx
    obtain ⟨y, hy, rfl⟩ := List.mem_map.mp hx
    rw [Constraints.passes, h.blocks, h.isDestination, h.isDeadEnd]
    exact hwalk.passes y hy

theorem walkLengths (h : Matching σ neighbours neighbours' c c') (i j : Nat) :
    c'.walkLengths neighbours' (σ i) (σ j) = c.walkLengths neighbours i j := by
  ext steps
  constructor
  · rintro ⟨walk, hwalk, hlength⟩
    have hback := h.symm.permits hwalk
    rw [σ.symm_apply_apply, σ.symm_apply_apply] at hback
    exact ⟨_, hback, by rw [List.length_map, hlength]⟩
  · rintro ⟨walk, hwalk, hlength⟩
    exact ⟨_, h.permits hwalk, by rw [List.length_map, hlength]⟩

/-- Searches from matched numbers list matched numbers, at as many hops. -/
theorem leads_iff (h : Matching σ neighbours neighbours' c c') (i j k : Nat) :
    c'.Leads neighbours' (σ i) (σ j) k ↔ c.Leads neighbours i j k := by
  unfold Leads
  rw [h.isDestination, h.isDestination, h.blocks, h.walkLengths, σ.injective.eq_iff, ne_eq,
    σ.injective.eq_iff]

end Matching

end Constraints

end CallAudit

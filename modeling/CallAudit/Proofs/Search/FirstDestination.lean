import CallAudit.Proofs.Search.Stopping

/-!
# The first destination

A search that stops at the first destination leaves a level half explored.  What it leaves is a part of
what the full search leaves: the destination is the first of the full list, hence a nearest one, and
everything found by then keeps its distance, its parent and its route (`first_destination_of_search`).
This holds of whatever rows of neighbours, since those that are no nodes are passed over
(`ending_clipped`).
-/

namespace CallAudit

/-- The same constraints for a search that stops at the first destination. -/
def Constraints.stopping (c : Constraints) : Constraints := { c with findsAll := false }

namespace Search

variable {c c' : Constraints} {neighbours : Array (List Nat)} {source u v w d fuel : Nat}
  {s t : State}

/-! ## At most one destination -/

/-- A search that is to stop has listed a destination exactly if it has stopped. -/
def State.ListsOne (s : State) : Prop := s.destinations.length = s.stopped.toNat

theorem State.ListsOne.step (h : s.ListsOne) (hstop : c.findsAll = false) :
    (step c u s v).ListsOne := by
  rw [Search.step]
  split
  · exact h
  next hskip =>
    -- the search goes on, so nothing is listed yet
    have hrunning : s.stopped = false := by
      cases hstopped : s.stopped with
      | false => rfl
      | true => exact absurd (by simp [hstopped]) hskip
    have hnone : s.destinations.length = 0 := by
      rw [h, hrunning]
      rfl
    dsimp only
    split
    · exact h
    split
    · show (s.destinations ++ [v]).length = (!c.findsAll).toNat
      rw [List.length_append, hnone, hstop]
      rfl
    · exact h

theorem State.ListsOne.scan {scanned : List Nat} (h : s.ListsOne) (hstop : c.findsAll = false) :
    (scanned.foldl (Search.step c u) s).ListsOne := by
  induction scanned generalizing s with
  | nil => exact h
  | cons v scanned ih => exact ih (h.step hstop)

theorem State.ListsOne.rounds (h : s.ListsOne) (hstop : c.findsAll = false) :
    (rounds neighbours c source fuel s).ListsOne := by
  induction fuel generalizing s with
  | zero => exact h
  | succ fuel ih =>
    rw [Search.rounds]
    split
    · exact h
    split
    · exact h
    next u queue _ =>
      have hpop : State.ListsOne { s with queue } := h
      dsimp only
      split
      · exact ih hpop
      · exact ih (hpop.scan hstop)

/-- The list of a search that stops is the beginning of the list of the search that goes on. -/
theorem Ahead.destinations (h : Ahead s t) (hone : s.ListsOne) :
    s.destinations = t.destinations.take 1 := by
  cases h with
  | running hrunning heq =>
    have hnone : s.destinations = [] := by
      apply List.length_eq_zero_iff.mp
      rw [hone, hrunning]
      rfl
    rw [heq, hnone]
    rfl
  | stopped hstopped hextends =>
    have hlen : s.destinations.length = 1 := by
      rw [hone, hstopped]
      rfl
    rw [← hlen]
    exact List.prefix_iff_eq_take.mp hextends.destinations

/-! ## The same routes -/

/-- The way back from a node that was found does not depend on what is found later. -/
theorem State.Extends.walkBack_eq (h : s.Extends t) (hs : Traced c neighbours source s)
    (ht : Traced c' neighbours source t) {destination : Nat} {walked : List Nat}
    (hv : s.distance? v = some d) :
    (t.result source).walkBack destination fuel v walked =
      (s.result source).walkBack destination fuel v walked := by
  by_cases hsource : v = source
  · subst hsource
    exact (walkBack_source (r := t.result v)).trans (walkBack_source (r := s.result v)).symm
  induction fuel generalizing v d walked with
  | zero =>
    have hsize : (t.result source).prev.size = (s.result source).prev.size :=
      ht.prev_size.trans hs.prev_size.symm
    rw [SearchResult.walkBack, SearchResult.walkBack, hsize]
    rfl
  | succ fuel ih =>
    -- both walks go on from the parent, which was found one hop nearer
    obtain ⟨u, e, hparent, hu, hd, -⟩ := hs.parent v d hv hsource
    have hmoves : u ≠ v := by
      rintro rfl
      have : e = d := Option.some.inj (hu.symm.trans hv)
      omega
    have hparent' : (t.result source).prev[v]? = some u := (h.prev v d hv).trans hparent
    rw [walkBack_parent (r := t.result source) hsource hparent' hmoves,
      walkBack_parent (r := s.result source) hsource hparent hmoves]
    by_cases husource : u = source
    · subst husource
      exact (walkBack_source (r := t.result u)).trans (walkBack_source (r := s.result u)).symm
    · exact ih hu husource

theorem State.Extends.route_eq (h : s.Extends t) (hs : Traced c neighbours source s)
    (ht : Traced c' neighbours source t) (hv : s.distance? v = some d) :
    (t.result source).route v = (s.result source).route v := by
  have hsize : (t.result source).prev.size = (s.result source).prev.size :=
    ht.prev_size.trans hs.prev_size.symm
  rw [SearchResult.route_of_found (r := t.result source) (h.distance? v d hv),
    SearchResult.route_of_found (r := s.result source) hv, hsize, h.walkBack_eq hs ht hv]

/-! ## Neighbours that are no nodes -/

/-- The neighbours that are nodes. -/
def clipped (neighbours : Array (List Nat)) : Array (List Nat) :=
  neighbours.map fun row => row.filter (· < neighbours.size)

theorem size_clipped : (clipped neighbours).size = neighbours.size :=
  Array.size_map

theorem inRange_clipped : InRange (clipped neighbours) := by
  intro row hrow v hv
  obtain ⟨row, -, rfl⟩ := Array.mem_map.mp hrow
  rw [size_clipped]
  exact of_decide_eq_true (List.mem_filter.mp hv).2

theorem getElem?_clipped : (clipped neighbours)[u]?.getD [] =
    (neighbours[u]?.getD []).filter (· < neighbours.size) := by
  rw [clipped, Array.getElem?_map]
  cases neighbours[u]? <;> rfl

theorem dist_size_step : (step c u s v).dist.size = s.dist.size := by
  rw [step]
  split
  · rfl
  dsimp only
  split
  · exact Array.size_setIfInBounds
  split <;> exact Array.size_setIfInBounds

theorem step_of_size_le (hv : s.dist.size ≤ v) : step c u s v = s := by
  have hnew : s.isNew v = false := by
    rw [State.isNew, Array.getElem?_eq_none hv]
    rfl
  rw [step, hnew, if_pos (by simp)]

/-- What is no node is passed over. -/
theorem scan_clipped {scanned : List Nat} {count : Nat} (hsize : s.dist.size = count) :
    (scanned.filter (· < count)).foldl (step c u) s = scanned.foldl (step c u) s := by
  induction scanned generalizing s with
  | nil => rfl
  | cons v scanned ih =>
    rw [List.filter_cons, List.foldl_cons]
    by_cases hv : v < count
    · rw [if_pos (decide_eq_true hv), List.foldl_cons]
      exact ih (dist_size_step.trans hsize)
    · have hstep : step c u s v = s := step_of_size_le (by omega)
      rw [if_neg (by simpa using hv), hstep]
      exact ih hsize

theorem rounds_clipped (h : Traced c neighbours source s) :
    rounds (clipped neighbours) c source fuel s = rounds neighbours c source fuel s := by
  induction fuel generalizing s with
  | zero => rfl
  | succ fuel ih =>
    rw [rounds, rounds]
    split
    · rfl
    split
    · rfl
    next u queue hqueue =>
      have hpop := h.pop hqueue
      dsimp only
      split
      · exact ih hpop
      next hdead =>
        have hmem : u ∈ s.queue := hqueue ▸ List.mem_cons_self
        obtain ⟨e, he⟩ := (h.queued u hmem).1
        rw [getElem?_clipped, scan_clipped hpop.dist_size]
        exact ih (hpop.scan he (h.passes_of_queued hmem hdead) fun _ hv => hv)

theorem ending_clipped (hs : source < neighbours.size) :
    ending (clipped neighbours) c source = ending neighbours c source := by
  unfold ending final
  rw [size_clipped, rounds_clipped (traced_start hs)]

/-! ## Where both searches end -/

/-- A search that stops ends with a part of what the full search ends with. -/
theorem ending_stopping (hs : source < neighbours.size) :
    (ending neighbours c.stopping source).Extends (ending neighbours c.goingOn source) ∧
      (ending neighbours c.stopping source).destinations =
        (ending neighbours c.goingOn source).destinations.take 1 := by
  unfold ending
  by_cases hdestination : c.isDestination source = true
  · have hstopping : c.stopping.isDestination source = true := hdestination
    have hgoingOn : c.goingOn.isDestination source = true := hdestination
    rw [if_pos hstopping, if_pos hgoingOn]
    exact ⟨.refl _, rfl⟩
  · have hstopping : ¬ c.stopping.isDestination source = true := hdestination
    have hgoingOn : ¬ c.goingOn.isDestination source = true := hdestination
    rw [if_neg hstopping, if_neg hgoingOn]
    have hahead : Ahead (final neighbours c.stopping source) (final neighbours c.goingOn source) :=
      ahead_final hs
    have hstart : (start neighbours.size source).ListsOne := rfl
    exact ⟨hahead.extends, hahead.destinations (hstart.rounds rfl)⟩

/-- The full search lists its destinations in the order of their distance. -/
theorem destinations_ordered_ending (hs : source < neighbours.size) (hall : c.findsAll = true) :
    (ending neighbours c source).destinations.Pairwise fun a b =>
      (ending neighbours c source).depth a ≤ (ending neighbours c source).depth b := by
  rw [← ending_clipped hs]
  unfold ending
  split
  · exact List.pairwise_singleton _ _
  · obtain ⟨low, hlevelled, -⟩ := levelled_final (c := c) (size_clipped ▸ hs) hall inRange_clipped
    exact hlevelled.destinations_ordered

/-- The first in a list that is ordered by distance is a nearest one. -/
theorem depth_le_of_mem_take {listed : List Nat}
    (h : listed.Pairwise fun a b => s.depth a ≤ s.depth b) (hv : v ∈ listed.take 1)
    (hw : w ∈ listed) : s.depth v ≤ s.depth w := by
  cases listed with
  | nil => exact absurd hw (by simp)
  | cons a rest =>
    obtain rfl : v = a := by simpa using hv
    rcases List.mem_cons.mp hw with rfl | hw
    · exact Nat.le_refl _
    · exact (List.pairwise_cons.mp h).1 w hw

end Search

/-- A search that stops at the first destination finds a part of what the full search finds.  It lists
the first destination of the full list, and none exactly if there is none.  That destination is as near
as any of the full list, and the route to it is the same.  Whatever was found by then has the distance,
the parent and the route that the full search gives it. -/
theorem first_destination_of_search {c : Constraints} {neighbours : Array (List Nat)} {source : Nat}
    (hs : source < neighbours.size) :
    let first := search neighbours c.stopping source
    let full := search neighbours c.goingOn source
    first.destinations = full.destinations.take 1 ∧
    (first.destinations = [] ↔ full.destinations = []) ∧
    (∀ v ∈ first.destinations, ∃ d path,
      first.distance? v = some d ∧ full.distance? v = some d ∧
      first.route v = .ok path ∧ full.route v = .ok path ∧
      ∀ w ∈ full.destinations, ∃ e, full.distance? w = some e ∧ d ≤ e) ∧
    ∀ v d, first.distance? v = some d →
      full.distance? v = some d ∧ full.prev[v]? = first.prev[v]? ∧ full.route v = first.route v := by
  dsimp only
  rw [Search.search_eq_result, Search.search_eq_result]
  have hfirst := Search.traced_ending (c := c.stopping) hs
  have hfull := Search.traced_ending (c := c.goingOn) hs
  obtain ⟨hextends, htake⟩ := Search.ending_stopping (c := c) hs
  have hordered := Search.destinations_ordered_ending (c := c.goingOn) hs rfl
  -- from here on only the two states matter in which the searches ended
  generalize Search.ending neighbours c.stopping source = s at *
  generalize Search.ending neighbours c.goingOn source = t at *
  refine ⟨htake, ?_, ?_, ?_⟩
  · show s.destinations = [] ↔ t.destinations = []
    rw [htake, List.take_eq_nil_iff]
    simp
  · intro v hv
    obtain ⟨d, hd⟩ := hfirst.listed v hv
    obtain ⟨path, hroute, -⟩ := hfirst.exists_route hd
    have hd' : t.distance? v = some d := hextends.distance? v d hd
    refine ⟨d, path, hd, hd', hroute, (hextends.route_eq hfirst hfull hd).trans hroute, ?_⟩
    intro w hw
    obtain ⟨e, he⟩ := hfull.listed w hw
    have hv' : v ∈ t.destinations.take 1 := htake ▸ hv
    have hle := Search.depth_le_of_mem_take hordered hv' hw
    rw [Search.depth_of_distance? hd', Search.depth_of_distance? he] at hle
    exact ⟨e, he, hle⟩
  · intro v d hd
    exact ⟨hextends.distance? v d hd, hextends.prev v d hd, hextends.route_eq hfirst hfull hd⟩

/-- The search for one destination stops at 3 and leaves 4, as near as 3, unfound. -/
theorem first_destination_of_search_half_explored :
    let neighbours := #[[1, 2], [3, 4], [5], [], [], []]
    let c : Constraints := { isSource := (· == 0), isDestination := fun v => v == 3 || v == 5 }
    (search neighbours c.stopping 0).distance? 4 = none ∧
      (search neighbours c.goingOn 0).distance? 4 = some 2 ∧
      (search neighbours c.goingOn 0).destinations = [3, 5] ∧
      (search neighbours c.stopping 0).destinations = [3] ∧
      ∃ path, (search neighbours c.stopping 0).route 3 = .ok path ∧
        (search neighbours c.goingOn 0).route 3 = .ok path := by
  intro neighbours c
  have hfull : (search neighbours c.goingOn 0).destinations = [3, 5] := by decide
  obtain ⟨htake, -, hroutes, -⟩ :=
    first_destination_of_search (c := c) (by decide : 0 < neighbours.size)
  have hfirst : (search neighbours c.stopping 0).destinations = [3] := by
    rw [htake, hfull]
    rfl
  obtain ⟨d, path, -, -, hroute, hroute', -⟩ := hroutes 3 (by rw [hfirst]; decide)
  exact ⟨by decide, by decide, hfull, hfirst, path, hroute, hroute'⟩

end CallAudit

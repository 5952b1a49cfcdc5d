import CallAudit.Proofs.Report.Total
import CallAudit.Proofs.Search.Stopping

/-!
# Routes of whatever a search found

A distance is never mistaken for the mark of what was not reached (`search_unreached_iff`), so the
distances of a search, as they are written, say which routes there are: one to every number that was
reached, shortest among the permitted walks, and none to any other (`search_routes_shortest`).
-/

namespace CallAudit

variable {c : Constraints} {neighbours : Array (List Nat)} {source v d : Nat}

/-- With few enough nodes, what is written as unreached is what has no distance. -/
theorem search_unreached_iff (hsize : neighbours.size < unreachedMark)
    (hs : source < neighbours.size) :
    markOfDistance ((search neighbours c source).distance? v) = unreachedMark ↔
      (search neighbours c source).distance? v = none := by
  rw [Search.search_eq_result]
  refine markOfDistance_eq_unreachedMark_iff fun d hd => ?_
  exact ((Search.traced_ending hs).distance_lt_size hd).trans hsize

/-- A number that was reached has the distance that is written. -/
theorem search_distance?_of_reached (hsize : neighbours.size < unreachedMark)
    (hs : source < neighbours.size)
    (hreached : markOfDistance ((search neighbours c source).distance? v) ≠ unreachedMark) :
    (search neighbours c source).distance? v =
      some (markOfDistance ((search neighbours c source).distance? v)) := by
  cases hd : (search neighbours c source).distance? v with
  | none => exact absurd ((search_unreached_iff hsize hs).mpr hd) hreached
  | some d => rfl

/-- What a search lists was found, whether or not it goes on after the first destination. -/
theorem search_found_of_listed (hs : source < neighbours.size)
    (hv : v ∈ (search neighbours c source).destinations) :
    ∃ d, (search neighbours c source).distance? v = some d := by
  rw [Search.search_eq_result] at hv ⊢
  exact (Search.traced_ending hs).listed v hv

/-- The routes that a search leaves behind, whether or not it goes on after the first destination.  To a
number that was reached there is one, from the source along a permitted walk: it has as many hops as
the distance that is written, which no permitted walk has fewer of, and no node is visited twice, for
the place of each is its distance.  To a number that was not reached, or is past the last one, there is
none, and the error is a violated invariant.  So every destination that is listed can be put into
words. -/
theorem search_routes_shortest (hsize : neighbours.size < unreachedMark)
    (hrange : Search.InRange neighbours) (hs : source < neighbours.size) :
    (∀ v hops, markOfDistance ((search neighbours c source).distance? v) = hops →
      hops ≠ unreachedMark →
      ∃ path, (search neighbours c source).route v = .ok path ∧
        c.Permits neighbours source v path ∧ path.length = hops + 1 ∧ path.Nodup ∧
        (∀ i x, path[i]? = some x →
          markOfDistance ((search neighbours c source).distance? x) = i) ∧
        IsLeast (c.walkLengths neighbours source v) hops) ∧
    (∀ v, markOfDistance ((search neighbours c source).distance? v) = unreachedMark →
      ∃ violation, (search neighbours c source).route v = .error (.invariant violation)) ∧
    ∀ b : Basis, b.snapshot.size = neighbours.size →
      ∀ v ∈ (search neighbours c source).destinations,
        ∃ ch, b.chain (search neighbours c source) v = .ok ch := by
  refine ⟨?_, ?_, ?_⟩
  · rintro v hops rfl hreached
    have hfound := search_distance?_of_reached hsize hs hreached
    have hleast := search_isLeast hrange hs hfound
    -- from here on the distance is a number, and the search is taken apart where it ended
    generalize markOfDistance ((search neighbours c source).distance? v) = hops at hfound hleast ⊢
    rw [Search.search_eq_result] at hfound ⊢
    obtain ⟨path, hroute, hpath⟩ := (Search.traced_ending hs).exists_route hfound
    refine ⟨path, hroute, hpath.permits, hpath.length, hpath.nodup, ?_, hleast⟩
    intro i x hx
    have hplaced : ((Search.ending neighbours c source).result source).distance? x = some i :=
      hpath.placed i x hx
    rw [hplaced]
    rfl
  · intro v hunreached
    exact ⟨_, SearchResult.route_of_not_found ((search_unreached_iff hsize hs).mp hunreached)⟩
  · intro b hb v hv
    obtain ⟨d, hfound⟩ := search_found_of_listed hs hv
    exact b.exists_chain hb hs hfound

/-- Two ways lead from 0 to 3, and the search stops there, before it comes to 4. -/
theorem search_routes_shortest_stopping :
    (5 < unreachedMark ∧ Search.InRange #[[1, 2], [3], [3], [4], []]) ∧
      (∃ path, (search #[[1, 2], [3], [3], [4], []]
          { isSource := (· == 0), isDestination := (· == 3), findsAll := false } 0).route 3 = .ok path ∧
        path.length = 3) ∧
      ∃ violation, (search #[[1, 2], [3], [3], [4], []]
        { isSource := (· == 0), isDestination := (· == 3), findsAll := false } 0).route 4 =
          .error (.invariant violation) := by
  have hrange : Search.InRange #[[1, 2], [3], [3], [4], []] := by
    unfold Search.InRange
    decide
  have h := search_routes_shortest
    (c := { isSource := (· == 0), isDestination := (· == 3), findsAll := false })
    (by decide) hrange (by decide : 0 < 5)
  obtain ⟨path, hroute, -, hlen, -⟩ := h.1 3 2 (by decide) (by decide)
  exact ⟨⟨by decide, hrange⟩, ⟨path, hroute, hlen⟩, h.2.1 4 (by decide)⟩

end CallAudit

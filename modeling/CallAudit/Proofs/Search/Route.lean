import CallAudit.Proofs.Search.Trace
import Mathlib.Data.List.Nodup
import Mathlib.Data.List.Perm.Subperm

/-!
# Routes of a search

Following parents back from a node that a search found gives a permitted walk from the source that
visits no node twice and has as many hops as the distance says (`search_route`).
-/

namespace CallAudit

namespace SearchResult

variable {r : SearchResult} {v : Nat}

theorem dist_of_distance? {d : Nat} (h : r.distance? v = some d) : r.dist[v]? = some (some d) := by
  rw [distance?] at h
  cases hv : r.dist[v]? with
  | none => rw [hv] at h; exact absurd h (by simp)
  | some distance => rw [hv, Option.join_some] at h; rw [h]

/-- A number without a distance has no route: it is past the last one, or was not reached. -/
theorem route_of_not_found (h : r.distance? v = none) : r.route v = .error (.invariant
    (if v < r.dist.size then .destinationNotReached v r.source else .destinationOutOfRange v)) := by
  rw [route]
  by_cases hv : v < r.dist.size
  · have hdist : r.dist[v]? = some none := by
      rw [distance?, Array.getElem?_eq_getElem hv, Option.join_some] at h
      rw [Array.getElem?_eq_getElem hv, h]
    rw [hdist, if_pos hv]
  · rw [Array.getElem?_eq_none (Nat.le_of_not_lt hv), if_neg hv]

/-- The route to a number that has a distance is the walk back from it, if that has as many hops. -/
theorem route_of_found {d : Nat} (h : r.distance? v = some d) :
    r.route v = (r.walkBack v r.prev.size v []).bind fun path =>
      if path.length - 1 = d then .ok path
      else .error (.invariant (.hopCountMismatch v (path.length - 1) d)) := by
  rw [route, dist_of_distance? h]
  rfl

theorem lt_size_of_found {d : Nat} (h : r.distance? v = some d) : v < r.dist.size :=
  (Array.getElem?_eq_some_iff.mp (dist_of_distance? h)).1

end SearchResult

namespace Search

variable {c : Constraints} {neighbours : Array (List Nat)} {source u v d : Nat} {s : State}

/-- What a search that ends in a state has found. -/
def State.result (s : State) (source : Nat) : SearchResult :=
  { prev := s.prev, dist := s.dist, destinations := s.destinations, source }

/-- The state in which a search ends; one whose source is a destination ends where it starts. -/
def ending (neighbours : Array (List Nat)) (c : Constraints) (source : Nat) : State :=
  if c.isDestination source then
    { start neighbours.size source with destinations := [source] }
  else final neighbours c source

theorem search_eq_result : search neighbours c source = (ending neighbours c source).result source := by
  unfold search ending
  dsimp only
  split <;> rfl

theorem search_eq_final (h : c.isDestination source = false) :
    search neighbours c source = (final neighbours c source).result source := by
  rw [search_eq_result, ending, h]
  rfl

theorem search_eq_start (h : c.isDestination source = true) : search neighbours c source =
    State.result { start neighbours.size source with destinations := [source] } source := by
  rw [search_eq_result, ending, if_pos h]

theorem traced_ending (hs : source < neighbours.size) :
    Traced c neighbours source (ending neighbours c source) := by
  unfold ending
  split
  · have h := traced_start (c := c) hs
    refine ⟨h.dist_size, h.prev_size, h.source_distance, h.own_parent, h.parent, h.queued, ?_⟩
    intro v hv
    obtain rfl := List.mem_singleton.mp hv
    exact ⟨0, h.source_distance⟩
  · exact traced_final hs

theorem walkBack_source {r : SearchResult} {destination fuel : Nat} {walked : List Nat} :
    r.walkBack destination fuel r.source walked = .ok (r.source :: walked) := by
  cases fuel <;> rw [SearchResult.walkBack, if_pos rfl]

theorem walkBack_parent {r : SearchResult} {destination fuel : Nat} {walked : List Nat}
    (hv : v ≠ r.source) (hparent : r.prev[v]? = some u) (hu : u ≠ v) :
    r.walkBack destination (fuel + 1) v walked = r.walkBack destination fuel u (v :: walked) := by
  rw [SearchResult.walkBack, if_neg hv, hparent]
  exact if_neg hu

/-- The path that parents lead back along from a node at distance `d`.  Its nodes stand in the order of
their distance, one for each. -/
structure WayBack (c : Constraints) (neighbours : Array (List Nat)) (source : Nat) (s : State)
    (v d : Nat) (path : List Nat) : Prop where
  permits : c.Permits neighbours source v path
  length : path.length = d + 1
  nodup : path.Nodup
  placed : ∀ i x, path[i]? = some x → s.distance? x = some i
  walkBack : ∀ destination fuel walked, d ≤ fuel →
    (s.result source).walkBack destination fuel v walked = .ok (path ++ walked)

/-- No node on the path is farther from the source than its end. -/
theorem WayBack.near {path : List Nat} (h : WayBack c neighbours source s v d path) :
    ∀ x ∈ path, ∃ e ≤ d, s.distance? x = some e := by
  intro x hx
  obtain ⟨i, hi⟩ := List.getElem?_of_mem hx
  obtain ⟨hlt, -⟩ := List.getElem?_eq_some_iff.mp hi
  have hle : i ≤ d := by
    rw [h.length] at hlt
    omega
  exact ⟨i, hle, h.placed i x hi⟩

theorem wayBack_source (hd : s.distance? source = some 0) :
    WayBack c neighbours source s source 0 [source] where
  permits := Constraints.Permits.singleton
  length := rfl
  nodup := List.nodup_singleton source
  placed := by
    intro i x hx
    obtain ⟨hlt, rfl⟩ := List.getElem?_eq_some_iff.mp hx
    obtain rfl : i = 0 := by simpa using hlt
    exact hd
  walkBack := fun _ _ _ _ => walkBack_source (r := s.result source)

/-- One hop farther from the source, the way back is one node longer. -/
theorem WayBack.append {path : List Nat} (h : WayBack c neighbours source s u d path)
    (hd : s.distance? v = some (d + 1)) (hv : v ≠ source) (hprev : s.prev[v]? = some u)
    (hpass : path.length = 1 ∨ c.passes u) (hcross : c.Crosses neighbours u v) :
    WayBack c neighbours source s v (d + 1) (path ++ [v]) := by
  -- nothing on the path is as far from the source as the new node
  have hfar : v ∉ path := by
    intro hmem
    obtain ⟨e, hle, he⟩ := h.near v hmem
    rw [hd] at he
    have := Option.some.inj he
    omega
  have hu : u ≠ v := by
    rintro rfl
    exact hfar (List.mem_of_getLast? h.permits.ends)
  constructor
  case permits => exact h.permits.append hpass hcross
  case length => rw [List.length_append, h.length, List.length_singleton]
  case nodup =>
    rw [List.nodup_append]
    refine ⟨h.nodup, List.nodup_singleton v, ?_⟩
    intro a ha b hb hab
    obtain rfl := List.mem_singleton.mp hb
    exact hfar (hab ▸ ha)
  case placed =>
    intro i x hx
    rw [List.getElem?_append] at hx
    split at hx
    · exact h.placed i x hx
    · next hi =>
      -- only the new node stands behind the others
      obtain ⟨hlt, rfl⟩ := List.getElem?_eq_some_iff.mp hx
      have hlast : i - path.length = 0 := by simpa using hlt
      obtain rfl : i = d + 1 := by
        rw [h.length] at hi hlast
        omega
      simpa using hd
  case walkBack =>
    intro destination fuel walked hfuel
    obtain ⟨fuel, rfl⟩ : ∃ k, fuel = k + 1 := ⟨fuel - 1, by omega⟩
    rw [walkBack_parent hv hprev hu, h.walkBack destination fuel _ (by omega), List.append_assoc,
      List.singleton_append]

/-- There is a way back from every node that was found, by induction on its distance. -/
theorem Traced.exists_wayBack (h : Traced c neighbours source s) (hd : s.distance? v = some d) :
    ∃ path, WayBack c neighbours source s v d path := by
  induction d generalizing v with
  | zero =>
    have hv : v = source := by
      by_contra hne
      obtain ⟨_, _, _, _, heq, -⟩ := h.parent v 0 hd hne
      omega
    subst hv
    exact ⟨[v], wayBack_source hd⟩
  | succ d ih =>
    have hv : v ≠ source := by
      rintro rfl
      rw [h.source_distance] at hd
      exact absurd hd (by simp)
    obtain ⟨u, e, hprev, he, heq, hpass, hcross⟩ := h.parent v (d + 1) hd hv
    obtain rfl : e = d := by omega
    obtain ⟨path, hpath⟩ := ih he
    refine ⟨path ++ [v], hpath.append hd hv hprev ?_ hcross⟩
    -- a parent that is the source is at distance 0, and the way back from it is that one node
    refine hpass.imp_left ?_
    rintro rfl
    rw [h.source_distance] at he
    rw [hpath.length, ← Option.some.inj he]

/-- A list of small numbers without repetitions is short. -/
theorem length_le_of_nodup_lt {path : List Nat} {n : Nat} (hnodup : path.Nodup)
    (hlt : ∀ x ∈ path, x < n) : path.length ≤ n := by
  have hsub : path ⊆ List.range n := fun x hx => List.mem_range.mpr (hlt x hx)
  simpa using (hnodup.subperm hsub).length_le

/-- A distance is less than the number of nodes, for no node is visited twice. -/
theorem Traced.distance_lt_size (h : Traced c neighbours source s) (hd : s.distance? v = some d) :
    d < neighbours.size := by
  obtain ⟨path, hpath⟩ := h.exists_wayBack hd
  have hbound : path.length ≤ neighbours.size := by
    refine length_le_of_nodup_lt hpath.nodup fun x hx => ?_
    obtain ⟨e, -, he⟩ := hpath.near x hx
    exact h.dist_size ▸ lt_size_of_distance? he
  rw [hpath.length] at hbound
  omega

/-- A way back of as many hops as the distance says is the route. -/
theorem route_of_walkBack {r : SearchResult} {path : List Nat} (hd : r.distance? v = some d)
    (hback : r.walkBack v r.prev.size v [] = .ok path) (hlen : path.length = d + 1) :
    r.route v = .ok path := by
  rw [SearchResult.route_of_found hd, hback]
  show (if path.length - 1 = d then _ else _) = _
  rw [if_pos (by omega)]

theorem Traced.exists_route (h : Traced c neighbours source s) (hd : s.distance? v = some d) :
    ∃ path, (s.result source).route v = .ok path ∧ WayBack c neighbours source s v d path := by
  obtain ⟨path, hpath⟩ := h.exists_wayBack hd
  have hfuel : d ≤ (s.result source).prev.size := by
    show d ≤ s.prev.size
    rw [h.prev_size]
    exact (h.distance_lt_size hd).le
  have hwalk := hpath.walkBack v _ [] hfuel
  rw [List.append_nil] at hwalk
  exact ⟨path, route_of_walkBack hd hwalk hpath.length, hpath⟩

end Search

/-- Every node that a search found has a route, which the constraints permit and whose hops are its
distance. -/
theorem search_route {c : Constraints} {neighbours : Array (List Nat)} {source v d : Nat}
    (hs : source < neighbours.size) (hd : (search neighbours c source).distance? v = some d) :
    ∃ path, (search neighbours c source).route v = .ok path ∧
      c.Permits neighbours source v path ∧ path.length = d + 1 ∧ path.Nodup := by
  rw [Search.search_eq_result] at hd ⊢
  obtain ⟨path, hroute, hpath⟩ := (Search.traced_ending hs).exists_route hd
  exact ⟨path, hroute, hpath.permits, hpath.length, hpath.nodup⟩

end CallAudit

import CallAudit.Proofs.Search.Level
import CallAudit.Proofs.Search.Route

/-!
# Searches in an embedded graph

A numbering may sit inside a larger one, such that a number keeps its neighbours, in their order, and
the constraints say the same about it (`Embedding`).  Then a search in the larger one runs in step with
the search in the smaller one (`Mirrors`), and finds the same nodes, from the same parents, in the same
order (`Embedding.search`).
-/

namespace CallAudit

variable {place : Nat → Nat} {small large : Array (List Nat)} {c c' : Constraints}

/-- `place` puts the numbers of `small` into `large`, where they keep their neighbours and what the
constraints say about them. -/
structure Embedding (place : Nat → Nat) (small large : Array (List Nat)) (c c' : Constraints) :
    Prop where
  size_le : small.size ≤ large.size
  place_lt : ∀ v < small.size, place v < large.size
  injective : ∀ u < small.size, ∀ v < small.size, place u = place v → u = v
  closed : Search.InRange small
  neighbours : ∀ u < small.size, large[place u]?.getD [] = (small[u]?.getD []).map place
  isSource : ∀ v < small.size, c'.isSource (place v) = c.isSource v
  isDestination : ∀ v < small.size, c'.isDestination (place v) = c.isDestination v
  isBarred : ∀ v < small.size, c'.isBarred (place v) = c.isBarred v
  isDeadEnd : ∀ v < small.size, c'.isDeadEnd (place v) = c.isDeadEnd v
  isForbidden : ∀ u < small.size, ∀ v < small.size,
    c'.isForbidden (place u) (place v) = c.isForbidden u v
  stopsAtSources : c'.stopsAtSources = c.stopsAtSources
  findsAll : c'.findsAll = c.findsAll

namespace Embedding

variable {u v : Nat}

theorem blocks (h : Embedding place small large c c') (hv : v < small.size) :
    c'.blocks (place v) = c.blocks v := by
  rw [Constraints.blocks, Constraints.blocks, h.stopsAtSources, h.isSource v hv, h.isBarred v hv]

theorem place_eq_iff (h : Embedding place small large c c') (hu : u < small.size)
    (hv : v < small.size) : place u = place v ↔ u = v :=
  ⟨h.injective u hu v hv, congrArg place⟩

end Embedding

namespace Search

variable {s t : State} {u v source : Nat}

/-- The state `t` of a search in the larger numbering mirrors the state `s` of one in the smaller. -/
structure Mirrors (place : Nat → Nat) (small large : Array (List Nat)) (s t : State) : Prop where
  dist_size : s.dist.size = small.size
  dist_size' : t.dist.size = large.size
  prev_size : s.prev.size = small.size
  prev_size' : t.prev.size = large.size
  dist : ∀ v < small.size, t.dist[place v]? = s.dist[v]?
  prev : ∀ v < small.size, t.prev[place v]? = s.prev[v]?.map place
  outside : ∀ w d, t.distance? w = some d → ∃ v < small.size, place v = w
  queue : t.queue = s.queue.map place
  queue_lt : ∀ v ∈ s.queue, v < small.size
  destinations : t.destinations = s.destinations.map place
  destinations_lt : ∀ v ∈ s.destinations, v < small.size
  stopped : t.stopped = s.stopped

namespace Mirrors

theorem distance? (h : Mirrors place small large s t) (hv : v < small.size) :
    t.distance? (place v) = s.distance? v := by
  rw [State.distance?, State.distance?, h.dist v hv]

theorem isNew (h : Mirrors place small large s t) (hv : v < small.size) :
    t.isNew (place v) = s.isNew v := by
  rw [State.isNew, State.isNew, h.dist v hv]

/-- Writing at one place is writing at the number that is put there. -/
theorem getElem?_set {α β : Type} {f : α → β} {xs : Array α} {ys : Array β} {a : α} {w : Nat}
    (he : Embedding place small large c c') (hxs : xs.size = small.size) (hys : ys.size = large.size)
    (hv : v < small.size) (hw : w < small.size) (hread : ys[place w]? = xs[w]?.map f) :
    (ys.setIfInBounds (place v) (f a))[place w]? = (xs.setIfInBounds v a)[w]?.map f := by
  rw [Array.getElem?_setIfInBounds, Array.getElem?_setIfInBounds]
  by_cases hvw : v = w
  · subst hvw
    have hlt := he.place_lt v hv
    rw [if_pos rfl, if_pos rfl, if_pos (by omega), if_pos (by omega), Option.map_some]
  · have hne : place v ≠ place w := fun heq => hvw ((he.place_eq_iff hv hw).mp heq)
    rw [if_neg hne, if_neg hvw, hread]

theorem find (h : Mirrors place small large s t) (he : Embedding place small large c c')
    (hu : u < small.size) (hv : v < small.size) :
    Mirrors place small large (s.find u v) (t.find (place u) (place v)) where
  dist_size := by rw [State.find, Array.size_setIfInBounds, h.dist_size]
  dist_size' := by rw [State.find, Array.size_setIfInBounds, h.dist_size']
  prev_size := by rw [State.find, Array.size_setIfInBounds, h.prev_size]
  prev_size' := by rw [State.find, Array.size_setIfInBounds, h.prev_size']
  dist := by
    intro w hw
    have hread : t.dist[place w]? = s.dist[w]?.map id := by rw [h.dist w hw, Option.map_id_fun, id]
    have hset := getElem?_set (a := (s.dist[u]?.join).map (· + 1)) he h.dist_size h.dist_size' hv hw
      hread
    rw [Option.map_id_fun, id, id] at hset
    show (t.dist.setIfInBounds (place v) ((t.dist[place u]?.join).map (· + 1)))[place w]? = _
    rw [h.dist u hu]
    exact hset
  prev := fun w hw => getElem?_set he h.prev_size h.prev_size' hv hw (h.prev w hw)
  outside := by
    intro w d hd
    by_cases hw : place v = w
    · exact ⟨v, hv, hw⟩
    · refine h.outside w d ?_
      have hfind : (t.find (place u) (place v)).distance? w = t.distance? w := by
        show (t.dist.setIfInBounds (place v) _)[w]?.join = _
        rw [Array.getElem?_setIfInBounds, if_neg hw]
        rfl
      rw [← hfind, hd]
  queue := h.queue
  queue_lt := h.queue_lt
  destinations := h.destinations
  destinations_lt := h.destinations_lt
  stopped := h.stopped

theorem step (h : Mirrors place small large s t) (he : Embedding place small large c c')
    (hu : u < small.size) (hv : v < small.size) :
    Mirrors place small large (step c u s v) (step c' (place u) t (place v)) := by
  have hskip : (t.stopped || c'.isForbidden (place u) (place v) || !t.isNew (place v)) =
      (s.stopped || c.isForbidden u v || !s.isNew v) := by
    rw [h.stopped, he.isForbidden u hu v hv, h.isNew hv]
  have hfind := h.find he hu hv
  -- both searches come to the same decisions about the node
  unfold Search.step
  rw [hskip, he.blocks hv, he.isDestination v hv, he.findsAll]
  dsimp only
  split
  · exact h
  split
  · exact hfind
  split
  · refine { hfind with destinations := ?_, destinations_lt := ?_, stopped := rfl }
    · show (t.find _ _).destinations ++ [place v] = ((s.find u v).destinations ++ [v]).map place
      rw [hfind.destinations, List.map_append, List.map_singleton]
    · intro w hw
      rcases List.mem_append.mp hw with hw | hw
      · exact hfind.destinations_lt w hw
      · exact List.mem_singleton.mp hw ▸ hv
  · refine { hfind with queue := ?_, queue_lt := ?_ }
    · show (t.find _ _).queue ++ [place v] = ((s.find u v).queue ++ [v]).map place
      rw [hfind.queue, List.map_append, List.map_singleton]
    · intro w hw
      rcases List.mem_append.mp hw with hw | hw
      · exact hfind.queue_lt w hw
      · exact List.mem_singleton.mp hw ▸ hv

theorem scan {scanned : List Nat} (h : Mirrors place small large s t)
    (he : Embedding place small large c c') (hu : u < small.size)
    (hscan : ∀ v ∈ scanned, v < small.size) :
    Mirrors place small large (scanned.foldl (Search.step c u) s)
      ((scanned.map place).foldl (Search.step c' (place u)) t) := by
  induction scanned generalizing s t with
  | nil => exact h
  | cons v scanned ih =>
    exact ih (h.step he hu (hscan v List.mem_cons_self)) fun w hw =>
      hscan w (List.mem_cons_of_mem v hw)

theorem pop {queue : List Nat} (h : Mirrors place small large s t) (hqueue : s.queue = u :: queue) :
    Mirrors place small large { s with queue } { t with queue := queue.map place } :=
  { h with
    queue := rfl
    queue_lt := fun v hv => h.queue_lt v (hqueue ▸ List.mem_cons_of_mem u hv) }

/-- Round by round, both searches do the same. -/
theorem rounds {fuel : Nat} (h : Mirrors place small large s t)
    (he : Embedding place small large c c') (hs : source < small.size) :
    Mirrors place small large (rounds small c source fuel s)
      (rounds large c' (place source) fuel t) := by
  induction fuel generalizing s t with
  | zero => exact h
  | succ fuel ih =>
    -- both searches have stopped, or have nothing left, or take the same node off the queue
    by_cases hstopped : s.stopped = true
    · have hstopped' : t.stopped = true := by rw [h.stopped, hstopped]
      rw [Search.rounds, Search.rounds, if_pos hstopped, if_pos hstopped']
      exact h
    have hstopped' : ¬t.stopped = true := by rwa [h.stopped]
    rw [Search.rounds, Search.rounds, if_neg hstopped, if_neg hstopped']
    cases hqueue : s.queue with
    | nil =>
      have hempty : t.queue = [] := by rw [h.queue, hqueue, List.map_nil]
      rw [hempty]
      exact h
    | cons u queue =>
      have hrest : t.queue = place u :: queue.map place := by rw [h.queue, hqueue, List.map_cons]
      have hu : u < small.size := h.queue_lt u (hqueue ▸ List.mem_cons_self)
      have hdead : (place u ≠ place source ∧ c'.isDeadEnd (place u) = true) ↔
          (u ≠ source ∧ c.isDeadEnd u = true) := by
        rw [ne_eq, ne_eq, he.place_eq_iff hu hs, he.isDeadEnd u hu]
      rw [hrest]
      dsimp only
      by_cases hd : u ≠ source ∧ c.isDeadEnd u = true
      · rw [if_pos hd, if_pos (hdead.mpr hd)]
        exact ih (h.pop hqueue)
      · rw [if_neg hd, if_neg fun hd' => hd (hdead.mp hd'), he.neighbours u hu]
        exact ih ((h.pop hqueue).scan he hu fun v hv => he.closed.lt_size hv)

end Mirrors

theorem mirrors_start (he : Embedding place small large c c') (hs : source < small.size) :
    Mirrors place small large (start small.size source) (start large.size (place source)) where
  dist_size := by simp [start]
  dist_size' := by simp [start]
  prev_size := by simp [start]
  prev_size' := by simp [start]
  dist := by
    intro v hv
    have hlt := he.place_lt v hv
    have hread : (Array.replicate large.size (none : Option Nat))[place v]? =
        (Array.replicate small.size (none : Option Nat))[v]?.map id := by
      rw [Array.getElem?_replicate, Array.getElem?_replicate, if_pos hlt, if_pos hv]
      rfl
    have hset := Mirrors.getElem?_set (a := some 0) he (by simp) (by simp) hs hv hread
    rwa [Option.map_id_fun, id, id] at hset
  prev := by
    intro v hv
    have hlt := he.place_lt v hv
    simp [start, hv, hlt]
  outside := by
    intro w d hd
    rw [start_distance? (he.place_lt source hs)] at hd
    split at hd
    · next hw => exact ⟨source, hs, hw.symm⟩
    · exact absurd hd (by simp)
  queue := rfl
  queue_lt := fun v hv => List.mem_singleton.mp hv ▸ hs
  destinations := rfl
  destinations_lt := fun v hv => absurd hv (by simp [start])
  stopped := rfl

/-! ## Fuel -/

theorem rounds_of_finished {neighbours : Array (List Nat)} {fuel : Nat}
    (h : s.stopped = true ∨ s.queue = []) : rounds neighbours c source fuel s = s := by
  cases fuel with
  | zero => rfl
  | succ fuel =>
    rw [rounds]
    rcases h with h | h
    · rw [if_pos h]
    · rw [h]
      split <;> rfl

theorem rounds_add {neighbours : Array (List Nat)} {fuel more : Nat} :
    rounds neighbours c source (fuel + more) s =
      rounds neighbours c source more (rounds neighbours c source fuel s) := by
  induction fuel generalizing s with
  | zero => rw [Nat.zero_add, rounds]
  | succ fuel ih =>
    rw [Nat.add_right_comm, rounds, rounds]
    split
    · next hstopped => rw [rounds_of_finished (Or.inl hstopped)]
    split
    · next hqueue => rw [rounds_of_finished (Or.inr hqueue)]
    · dsimp only
      split <;> exact ih

theorem final_eq_rounds {neighbours : Array (List Nat)} {fuel : Nat}
    (hs : source < neighbours.size) (hfuel : neighbours.size ≤ fuel) :
    rounds neighbours c source fuel (start neighbours.size source) = final neighbours c source := by
  obtain ⟨more, rfl⟩ := Nat.exists_eq_add_of_le hfuel
  rw [rounds_add]
  exact rounds_of_finished (final_finished hs)

theorem mirrors_ending (he : Embedding place small large c c') (hs : source < small.size) :
    Mirrors place small large (ending small c source) (ending large c' (place source)) := by
  have hstart := mirrors_start he hs
  unfold ending
  rw [he.isDestination source hs]
  split
  · refine { hstart with destinations := rfl, destinations_lt := ?_ }
    exact fun v hv => List.mem_singleton.mp hv ▸ hs
  · -- the larger search has more fuel than the smaller one needs
    rw [← final_eq_rounds hs he.size_le]
    exact hstart.rounds he hs

/-! ## Routes -/

theorem Traced.parent_lt {neighbours : Array (List Nat)} (h : Traced c neighbours source s)
    (hv : v < neighbours.size) (hprev : s.prev[v]? = some u) : u < neighbours.size := by
  -- what has no parent of its own is noted as its own parent
  by_cases hown : s.distance? v = none ∨ v = source
  · rw [h.own_parent v hv hown] at hprev
    rwa [← Option.some.inj hprev]
  · rw [not_or] at hown
    obtain ⟨d, hd⟩ := Option.ne_none_iff_exists'.mp hown.1
    obtain ⟨u', e, hprev', he, -⟩ := h.parent v d hd hown.2
    rw [hprev] at hprev'
    rw [Option.some.inj hprev', ← h.dist_size]
    exact lt_size_of_distance? he

/-- A way back that ends at the source is put in its place as a whole. -/
theorem walkBack_place {n destination destination' fuel fuel' : Nat} {r r' : SearchResult}
    {walked path : List Nat} (hinjective : ∀ u < n, ∀ v < n, place u = place v → u = v)
    (hsource : r'.source = place r.source) (hs : r.source < n)
    (hprev : ∀ v < n, r'.prev[place v]? = r.prev[v]?.map place)
    (hparent : ∀ v < n, ∀ u, r.prev[v]? = some u → u < n) (hv : v < n) (hfuel : fuel ≤ fuel')
    (h : r.walkBack destination fuel v walked = .ok path) :
    r'.walkBack destination' fuel' (place v) (walked.map place) = .ok (path.map place) := by
  have harrived : ∀ {v fuel walked}, v = r.source → r'.walkBack destination' fuel (place v)
      (walked.map place) = .ok ((v :: walked).map place) := by
    rintro v fuel walked rfl
    rw [← hsource, walkBack_source, hsource, List.map_cons]
  -- induction on the fuel of the walk in the smaller numbering, which the other has as well
  induction fuel generalizing v walked fuel' with
  | zero =>
    rw [SearchResult.walkBack] at h
    split at h
    · next hv' => rw [← Except.ok.inj h, harrived hv']
    · split at h <;> exact absurd h (by simp)
  | succ fuel ih =>
    rw [SearchResult.walkBack] at h
    split at h
    · next hv' => rw [← Except.ok.inj h, harrived hv']
    next hne =>
      split at h
      · exact absurd h (by simp)
      next u hu =>
        split at h
        · exact absurd h (by simp)
        next hown =>
          have hlt : u < n := hparent v hv u hu
          obtain ⟨fuel', rfl⟩ : ∃ k, fuel' = k + 1 := ⟨fuel' - 1, by omega⟩
          have hne' : place v ≠ r'.source := by
            rw [hsource]
            exact fun heq => hne (hinjective v hv r.source hs heq)
          have hu' : r'.prev[place v]? = some (place u) := by rw [hprev v hv, hu, Option.map_some]
          have hown' : place u ≠ place v := fun heq => hown (hinjective u hlt v hv heq)
          rw [walkBack_parent hne' hu' hown', ← List.map_cons]
          exact ih hlt (by omega) h

end Search

/-- The result `r'` is the result `r` put in its place. -/
structure SearchResult.Placed (place : Nat → Nat) (n : Nat) (r r' : SearchResult) : Prop where
  distance : ∀ v < n, r'.distance? (place v) = r.distance? v
  outside : ∀ w d, r'.distance? w = some d → ∃ v < n, place v = w
  prev : ∀ v < n, r'.prev[place v]? = r.prev[v]?.map place
  prev_lt : ∀ v < n, ∀ u, r.prev[v]? = some u → u < n
  destinations : r'.destinations = r.destinations.map place
  destinations_lt : ∀ v ∈ r.destinations, v < n
  route : ∀ v < n, ∀ d, r.distance? v = some d → ∃ path,
    r.route v = .ok path ∧ r'.route (place v) = .ok (path.map place) ∧ ∀ x ∈ path, x < n

namespace Search.Mirrors

variable {s t : State} {source v d : Nat}

/-- A route in the larger numbering is the route in the smaller one, put in its place. -/
theorem exists_route (h : Mirrors place small large s t) (he : Embedding place small large c c')
    (ht : Traced c small source s) (hs : source < small.size) (hv : v < small.size)
    (hd : s.distance? v = some d) :
    ∃ path, (s.result source).route v = .ok path ∧
      (t.result (place source)).route (place v) = .ok (path.map place) ∧
      ∀ x ∈ path, x < small.size := by
  obtain ⟨path, hpath⟩ := ht.exists_wayBack hd
  have hd' : t.distance? (place v) = some d := by rw [h.distance? hv, hd]
  have hback : (s.result source).walkBack v small.size v [] = .ok path := by
    rw [hpath.walkBack v small.size [] (ht.distance_lt_size hd).le, List.append_nil]
  have hback' : (t.result (place source)).walkBack (place v) large.size (place v) ([].map place) =
      .ok (path.map place) :=
    walkBack_place (r := s.result source) he.injective rfl hs h.prev
      (fun v hv u hu => ht.parent_lt hv hu) hv he.size_le hback
  refine ⟨path, route_of_walkBack hd ?_ hpath.length, route_of_walkBack hd' ?_ ?_, ?_⟩
  · show _ = (.ok path : Except AuditError (List Nat))
    rw [← hback, ← h.prev_size]
    rfl
  · rw [← hback', ← h.prev_size']
    rfl
  · rw [List.length_map, hpath.length]
  · intro x hx
    obtain ⟨e, -, hx'⟩ := hpath.near x hx
    rw [← h.dist_size]
    exact lt_size_of_distance? hx'

theorem placed (h : Mirrors place small large s t) (he : Embedding place small large c c')
    (ht : Traced c small source s) (hs : source < small.size) :
    (s.result source).Placed place small.size (t.result (place source)) where
  distance := fun _ hv => h.distance? hv
  outside := h.outside
  prev := h.prev
  prev_lt := fun _ hv _ hu => ht.parent_lt hv hu
  destinations := h.destinations
  destinations_lt := h.destinations_lt
  route := fun _ hv _ hd => h.exists_route he ht hs hv hd

end Search.Mirrors

/-- A search from the place of a number finds what the search from the number finds. -/
theorem Embedding.search {source : Nat} (he : Embedding place small large c c')
    (hs : source < small.size) :
    (search small c source).Placed place small.size (search large c' (place source)) := by
  rw [Search.search_eq_result, Search.search_eq_result]
  exact (Search.mirrors_ending he hs).placed he (Search.traced_ending hs) hs

end CallAudit

import CallAudit.Proofs.Search.Walk

/-!
# The trace a search leaves

At every moment of a search, stopped early or not, the parents noted so far lead from each node that
was found back to the source along a permitted walk, one hop nearer at a time (`Traced`).  A round
takes a node off the queue and only nodes that are new enter it, so a search always comes to its end
(`rounds_finish`).
-/

namespace CallAudit.Search

variable {c : Constraints} {neighbours : Array (List Nat)} {source u v w d : Nat} {s : State}

/-! ## Looking at a search under way -/

/-- The hops to a node that was found. -/
def State.distance? (s : State) (v : Nat) : Option Nat := s.dist[v]?.join

/-- Hops left to find or to expand: an upper bound for the rounds to come. -/
def State.pending (s : State) : Nat := s.queue.length + s.dist.count none

theorem isNew_iff : s.isNew v ↔ v < s.dist.size ∧ s.distance? v = none := by
  unfold State.isNew State.distance?
  by_cases hv : v < s.dist.size
  · simp only [Array.getElem?_eq_getElem hv, Option.join_some, hv, true_and]
    cases s.dist[v] <;> simp
  · simp [hv]

theorem lt_size_of_distance? (h : s.distance? v = some d) : v < s.dist.size := by
  by_contra hv
  rw [State.distance?, Array.getElem?_eq_none (Nat.le_of_not_lt hv)] at h
  simp at h

/-! ## What a step can do -/

/-- What changes when `v` is found from `u`, which is at distance `d`. -/
structure Found (c : Constraints) (u v d : Nat) (s s' : State) : Prop where
  running : s.stopped = false
  new : s.isNew v = true
  prev : s'.prev = s.prev.setIfInBounds v u
  dist : s'.dist = s.dist.setIfInBounds v (some (d + 1))
  queue : s'.queue = s.queue ++ if c.blocks v || c.isDestination v then [] else [v]
  destinations : s'.destinations =
    s.destinations ++ if c.blocks v || !c.isDestination v then [] else [v]
  stopped : s'.stopped = (!c.blocks v && c.isDestination v && !c.findsAll)

/-- A step finds a node that is new, or changes nothing and for a reason. -/
theorem step_cases (hu : s.distance? u = some d) :
    (step c u s v = s ∧ (s.stopped = true ∨ c.isForbidden u v = true ∨ s.isNew v = false)) ∨
      (c.isForbidden u v = false ∧ Found c u v d s (step c u s v)) := by
  by_cases hskip : s.stopped || c.isForbidden u v || !s.isNew v
  · left
    refine ⟨by rw [step, if_pos hskip], ?_⟩
    simpa [or_assoc] using hskip
  · right
    have hcalm : s.stopped = false ∧ c.isForbidden u v = false ∧ s.isNew v = true := by
      simpa [and_assoc] using hskip
    obtain ⟨hrunning, hforbidden, hnew⟩ := hcalm
    have hdist : (s.find u v).dist = s.dist.setIfInBounds v (some (d + 1)) := by
      have hu' : s.dist[u]?.join = some d := hu
      rw [State.find, hu']
      rfl
    refine ⟨hforbidden, ?_⟩
    rw [step, if_neg hskip]
    cases hb : c.blocks v <;> cases hd : c.isDestination v <;>
      exact ⟨hrunning, hnew, rfl, hdist, by simp [State.find, hb, hd],
        by simp [State.find, hb, hd], by simp [State.find, hrunning, hb, hd]⟩

namespace Found

variable {s' : State} (h : Found c u v d s s')
include h

theorem lt_size : v < s.dist.size := (isNew_iff.mp h.new).1

theorem distance? : s'.distance? w = if w = v then some (d + 1) else s.distance? w := by
  unfold State.distance?
  rw [h.dist, Array.getElem?_setIfInBounds]
  by_cases hw : v = w
  · subst hw
    simp [h.lt_size]
  · simp [hw, Ne.symm hw]

theorem distance?_self : s'.distance? v = some (d + 1) := by
  rw [h.distance?, if_pos rfl]

theorem ne_of_distance? {e : Nat} (hw : s.distance? w = some e) : w ≠ v := by
  rintro rfl
  exact absurd ((isNew_iff.mp h.new).2.symm.trans hw) (by simp)

/-- What was found before stays found, at the same distance. -/
theorem distance?_of_some {e : Nat} (hw : s.distance? w = some e) : s'.distance? w = some e := by
  rw [h.distance?, if_neg (h.ne_of_distance? hw), hw]

/-- The new node waits on the queue, unless the search is blocked or has arrived there. -/
theorem mem_queue : w ∈ s'.queue ↔
    w ∈ s.queue ∨ w = v ∧ c.blocks v = false ∧ c.isDestination v = false := by
  rw [h.queue, List.mem_append]
  cases hb : c.blocks v <;> cases hd : c.isDestination v <;> simp

theorem mem_destinations : w ∈ s'.destinations ↔
    w ∈ s.destinations ∨ w = v ∧ c.blocks v = false ∧ c.isDestination v = true := by
  rw [h.destinations, List.mem_append]
  cases hb : c.blocks v <;> cases hd : c.isDestination v <;> simp

theorem prev_getElem? (hsize : s.prev.size = s.dist.size) :
    s'.prev[w]? = if w = v then some u else s.prev[w]? := by
  rw [h.prev, Array.getElem?_setIfInBounds]
  by_cases hw : v = w
  · subst hw
    simp [hsize, h.lt_size]
  · simp [hw, Ne.symm hw]

end Found

theorem step_distance?_of_some {e : Nat} (hu : s.distance? u = some d)
    (hw : s.distance? w = some e) : (step c u s v).distance? w = some e := by
  rcases step_cases (c := c) (v := v) hu with ⟨hstep, -⟩ | ⟨-, hfound⟩
  · rw [hstep, hw]
  · exact hfound.distance?_of_some hw

theorem scan_distance?_of_some {scanned : List Nat} {e : Nat} (hu : s.distance? u = some d)
    (hw : s.distance? w = some e) : (scanned.foldl (step c u) s).distance? w = some e := by
  induction scanned generalizing s with
  | nil => exact hw
  | cons v scanned ih => exact ih (step_distance?_of_some hu hu) (step_distance?_of_some hu hw)

/-! ## Parents lead back to the source -/

/-- The parents lead back to the source along permitted walks, whatever is on the queue may be
expanded unless it is a dead end, and what is listed as a destination was found. -/
structure Traced (c : Constraints) (neighbours : Array (List Nat)) (source : Nat) (s : State) :
    Prop where
  dist_size : s.dist.size = neighbours.size
  prev_size : s.prev.size = neighbours.size
  source_distance : s.distance? source = some 0
  own_parent : ∀ v < neighbours.size, s.distance? v = none ∨ v = source → s.prev[v]? = some v
  parent : ∀ v d, s.distance? v = some d → v ≠ source →
    ∃ u e, s.prev[v]? = some u ∧ s.distance? u = some e ∧ d = e + 1 ∧
      (u = source ∨ c.passes u) ∧ c.Crosses neighbours u v
  queued : ∀ u ∈ s.queue, (∃ d, s.distance? u = some d) ∧
    (u = source ∨ c.blocks u = false ∧ c.isDestination u = false)
  listed : ∀ v ∈ s.destinations, ∃ d, s.distance? v = some d

theorem start_distance? (hs : source < neighbours.size) :
    (start neighbours.size source).distance? v = if v = source then some 0 else none := by
  unfold State.distance? start
  rw [Array.getElem?_setIfInBounds]
  by_cases hv : source = v
  · subst hv
    simp [hs]
  · rw [if_neg hv, if_neg (Ne.symm hv), Array.getElem?_replicate]
    split <;> rfl

theorem traced_start (hs : source < neighbours.size) :
    Traced c neighbours source (start neighbours.size source) where
  dist_size := by simp [start]
  prev_size := by simp [start]
  source_distance := by rw [start_distance? hs, if_pos rfl]
  own_parent := by
    intro v hv _
    simp [start, hv]
  parent := by
    intro v d hd hne
    rw [start_distance? hs, if_neg hne] at hd
    exact absurd hd (by simp)
  queued := by
    intro u hu
    obtain rfl : u = source := by simpa [start] using hu
    exact ⟨⟨0, by rw [start_distance? hs, if_pos rfl]⟩, Or.inl rfl⟩
  listed := by simp [start]

theorem Traced.step (h : Traced c neighbours source s) (hu : s.distance? u = some d)
    (hpass : u = source ∨ c.passes u) (hv : v ∈ neighbours[u]?.getD []) :
    Traced c neighbours source (step c u s v) := by
  rcases step_cases (c := c) (v := v) hu with ⟨hstep, -⟩ | ⟨hforbidden, hfound⟩
  · rw [hstep]
    exact h
  have hsize : s.prev.size = s.dist.size := by rw [h.prev_size, h.dist_size]
  constructor
  case dist_size => rw [hfound.dist, Array.size_setIfInBounds, h.dist_size]
  case prev_size => rw [hfound.prev, Array.size_setIfInBounds, h.prev_size]
  case source_distance => exact hfound.distance?_of_some h.source_distance
  case own_parent =>
    intro x hx hown
    -- the new node is found by now, and it is not the source, which was found before
    have hne : x ≠ v := by
      rintro rfl
      rcases hown with hown | rfl
      · rw [hfound.distance?_self] at hown
        exact absurd hown (by simp)
      · exact hfound.ne_of_distance? h.source_distance rfl
    rw [hfound.distance?, if_neg hne] at hown
    rw [hfound.prev_getElem? hsize, if_neg hne]
    exact h.own_parent x hx hown
  case parent =>
    intro x k hx hne
    rw [hfound.distance?] at hx
    by_cases hxv : x = v
    · subst hxv
      rw [if_pos rfl] at hx
      refine ⟨u, d, ?_, hfound.distance?_of_some hu, (Option.some.inj hx).symm, hpass, hv,
        hforbidden⟩
      rw [hfound.prev_getElem? hsize, if_pos rfl]
    · rw [if_neg hxv] at hx
      obtain ⟨p, e, hp, he, hk, hpass', hcross⟩ := h.parent x k hx hne
      refine ⟨p, e, ?_, hfound.distance?_of_some he, hk, hpass', hcross⟩
      rw [hfound.prev_getElem? hsize, if_neg hxv, hp]
  case queued =>
    intro x hx
    rcases hfound.mem_queue.mp hx with hx | ⟨rfl, hopen⟩
    · obtain ⟨⟨e, he⟩, hx'⟩ := h.queued x hx
      exact ⟨⟨e, hfound.distance?_of_some he⟩, hx'⟩
    · exact ⟨⟨d + 1, hfound.distance?_self⟩, Or.inr hopen⟩
  case listed =>
    intro x hx
    rcases hfound.mem_destinations.mp hx with hx | ⟨rfl, -⟩
    · obtain ⟨e, he⟩ := h.listed x hx
      exact ⟨e, hfound.distance?_of_some he⟩
    · exact ⟨d + 1, hfound.distance?_self⟩

theorem Traced.scan {scanned : List Nat} (h : Traced c neighbours source s)
    (hu : s.distance? u = some d) (hpass : u = source ∨ c.passes u)
    (hscan : ∀ v ∈ scanned, v ∈ neighbours[u]?.getD []) :
    Traced c neighbours source (scanned.foldl (Search.step c u) s) := by
  induction scanned generalizing s with
  | nil => exact h
  | cons v scanned ih =>
    have hrest : ∀ w ∈ scanned, w ∈ neighbours[u]?.getD [] := fun w hw =>
      hscan w (List.mem_cons_of_mem v hw)
    exact ih (h.step hu hpass (hscan v List.mem_cons_self)) (step_distance?_of_some hu hu) hrest

theorem Traced.pop {queue : List Nat} (h : Traced c neighbours source s)
    (hqueue : s.queue = u :: queue) : Traced c neighbours source { s with queue } where
  dist_size := h.dist_size
  prev_size := h.prev_size
  source_distance := h.source_distance
  own_parent := h.own_parent
  parent := h.parent
  queued := by
    intro x hx
    exact h.queued x (hqueue ▸ List.mem_cons_of_mem u hx)
  listed := h.listed

/-- What is on the queue and is no dead end may be expanded. -/
theorem Traced.passes_of_queued (h : Traced c neighbours source s) (hu : u ∈ s.queue)
    (hdead : ¬(u ≠ source ∧ c.isDeadEnd u)) : u = source ∨ c.passes u := by
  rcases (h.queued u hu).2 with hu' | ⟨hblocks, hdestination⟩
  · exact Or.inl hu'
  · by_cases hs : u = source
    · exact Or.inl hs
    · right
      have hopen : c.isDeadEnd u = false := by
        cases hd : c.isDeadEnd u with
        | false => rfl
        | true => exact absurd ⟨hs, hd⟩ hdead
      simp [Constraints.passes, hblocks, hdestination, hopen]

theorem Traced.rounds {fuel : Nat} (h : Traced c neighbours source s) :
    Traced c neighbours source (rounds neighbours c source fuel s) := by
  induction fuel generalizing s with
  | zero => exact h
  | succ fuel ih =>
    rw [Search.rounds]
    split
    · exact h
    split
    · exact h
    next u queue hqueue =>
      dsimp only
      split
      · exact ih (h.pop hqueue)
      next hdead =>
        have hmem : u ∈ s.queue := hqueue ▸ List.mem_cons_self
        obtain ⟨e, he⟩ := (h.queued u hmem).1
        exact ih ((h.pop hqueue).scan he (h.passes_of_queued hmem hdead) fun _ hv => hv)

/-! ## A search comes to its end -/

theorem pending_step (hu : s.distance? u = some d) : (step c u s v).pending ≤ s.pending := by
  rcases step_cases (c := c) (v := v) hu with ⟨hstep, -⟩ | ⟨-, hfound⟩
  · rw [hstep]
  have hlt := hfound.lt_size
  have hunfound : s.dist[v] = none := by
    have hnone := (isNew_iff.mp hfound.new).2
    rwa [State.distance?, Array.getElem?_eq_getElem hlt, Option.join_some] at hnone
  -- one node fewer is without a distance, and at most one more is on the queue
  have hpos : 0 < s.dist.count none :=
    Array.count_pos_iff.mpr (hunfound ▸ Array.getElem_mem hlt)
  have hcount : (step c u s v).dist.count none = s.dist.count none - 1 := by
    rw [hfound.dist, Array.setIfInBounds, dif_pos hlt, Array.count_set, hunfound]
    simp
  have hlen : (step c u s v).queue.length ≤ s.queue.length + 1 := by
    rw [hfound.queue, List.length_append]
    split <;> simp
  rw [State.pending, State.pending, hcount]
  omega

theorem pending_scan {scanned : List Nat} (hu : s.distance? u = some d) :
    (scanned.foldl (step c u) s).pending ≤ s.pending := by
  induction scanned generalizing s with
  | nil => exact Nat.le_refl _
  | cons v scanned ih => exact (ih (step_distance?_of_some hu hu)).trans (pending_step hu)

/-- Enough rounds end a search: it was stopped, or nothing is left to expand. -/
theorem rounds_finish {fuel : Nat} (h : Traced c neighbours source s) (hfuel : s.pending ≤ fuel) :
    (rounds neighbours c source fuel s).stopped = true ∨
      (rounds neighbours c source fuel s).queue = [] := by
  induction fuel generalizing s with
  | zero =>
    right
    have : s.queue.length = 0 := by
      unfold State.pending at hfuel
      omega
    exact List.length_eq_zero_iff.mp this
  | succ fuel ih =>
    rw [rounds]
    split
    · next hstopped => exact Or.inl hstopped
    split
    · next hqueue => exact Or.inr hqueue
    next u queue hqueue =>
      -- the round takes a node off the queue, and its expansion adds nothing to what is pending
      have hpop : State.pending { s with queue } + 1 = s.pending := by
        rw [State.pending, State.pending, hqueue, List.length_cons]
        dsimp only
        omega
      dsimp only
      split
      · exact ih (h.pop hqueue) (by omega)
      next hdead =>
        have hmem : u ∈ s.queue := hqueue ▸ List.mem_cons_self
        obtain ⟨e, he⟩ := (h.queued u hmem).1
        have hscan := (h.pop hqueue).scan he (h.passes_of_queued hmem hdead) fun _ hv => hv
        refine ih hscan ?_
        have : (List.foldl (step c u) { s with queue } (neighbours[u]?.getD [])).pending ≤
            State.pending { s with queue } := pending_scan he
        omega

theorem pending_start (hs : source < neighbours.size) :
    (start neighbours.size source).pending = neighbours.size := by
  unfold State.pending start
  rw [Array.setIfInBounds, dif_pos (by simpa using hs), Array.count_set]
  simp
  omega

/-- The state in which a search ends. -/
def final (neighbours : Array (List Nat)) (c : Constraints) (source : Nat) : State :=
  rounds neighbours c source neighbours.size (start neighbours.size source)

theorem traced_final (hs : source < neighbours.size) :
    Traced c neighbours source (final neighbours c source) :=
  (traced_start hs).rounds

theorem final_finished (hs : source < neighbours.size) :
    (final neighbours c source).stopped = true ∨ (final neighbours c source).queue = [] :=
  rounds_finish (traced_start hs) (pending_start hs).le

end CallAudit.Search

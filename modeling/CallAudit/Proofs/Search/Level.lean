import CallAudit.Proofs.Search.Trace

/-!
# Level order

A search that looks for every destination expands nodes in the order of their distance.  `Levelled`
says so for a search under way: the queue is ordered and spans two levels, what left it has all its
neighbours found, and the destinations are listed level by level.  When the queue runs empty, every
permitted walk has been followed (`Levelled.distance?_le`).
-/

namespace CallAudit.Search

variable {c : Constraints} {neighbours : Array (List Nat)} {source u v d low : Nat} {s : State}
  {current : Option Nat}

/-- Whether every neighbour is a node. -/
def InRange (neighbours : Array (List Nat)) : Prop :=
  ∀ row ∈ neighbours, ∀ v ∈ row, v < neighbours.size

theorem InRange.lt_size (h : InRange neighbours) (hv : v ∈ neighbours[u]?.getD []) :
    v < neighbours.size := by
  cases hrow : neighbours[u]? with
  | none => simp [hrow] at hv
  | some row => exact h row (Array.mem_of_getElem? hrow) v (by simpa [hrow] using hv)

/-- The distance of a node that was found. -/
def State.depth (s : State) (v : Nat) : Nat := (s.distance? v).getD 0

theorem depth_of_distance? (h : s.distance? v = some d) : s.depth v = d := by
  rw [State.depth, h, Option.getD_some]

/-- Level order, when no expanded node was nearer than `low` lately and `current` is being expanded. -/
structure Levelled (c : Constraints) (neighbours : Array (List Nat)) (source low : Nat)
    (current : Option Nat) (s : State) : Prop where
  running : s.stopped = false
  bound : ∀ v d, s.distance? v = some d → d ≤ low + 1
  queue_low : ∀ v ∈ s.queue, low ≤ s.depth v
  queue_ordered : s.queue.Pairwise fun a b => s.depth a ≤ s.depth b
  expanded : ∀ u d, s.distance? u = some d → u ∉ s.queue → current ≠ some u →
    (u = source ∨ c.passes u) → ∀ v, c.Crosses neighbours u v → ∃ e ≤ d + 1, s.distance? v = some e
  nodup_destinations : s.destinations.Nodup
  destinations_ordered : s.destinations.Pairwise fun a b => s.depth a ≤ s.depth b
  mem_destinations : ∀ v, v ∈ s.destinations ↔
    v ≠ source ∧ (∃ d, s.distance? v = some d) ∧ c.isDestination v = true ∧ c.blocks v = false

theorem levelled_start (hs : source < neighbours.size) :
    Levelled c neighbours source 0 none (start neighbours.size source) where
  running := rfl
  bound := by
    intro v d hd
    rw [start_distance? hs] at hd
    split at hd
    · have := Option.some.inj hd
      omega
    · exact absurd hd (by simp)
  queue_low := fun _ _ => Nat.zero_le _
  queue_ordered := by simp [start]
  expanded := by
    intro u d hd hqueue
    have hu : u ≠ source := by simpa [start] using hqueue
    rw [start_distance? hs, if_neg hu] at hd
    exact absurd hd (by simp)
  nodup_destinations := by simp [start]
  destinations_ordered := by simp [start]
  mem_destinations := by
    intro v
    refine ⟨fun h => absurd h (by simp [start]), ?_⟩
    rintro ⟨hv, ⟨d, hd⟩, -⟩
    rw [start_distance? hs, if_neg hv] at hd
    exact absurd hd (by simp)

/-- Taking the first node off the queue starts its expansion. -/
theorem Levelled.pop {queue : List Nat} (h : Levelled c neighbours source low none s)
    (hqueue : s.queue = u :: queue) :
    Levelled c neighbours source (s.depth u) (some u) { s with queue } := by
  have hordered := hqueue ▸ h.queue_ordered
  rw [List.pairwise_cons] at hordered
  have hlow : low ≤ s.depth u := h.queue_low u (hqueue ▸ List.mem_cons_self)
  refine ⟨h.running, ?_, hordered.1, hordered.2, ?_, h.nodup_destinations, h.destinations_ordered,
    h.mem_destinations⟩
  · intro v d hd
    have := h.bound v d hd
    omega
  · intro w d hd hw hcurrent
    refine h.expanded w d hd ?_ (by simp)
    rw [hqueue, List.mem_cons, not_or]
    exact ⟨fun hwu => hcurrent (congrArg some hwu.symm), hw⟩

/-- The expansion of a node ends when every neighbour it leads to is found. -/
theorem Levelled.close (h : Levelled c neighbours source low (some u) s)
    (hu : s.distance? u = some low)
    (hfound : (u = source ∨ c.passes u) → ∀ v, c.Crosses neighbours u v →
      ∃ e, s.distance? v = some e) :
    Levelled c neighbours source low none s where
  running := h.running
  bound := h.bound
  queue_low := h.queue_low
  queue_ordered := h.queue_ordered
  expanded := by
    intro w d hd hw _ hpass v hcross
    by_cases hwu : w = u
    · subst hwu
      obtain ⟨e, he⟩ := hfound hpass v hcross
      obtain rfl : low = d := Option.some.inj (hu.symm.trans hd)
      exact ⟨e, h.bound v e he, he⟩
    · exact h.expanded w d hd hw (fun hw' => hwu (Option.some.inj hw').symm) hpass v hcross
  nodup_destinations := h.nodup_destinations
  destinations_ordered := h.destinations_ordered
  mem_destinations := h.mem_destinations

/-- Nodes that were found keep their order, and a node found later is no nearer. -/
theorem Found.pairwise_depth {s' : State} {xs : List Nat} {b : Bool} (h : Found c u v d s s')
    (hbound : ∀ v e, s.distance? v = some e → e ≤ d + 1)
    (hxs : ∀ x ∈ xs, ∃ e, s.distance? x = some e)
    (hpairs : xs.Pairwise fun a b => s.depth a ≤ s.depth b) :
    (xs ++ if b then [] else [v]).Pairwise fun a b => s'.depth a ≤ s'.depth b := by
  have hsame : ∀ x ∈ xs, s'.depth x = s.depth x := by
    intro x hx
    obtain ⟨e, he⟩ := hxs x hx
    rw [depth_of_distance? he, depth_of_distance? (h.distance?_of_some he)]
  rw [List.pairwise_append]
  refine ⟨?_, by split <;> simp, ?_⟩
  · refine hpairs.imp_of_mem ?_
    intro x y hx hy hxy
    rwa [hsame x hx, hsame y hy]
  · intro x hx y hy
    split at hy
    · exact absurd hy (by simp)
    · obtain rfl := List.mem_singleton.mp hy
      obtain ⟨e, he⟩ := hxs x hx
      rw [hsame x hx, depth_of_distance? he, depth_of_distance? h.distance?_self]
      exact hbound x e he

/-- Finding a node keeps the level order. -/
theorem Levelled.found {s' : State} (h : Levelled c neighbours source d (some u) s)
    (ht : Traced c neighbours source s) (hfound : Found c u v d s s') (hall : c.findsAll = true) :
    Levelled c neighbours source d (some u) s' := by
  have hqueued : ∀ x ∈ s.queue, ∃ e, s.distance? x = some e := fun x hx => (ht.queued x hx).1
  have hlisted : ∀ x ∈ s.destinations, ∃ e, s.distance? x = some e := fun x hx =>
    ((h.mem_destinations x).mp hx).2.1
  have hv : v ≠ source := (hfound.ne_of_distance? ht.source_distance).symm
  constructor
  case running =>
    rw [hfound.stopped, hall]
    simp
  case bound =>
    intro x e hx
    rw [hfound.distance?] at hx
    split at hx
    · have := Option.some.inj hx
      omega
    · exact h.bound x e hx
  case queue_low =>
    intro x hx
    rcases hfound.mem_queue.mp hx with hx | ⟨rfl, -⟩
    · obtain ⟨e, he⟩ := hqueued x hx
      have := h.queue_low x hx
      rw [depth_of_distance? he] at this
      rwa [depth_of_distance? (hfound.distance?_of_some he)]
    · rw [depth_of_distance? hfound.distance?_self]
      omega
  case queue_ordered =>
    rw [hfound.queue]
    exact hfound.pairwise_depth h.bound hqueued h.queue_ordered
  case expanded =>
    intro w k hk hw hcurrent hpass x hcross
    rw [hfound.mem_queue, not_or] at hw
    by_cases hwv : w = v
    · -- the new node is on the queue unless it lets no walk pass
      subst hwv
      have hpass' : c.passes w = true := hpass.resolve_left hv
      rw [Constraints.passes, Bool.and_eq_true, Bool.and_eq_true] at hpass'
      have hopen : c.blocks w = false ∧ c.isDestination w = false := by simpa using hpass'.1
      exact absurd ⟨rfl, hopen⟩ hw.2
    · rw [hfound.distance?, if_neg hwv] at hk
      obtain ⟨e, hle, he⟩ := h.expanded w k hk hw.1 hcurrent hpass x hcross
      exact ⟨e, hle, hfound.distance?_of_some he⟩
  case nodup_destinations =>
    rw [hfound.destinations, List.nodup_append]
    refine ⟨h.nodup_destinations, by split <;> simp, ?_⟩
    rintro a ha b hb rfl
    split at hb
    · exact absurd hb (by simp)
    · -- what is listed was found before, so it is not the new node
      obtain ⟨e, he⟩ := hlisted a ha
      exact hfound.ne_of_distance? he (List.mem_singleton.mp hb)
  case destinations_ordered =>
    rw [hfound.destinations]
    exact hfound.pairwise_depth h.bound hlisted h.destinations_ordered
  case mem_destinations =>
    intro x
    rw [hfound.mem_destinations, h.mem_destinations x, hfound.distance?]
    by_cases hxv : x = v
    · -- the new node was not found before, so it was not listed either
      subst hxv
      have hnone := (isNew_iff.mp hfound.new).2
      simp [hnone, hv, and_comm]
    · simp [hxv]

/-- A step of an expansion keeps the level order. -/
theorem Levelled.step (h : Levelled c neighbours source d (some u) s)
    (ht : Traced c neighbours source s) (hu : s.distance? u = some d) (hall : c.findsAll = true) :
    Levelled c neighbours source d (some u) (step c u s v) := by
  rcases step_cases (c := c) (v := v) hu with ⟨hstep, -⟩ | ⟨-, hfound⟩
  · rw [hstep]
    exact h
  · exact h.found ht hfound hall

/-- An expansion keeps the level order and finds every neighbour that it may cross to. -/
theorem Levelled.scan {scanned : List Nat} (h : Levelled c neighbours source d (some u) s)
    (ht : Traced c neighbours source s) (hu : s.distance? u = some d) (hall : c.findsAll = true)
    (hpass : u = source ∨ c.passes u)
    (hscan : ∀ v ∈ scanned, v ∈ neighbours[u]?.getD [] ∧ v < neighbours.size) :
    Levelled c neighbours source d (some u) (scanned.foldl (Search.step c u) s) ∧
      ∀ v ∈ scanned, c.isForbidden u v = false →
        ∃ e, (scanned.foldl (Search.step c u) s).distance? v = some e := by
  induction scanned generalizing s with
  | nil => exact ⟨h, by simp⟩
  | cons v scanned ih =>
    obtain ⟨hv, hlt⟩ := hscan v List.mem_cons_self
    obtain ⟨hlevelled, hfound⟩ := ih (h.step ht hu hall) (ht.step hu hpass hv)
      (step_distance?_of_some hu hu) fun w hw => hscan w (List.mem_cons_of_mem v hw)
    refine ⟨hlevelled, ?_⟩
    intro w hw hforbidden
    rcases List.mem_cons.mp hw with rfl | hw
    · have hnow : ∃ e, (Search.step c u s w).distance? w = some e := by
        rcases step_cases (c := c) (v := w) hu with ⟨hstep, hcause⟩ | ⟨-, hfound⟩
        · -- the search runs and the hop is allowed, so that the node was found before
          rw [h.running, hforbidden] at hcause
          have hknown : s.isNew w = false := by simpa using hcause
          have hlt' : w < s.dist.size := by rwa [ht.dist_size]
          rw [hstep]
          cases he : s.distance? w with
          | some e => exact ⟨e, rfl⟩
          | none => exact absurd (isNew_iff.mpr ⟨hlt', he⟩) (by simp [hknown])
        · exact ⟨d + 1, hfound.distance?_self⟩
      obtain ⟨e, he⟩ := hnow
      exact ⟨e, scan_distance?_of_some (s := Search.step c u s w) (step_distance?_of_some hu hu) he⟩
    · exact hfound w hw hforbidden

theorem Levelled.rounds {fuel : Nat} (h : Levelled c neighbours source low none s)
    (ht : Traced c neighbours source s) (hall : c.findsAll = true)
    (hrange : InRange neighbours) :
    ∃ low, Levelled c neighbours source low none (rounds neighbours c source fuel s) := by
  induction fuel generalizing s low with
  | zero => exact ⟨low, h⟩
  | succ fuel ih =>
    rw [Search.rounds]
    split
    · exact ⟨low, h⟩
    split
    · exact ⟨low, h⟩
    next u queue hqueue =>
      have hmem : u ∈ s.queue := hqueue ▸ List.mem_cons_self
      obtain ⟨d, hd⟩ := (ht.queued u hmem).1
      have hpop := h.pop hqueue
      rw [depth_of_distance? hd] at hpop
      dsimp only
      split
      · -- a dead end is not expanded, but lets no walk pass either
        next hdead =>
        refine ih (hpop.close hd ?_) (ht.pop hqueue)
        intro hpass
        have hpass' := hpass.resolve_left hdead.1
        simp [Constraints.passes, hdead.2] at hpass'
      · next hdead =>
        have hpass := ht.passes_of_queued hmem hdead
        have hscan : ∀ v ∈ neighbours[u]?.getD [], v ∈ neighbours[u]?.getD [] ∧
            v < neighbours.size := fun v hv => ⟨hv, hrange.lt_size hv⟩
        obtain ⟨hlevelled, hfound⟩ := hpop.scan (ht.pop hqueue) hd hall hpass hscan
        refine ih (hlevelled.close (scan_distance?_of_some (s := { s with queue }) hd hd) ?_)
          ((ht.pop hqueue).scan hd hpass fun _ hv => hv)
        intro _ v hcross
        exact hfound v hcross.1 hcross.2

/-- When nothing is left to expand, every node that can be walked to was found, no farther away. -/
theorem Levelled.distance?_le {steps : Nat} (h : Levelled c neighbours source low none s)
    (ht : Traced c neighbours source s) (hqueue : s.queue = [])
    (hwalk : c.WalkTo neighbours source steps v) : ∃ e ≤ steps, s.distance? v = some e := by
  induction hwalk with
  | source => exact ⟨0, Nat.le_refl 0, ht.source_distance⟩
  | @step steps u v _ hpass hcross ih =>
    obtain ⟨e, hle, he⟩ := ih
    obtain ⟨k, hk, hk'⟩ := h.expanded u e he (by simp [hqueue]) (by simp) hpass v hcross
    exact ⟨k, by omega, hk'⟩

/-- A search for every destination ends in level order, with nothing left to expand. -/
theorem levelled_final (hs : source < neighbours.size) (hall : c.findsAll = true)
    (hrange : InRange neighbours) :
    ∃ low, Levelled c neighbours source low none (final neighbours c source) ∧
      (final neighbours c source).queue = [] := by
  obtain ⟨low, h⟩ : ∃ low, Levelled c neighbours source low none (final neighbours c source) :=
    (levelled_start hs).rounds (traced_start hs) hall hrange
  refine ⟨low, h, (final_finished hs).resolve_left ?_⟩
  rw [h.running]
  exact Bool.false_ne_true

end CallAudit.Search

import CallAudit.Proofs.Search.Shortest

/-!
# Searches that stop

A search may stop at the first destination that it finds.  Until then it does what a search for every
destination does, and what that one does later only adds to what it knows (`State.Extends`).  So whatever
was found by then is as near as that search finds it, and the way there is a shortest one
(`search_isLeast`).
-/

namespace CallAudit

/-- The same constraints for a search that goes on after the first destination. -/
def Constraints.goingOn (c : Constraints) : Constraints := { c with findsAll := true }

namespace Constraints

variable {c : Constraints}

/-- What walks are permitted does not depend on when a search stops. -/
theorem walkLengths_goingOn {neighbours : Array (List Nat)} {source target : Nat} :
    c.goingOn.walkLengths neighbours source target = c.walkLengths neighbours source target := by
  ext steps
  constructor <;>
  · rintro ⟨walk, h, hlen⟩
    exact ⟨walk, ⟨h.starts, h.ends, h.crosses, h.passes⟩, hlen⟩

end Constraints

namespace Search

variable {c : Constraints} {neighbours : Array (List Nat)} {source u v d fuel : Nat} {s t : State}

/-! ## What a search knows only grows -/

/-- All that is known in state `s` is still known in state `t`: what was found has the distance and the
parent that it had, and what was listed comes first in the list. -/
structure State.Extends (s t : State) : Prop where
  distance? : ∀ v d, s.distance? v = some d → t.distance? v = some d
  prev : ∀ v d, s.distance? v = some d → t.prev[v]? = s.prev[v]?
  destinations : s.destinations <+: t.destinations

namespace State.Extends

theorem refl (s : State) : s.Extends s :=
  ⟨fun _ _ hv => hv, fun _ _ _ => rfl, List.prefix_refl _⟩

theorem trans {r : State} (hst : s.Extends t) (htr : t.Extends r) : s.Extends r where
  distance? := fun v d hv => htr.distance? v d (hst.distance? v d hv)
  prev := fun v d hv => (htr.prev v d (hst.distance? v d hv)).trans (hst.prev v d hv)
  destinations := hst.destinations.trans htr.destinations

end State.Extends

theorem Found.extends (h : Found c u v d s t) : s.Extends t where
  distance? := fun _ _ hw => h.distance?_of_some hw
  prev := by
    intro w e hw
    -- the one parent that is noted is that of the new node
    rw [h.prev, Array.getElem?_setIfInBounds_ne (h.ne_of_distance? hw).symm]
  destinations := by
    rw [h.destinations]
    exact List.prefix_append _ _

theorem extends_step (hu : s.distance? u = some d) : s.Extends (step c u s v) := by
  rcases step_cases (c := c) (v := v) hu with ⟨hstep, -⟩ | ⟨-, hfound⟩
  · rw [hstep]
    exact .refl s
  · exact hfound.extends

theorem extends_scan {scanned : List Nat} (hu : s.distance? u = some d) :
    s.Extends (scanned.foldl (step c u) s) := by
  induction scanned generalizing s with
  | nil => exact .refl s
  | cons v scanned ih => exact (extends_step hu).trans (ih (step_distance?_of_some hu hu))

theorem Traced.extends_rounds (h : Traced c neighbours source s) :
    s.Extends (Search.rounds neighbours c source fuel s) := by
  induction fuel generalizing s with
  | zero => exact .refl s
  | succ fuel ih =>
    rw [Search.rounds]
    split
    · exact .refl s
    split
    · exact .refl s
    next u queue hqueue =>
      dsimp only
      -- taking a node off the queue changes nothing of what is known
      have hpop : s.Extends { s with queue } :=
        ⟨fun _ _ hv => hv, fun _ _ _ => rfl, List.prefix_refl _⟩
      split
      · exact hpop.trans (ih (h.pop hqueue))
      next hdead =>
        have hmem : u ∈ s.queue := hqueue ▸ List.mem_cons_self
        obtain ⟨e, he⟩ := (h.queued u hmem).1
        have hscan := (h.pop hqueue).scan he (h.passes_of_queued hmem hdead) fun _ hv => hv
        exact (hpop.trans (extends_scan he)).trans (ih hscan)

/-! ## Beside a search that goes on -/

/-- A search `s` that may stop and the search `t` that goes on: they are the same until the first one
stops, and from then on the second knows whatever the first does. -/
inductive Ahead (s t : State) : Prop
  | running : s.stopped = false → t = s → Ahead s t
  | stopped : s.stopped = true → s.Extends t → Ahead s t

theorem Ahead.extends (h : Ahead s t) : s.Extends t := by
  cases h with
  | running _ heq => exact heq ▸ .refl s
  | stopped _ hextends => exact hextends

theorem Ahead.step (h : Ahead s t) (hu : s.distance? u = some d) :
    Ahead (step c u s v) (step c.goingOn u t v) := by
  cases h with
  | stopped hstopped hextends =>
    have hstep : Search.step c u s v = s := by rw [Search.step, if_pos (by simp [hstopped])]
    rw [hstep]
    exact .stopped hstopped (hextends.trans (extends_step (hextends.distance? u d hu)))
  | running hrunning heq =>
    subst heq
    -- the two differ only where a destination is found
    have hstep : Search.step c.goingOn u t v =
        if t.stopped || c.isForbidden u v || !t.isNew v then t
        else if c.blocks v then t.find u v
        else if c.isDestination v then
          { t.find u v with destinations := t.destinations ++ [v], stopped := false }
        else { t.find u v with queue := t.queue ++ [v] } := rfl
    rw [Search.step, hstep]
    by_cases hskip : t.stopped || c.isForbidden u v || !t.isNew v
    · rw [if_pos hskip, if_pos hskip]
      exact .running hrunning rfl
    rw [if_neg hskip, if_neg hskip]
    dsimp only
    by_cases hblocks : c.blocks v
    · rw [if_pos hblocks, if_pos hblocks]
      exact .running hrunning rfl
    rw [if_neg hblocks, if_neg hblocks]
    by_cases hdestination : c.isDestination v
    · rw [if_pos hdestination, if_pos hdestination]
      cases c.findsAll with
      | true => exact .running rfl rfl
      | false => exact .stopped rfl ⟨fun _ _ hw => hw, fun _ _ _ => rfl, List.prefix_refl _⟩
    · rw [if_neg hdestination, if_neg hdestination]
      exact .running hrunning rfl

theorem Ahead.scan {scanned : List Nat} (h : Ahead s t) (hu : s.distance? u = some d) :
    Ahead (scanned.foldl (Search.step c u) s) (scanned.foldl (Search.step c.goingOn u) t) := by
  induction scanned generalizing s t with
  | nil => exact h
  | cons v scanned ih => exact ih (h.step hu) (step_distance?_of_some hu hu)

theorem Ahead.rounds (h : Ahead s t) (hs : Traced c neighbours source s)
    (ht : Traced c.goingOn neighbours source t) :
    Ahead (rounds neighbours c source fuel s) (rounds neighbours c.goingOn source fuel t) := by
  induction fuel generalizing s t with
  | zero => exact h
  | succ fuel ih =>
    cases h with
    | stopped hstopped hextends =>
      have hend : Search.rounds neighbours c source (fuel + 1) s = s := by
        rw [Search.rounds, if_pos hstopped]
      rw [hend]
      exact .stopped hstopped (hextends.trans ht.extends_rounds)
    | running hrunning heq =>
      subst heq
      have hgo : ¬ t.stopped = true := by rw [hrunning]; exact Bool.false_ne_true
      rw [Search.rounds, Search.rounds, if_neg hgo, if_neg hgo]
      split
      · exact .running hrunning rfl
      next u queue hqueue =>
        have hpop : Ahead { t with queue } { t with queue } := .running hrunning rfl
        dsimp only
        by_cases hdead : u ≠ source ∧ c.isDeadEnd u
        · have hdead' : u ≠ source ∧ c.goingOn.isDeadEnd u := hdead
          rw [if_pos hdead, if_pos hdead']
          exact ih hpop (hs.pop hqueue) (ht.pop hqueue)
        have hdead' : ¬(u ≠ source ∧ c.goingOn.isDeadEnd u) := hdead
        rw [if_neg hdead, if_neg hdead']
        have hmem : u ∈ t.queue := hqueue ▸ List.mem_cons_self
        obtain ⟨e, he⟩ := (hs.queued u hmem).1
        exact ih (hpop.scan he)
          ((hs.pop hqueue).scan he (hs.passes_of_queued hmem hdead) fun _ hv => hv)
          ((ht.pop hqueue).scan he (ht.passes_of_queued hmem hdead) fun _ hv => hv)

theorem ahead_final (hs : source < neighbours.size) :
    Ahead (final neighbours c source) (final neighbours c.goingOn source) := by
  have hstart : Ahead (start neighbours.size source) (start neighbours.size source) :=
    .running rfl rfl
  exact hstart.rounds (traced_start hs) (traced_start hs)

end Search

/-- The distance of what a search found is the length of a shortest permitted walk, whether or not the
search goes on after the first destination. -/
theorem search_isLeast {c : Constraints} {neighbours : Array (List Nat)} {source v d : Nat}
    (hrange : Search.InRange neighbours) (hs : source < neighbours.size)
    (hv : (search neighbours c source).distance? v = some d) :
    IsLeast (c.walkLengths neighbours source v) d := by
  cases hdestination : c.isDestination source with
  | true =>
    -- nothing but the source was found
    rw [Search.search_eq_start hdestination] at hv
    have hstart : (Search.start neighbours.size source).distance? v = some d := hv
    rw [Search.start_distance? hs] at hstart
    split at hstart
    · next hsource =>
      subst hsource
      obtain rfl := Option.some.inj hstart
      exact ⟨⟨[v], Constraints.Permits.singleton, rfl⟩, fun _ _ => Nat.zero_le _⟩
    · cases hstart
  | false =>
    rw [Search.search_eq_final hdestination] at hv
    have hgoingOn : IsLeast (c.goingOn.walkLengths neighbours source v) d :=
      (Search.final_distance?_eq_some_iff hs rfl hrange).mp
        ((Search.ahead_final hs).extends.distance? v d hv)
    rwa [Constraints.walkLengths_goingOn] at hgoingOn

end CallAudit

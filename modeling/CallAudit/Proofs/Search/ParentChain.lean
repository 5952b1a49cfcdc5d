import CallAudit.Proofs.Search.Route
import Mathlib.Logic.Function.Iterate
import Mathlib.Logic.Relation

/-!
# Chains of parents

A search result that no search has left may hold any parents and distances.  Its route to a number is
there exactly if the parents lead back to the source in as many hops as the distance says
(`SearchResult.route_accepts_parent_chains`).  The walk along the parents is a run of single hops
(`SearchResult.Hop`), none of which makes the walk longer than there are numbers and one more.
-/

namespace CallAudit.SearchResult

/-! ## Parents -/

/-- The parent of a number.  What lies past the last number is its own parent. -/
def parent (r : SearchResult) (v : Nat) : Nat := r.prev[v]?.getD v

/-- The parents of a number lead to the source in so many steps and no fewer, and no number on the way
is its own parent. -/
structure Meets (r : SearchResult) (v steps : Nat) : Prop where
  source : r.parent^[steps] v = r.source
  first : ∀ k < steps, r.parent^[k] v ≠ r.source
  moves : ∀ k < steps, r.parent (r.parent^[k] v) ≠ r.parent^[k] v

/-- A number and what its parents lead to in so many steps, the last one first. -/
def ancestry (r : SearchResult) (v steps : Nat) : List Nat :=
  ((List.range (steps + 1)).map fun k => r.parent^[k] v).reverse

variable {r : SearchResult} {destination current fuel steps v : Nat} {walked path : List Nat}

theorem prev_getElem? (hv : v < r.prev.size) : r.prev[v]? = some (r.parent v) := by
  rw [parent, Array.getElem?_eq_getElem hv, Option.getD_some]

theorem meets_zero : r.Meets v 0 ↔ v = r.source := by
  refine ⟨fun h => h.source, fun h => ⟨h, ?_, ?_⟩⟩ <;>
  · intro k hk
    omega

/-- The way from a number other than the source goes on from its parent. -/
theorem meets_succ : r.Meets v (steps + 1) ↔
    v ≠ r.source ∧ r.parent v ≠ v ∧ r.Meets (r.parent v) steps := by
  constructor
  · intro h
    refine ⟨h.first 0 (by omega), h.moves 0 (by omega), h.source, ?_, ?_⟩
    · intro k hk
      exact h.first (k + 1) (by omega)
    · intro k hk
      exact h.moves (k + 1) (by omega)
  · rintro ⟨hsource, hmoves, h⟩
    refine ⟨h.source, ?_, ?_⟩
    · intro k hk
      cases k with
      | zero => exact hsource
      | succ k => exact h.first k (by omega)
    · intro k hk
      cases k with
      | zero => exact hmoves
      | succ k => exact h.moves k (by omega)

theorem length_ancestry : (r.ancestry v steps).length = steps + 1 := by
  rw [ancestry, List.length_reverse, List.length_map, List.length_range]

theorem ancestry_succ : r.ancestry v (steps + 1) = r.ancestry (r.parent v) steps ++ [v] := by
  rw [ancestry, ancestry, List.range_succ_eq_map, List.map_cons, List.map_map, List.reverse_cons]
  rfl

theorem ancestry_step :
    r.ancestry v (steps + 1) = r.parent (r.parent^[steps] v) :: r.ancestry v steps := by
  rw [ancestry, List.range_succ, List.map_append, List.map_singleton, List.reverse_concat,
    Function.iterate_succ_apply']
  rfl

theorem head?_ancestry : (r.ancestry v steps).head? = some (r.parent^[steps] v) := by
  cases steps with
  | zero => rfl
  | succ steps => rw [ancestry_step, List.head?_cons, Function.iterate_succ_apply']

theorem parent_lt (hprev : ∀ parent ∈ r.prev, parent < r.prev.size) (hv : v < r.prev.size) :
    r.parent v < r.prev.size :=
  hprev _ (Array.mem_of_getElem? (prev_getElem? hv))

theorem iterate_lt (hprev : ∀ parent ∈ r.prev, parent < r.prev.size) (hv : v < r.prev.size)
    (k : Nat) : r.parent^[k] v < r.prev.size := by
  induction k with
  | zero => exact hv
  | succ k ih =>
    rw [Function.iterate_succ_apply']
    exact parent_lt hprev ih

/-- No number comes twice on the way to the source: from where it came first, the source would have
been met sooner. -/
theorem Meets.injOn (h : r.Meets v steps) {i j : Nat} (hij : i < j) (hj : j ≤ steps) :
    r.parent^[i] v ≠ r.parent^[j] v := by
  intro heq
  refine h.first (steps - j + i) (by omega) ?_
  rw [Function.iterate_add_apply, heq, ← Function.iterate_add_apply, Nat.sub_add_cancel hj]
  exact h.source

theorem Meets.nodup (h : r.Meets v steps) : (r.ancestry v steps).Nodup := by
  rw [ancestry, List.nodup_reverse]
  refine List.Nodup.map_on ?_ List.nodup_range
  intro i hi j hj heq
  rw [List.mem_range] at hi hj
  rcases Nat.lt_trichotomy i j with hij | rfl | hji
  · exact absurd heq (h.injOn hij (by omega))
  · rfl
  · exact absurd heq.symm (h.injOn hji (by omega))

/-- The source is met after fewer steps than there are numbers. -/
theorem Meets.lt_size (h : r.Meets v steps) (hprev : ∀ parent ∈ r.prev, parent < r.prev.size)
    (hv : v < r.prev.size) : steps < r.prev.size := by
  have hlt : ∀ x ∈ r.ancestry v steps, x < r.prev.size := by
    intro x hx
    rw [ancestry, List.mem_reverse, List.mem_map] at hx
    obtain ⟨k, -, rfl⟩ := hx
    exact iterate_lt hprev hv k
  have hlen := Search.length_le_of_nodup_lt h.nodup hlt
  rw [length_ancestry] at hlen
  exact hlen

/-! ## The walk along parents -/

/-- One hop of a walk, whose numbers are listed with the last one first.  A walk hops to the parent of
its last number, unless that is the source or its own parent, or more numbers were walked than there
are. -/
inductive Hop (r : SearchResult) : (walk next : List Nat) → Prop
  | hop {current parent : Nat} {walked : List Nat} : current ≠ r.source →
      r.prev[current]? = some parent → parent ≠ current →
      (current :: walked).length ≤ r.prev.size →
      Hop r (current :: walked) (parent :: current :: walked)

theorem Hop.length_le {walk next : List Nat} (h : r.Hop walk next) :
    next.length ≤ r.prev.size + 1 := by
  cases h with
  | hop _ _ _ hlen => exact Nat.succ_le_succ hlen

/-- No run of hops makes a walk longer than there are numbers and one more. -/
theorem length_le_of_hops {walk : List Nat} (h : Relation.ReflTransGen r.Hop [v] walk) :
    walk.length ≤ r.prev.size + 1 := by
  cases h with
  | refl => exact Nat.succ_le_succ (Nat.zero_le _)
  | tail _ hhop => exact hhop.length_le

/-- How a walk ends: with the whole walk at the source, and as broken anywhere else. -/
def outcome (r : SearchResult) (destination : Nat) (walk : List Nat) :
    Except AuditError (List Nat) :=
  if walk.head? = some r.source then .ok walk
  else .error (.invariant (.brokenParentChain destination r.source))

/-- A walk that is at the source hops no farther. -/
theorem hops_source (hv : v = r.source) :
    ∃ walk, Relation.ReflTransGen r.Hop (v :: walked) walk ∧ (∀ next, ¬ r.Hop walk next) ∧
      r.walkBack destination fuel v walked = r.outcome destination walk := by
  refine ⟨v :: walked, .refl, ?_, ?_⟩
  · rintro next ⟨hne⟩
    exact hne hv
  · rw [hv, Search.walkBack_source, outcome, List.head?_cons, if_pos rfl]

/-- Following parents is a run of hops that goes on until no hop is left. -/
theorem exists_hops (hprev : ∀ parent ∈ r.prev, parent < r.prev.size) (hv : v < r.prev.size)
    (hfuel : (v :: walked).length + fuel = r.prev.size + 1) :
    ∃ walk, Relation.ReflTransGen r.Hop (v :: walked) walk ∧ (∀ next, ¬ r.Hop walk next) ∧
      r.walkBack destination fuel v walked = r.outcome destination walk := by
  induction fuel generalizing v walked with
  | zero =>
    by_cases hsource : v = r.source
    · exact hops_source hsource
    · -- more numbers were walked than there are
      refine ⟨v :: walked, .refl, ?_, ?_⟩
      · rintro next ⟨-, -, -, hlen⟩
        omega
      · rw [walkBack, if_neg hsource, if_pos hv, outcome, if_neg (by simpa using hsource)]
  | succ fuel ih =>
    by_cases hsource : v = r.source
    · exact hops_source hsource
    have hget := prev_getElem? hv
    by_cases hself : r.parent v = v
    · -- a number that is its own parent leads nowhere
      refine ⟨v :: walked, .refl, ?_, ?_⟩
      · rintro next ⟨-, hparent, hne⟩
        rw [hget] at hparent
        exact hne ((Option.some.inj hparent).symm.trans hself)
      · rw [walkBack, if_neg hsource, hget]
        dsimp only
        rw [if_pos hself, outcome, if_neg (by simpa using hsource)]
    · have hhop : r.Hop (v :: walked) (r.parent v :: v :: walked) :=
        .hop hsource hget hself (by omega)
      have hlen : (r.parent v :: v :: walked).length + fuel = r.prev.size + 1 := by
        rw [List.length_cons]
        omega
      obtain ⟨walk, hrun, hend, hback⟩ := ih (parent_lt hprev hv) hlen
      refine ⟨walk, .head hhop hrun, hend, ?_⟩
      rw [Search.walkBack_parent hsource hget hself, hback]

/-- The walk back from a number starts with that number alone. -/
theorem exists_hops_of_walkBack (destination : Nat)
    (hprev : ∀ parent ∈ r.prev, parent < r.prev.size) (hv : v < r.prev.size) :
    ∃ walk, Relation.ReflTransGen r.Hop [v] walk ∧ (∀ next, ¬ r.Hop walk next) ∧
      r.walkBack destination r.prev.size v [] = r.outcome destination walk :=
  exists_hops hprev hv (Nat.add_comm _ _)

/-- A run of hops lists the ancestry of its start, and neither left the source nor came to a number
that is its own parent. -/
theorem ancestry_of_hops {walk : List Nat} (h : Relation.ReflTransGen r.Hop [v] walk) :
    ∃ steps, walk = r.ancestry v steps ∧ (∀ k < steps, r.parent^[k] v ≠ r.source) ∧
      ∀ k < steps, r.parent (r.parent^[k] v) ≠ r.parent^[k] v := by
  induction h with
  | refl => exact ⟨0, rfl, by simp, by simp⟩
  | tail _ hhop ih =>
    obtain ⟨steps, rfl, hfirst, hmoves⟩ := ih
    generalize hwalk : r.ancestry v steps = walk at hhop
    obtain ⟨hsource, hparent, hne, -⟩ := hhop
    next current parent walked =>
    -- the last number of the walk so far is the one that so many steps lead to
    obtain rfl : r.parent^[steps] v = current := by
      have hhead : (r.ancestry v steps).head? = some (r.parent^[steps] v) := head?_ancestry
      rw [hwalk, List.head?_cons] at hhead
      exact (Option.some.inj hhead).symm
    obtain rfl : r.parent (r.parent^[steps] v) = parent := by
      rw [SearchResult.parent, hparent, Option.getD_some]
    refine ⟨steps + 1, ?_, ?_, ?_⟩
    · rw [ancestry_step, hwalk]
    · intro k hk
      rcases Nat.lt_succ_iff_lt_or_eq.mp hk with hk | rfl
      · exact hfirst k hk
      · exact hsource
    · intro k hk
      rcases Nat.lt_succ_iff_lt_or_eq.mp hk with hk | rfl
      · exact hmoves k hk
      · exact hne

/-! ## Routes -/

/-- Parents that meet the source in time are followed all the way. -/
theorem Meets.walkBack (h : r.Meets v steps) (hprev : ∀ parent ∈ r.prev, parent < r.prev.size)
    (hv : v < r.prev.size) (hfuel : steps ≤ fuel) :
    r.walkBack destination fuel v walked = .ok (r.ancestry v steps ++ walked) := by
  induction steps generalizing fuel v walked with
  | zero =>
    obtain rfl := meets_zero.mp h
    exact Search.walkBack_source
  | succ steps ih =>
    obtain ⟨hsource, hself, hrest⟩ := meets_succ.mp h
    obtain ⟨fuel, rfl⟩ : ∃ k, fuel = k + 1 := ⟨fuel - 1, by omega⟩
    rw [Search.walkBack_parent hsource (prev_getElem? hv) hself,
      ih hrest (parent_lt hprev hv) (by omega), ancestry_succ, List.append_assoc,
      List.singleton_append]

theorem walkBack_ok_iff (hprev : ∀ parent ∈ r.prev, parent < r.prev.size) (hv : v < r.prev.size) :
    r.walkBack destination r.prev.size v [] = .ok path ↔
      ∃ steps, r.Meets v steps ∧ path = r.ancestry v steps := by
  constructor
  · intro h
    obtain ⟨walk, hrun, -, hback⟩ := exists_hops_of_walkBack destination hprev hv
    obtain ⟨steps, rfl, hfirst, hmoves⟩ := ancestry_of_hops hrun
    rw [hback, outcome] at h
    split at h
    · next hhead =>
      rw [head?_ancestry] at hhead
      exact ⟨steps, ⟨Option.some.inj hhead, hfirst, hmoves⟩, (Except.ok.inj h).symm⟩
    · cases h
  · rintro ⟨steps, h, rfl⟩
    rw [h.walkBack hprev hv (h.lt_size hprev hv).le, List.append_nil]

theorem walkBack_error (hprev : ∀ parent ∈ r.prev, parent < r.prev.size) (hv : v < r.prev.size)
    {e : AuditError} (h : r.walkBack destination r.prev.size v [] = .error e) :
    e = .invariant (.brokenParentChain destination r.source) := by
  obtain ⟨walk, -, -, hback⟩ := exists_hops_of_walkBack destination hprev hv
  rw [hback, outcome] at h
  split at h
  · cases h
  · exact (Except.error.inj h).symm

theorem route_ok_iff (hsize : r.dist.size = r.prev.size)
    (hprev : ∀ parent ∈ r.prev, parent < r.prev.size) : r.route v = .ok path ↔
      v < r.prev.size ∧ ∃ d, r.distance? v = some d ∧ r.Meets v d ∧ path = r.ancestry v d := by
  cases hd : r.distance? v with
  | none =>
    rw [route_of_not_found hd]
    simp
  | some d =>
    have hv : v < r.prev.size := hsize ▸ lt_size_of_found hd
    rw [route_of_found hd]
    constructor
    · intro h
      cases hback : r.walkBack v r.prev.size v [] with
      | error e => rw [hback] at h; cases h
      | ok walk =>
        obtain ⟨steps, hmeets, rfl⟩ := (walkBack_ok_iff hprev hv).mp hback
        rw [hback, Except.bind, length_ancestry, Nat.add_sub_cancel] at h
        split at h
        · next hsteps =>
          subst hsteps
          exact ⟨hv, steps, rfl, hmeets, (Except.ok.inj h).symm⟩
        · cases h
    · rintro ⟨-, d', hd', hmeets, rfl⟩
      obtain rfl := Option.some.inj hd'
      rw [(walkBack_ok_iff hprev hv).mpr ⟨d, hmeets, rfl⟩, Except.bind, length_ancestry,
        Nat.add_sub_cancel, if_pos rfl]

theorem route_error (hsize : r.dist.size = r.prev.size)
    (hprev : ∀ parent ∈ r.prev, parent < r.prev.size) {e : AuditError}
    (h : r.route v = .error e) : ∃ violation, e = .invariant violation := by
  cases hd : r.distance? v with
  | none =>
    rw [route_of_not_found hd] at h
    exact ⟨_, (Except.error.inj h).symm⟩
  | some d =>
    have hv : v < r.prev.size := hsize ▸ lt_size_of_found hd
    rw [route_of_found hd] at h
    cases hback : r.walkBack v r.prev.size v [] with
    | error e' =>
      rw [hback] at h
      exact ⟨_, (Except.error.inj h).symm.trans (walkBack_error hprev hv hback)⟩
    | ok walk =>
      rw [hback, Except.bind] at h
      split at h
      · cases h
      · exact ⟨_, (Except.error.inj h).symm⟩

/-- Where every parent is a number that there is, routes are the well-formed chains of parents.  The
route to a number is there exactly if the parents of the number first meet the source after as many
steps as its distance says, with no number that is its own parent before that, and lists what the
parents lead to, the source first.  In every other case some invariant is violated.  The walk that
decides it hops on until it cannot, and has no more numbers than there are and one more. -/
theorem route_accepts_parent_chains {r : SearchResult} {destination : Nat}
    (hsize : r.dist.size = r.prev.size) (hprev : ∀ parent ∈ r.prev, parent < r.prev.size) :
    (∀ path, r.route destination = .ok path ↔
      destination < r.prev.size ∧ ∃ d, r.distance? destination = some d ∧
        r.Meets destination d ∧ path = r.ancestry destination d) ∧
    ((∀ path, r.route destination ≠ .ok path) →
      ∃ violation, r.route destination = .error (.invariant violation)) ∧
    (destination < r.prev.size →
      ∃ walk, Relation.ReflTransGen r.Hop [destination] walk ∧ (∀ next, ¬ r.Hop walk next) ∧
        r.walkBack destination r.prev.size destination [] = r.outcome destination walk) ∧
    ∀ walk, Relation.ReflTransGen r.Hop [destination] walk → walk.length ≤ r.prev.size + 1 := by
  refine ⟨fun path => route_ok_iff hsize hprev, ?_, ?_, fun walk => length_le_of_hops⟩
  · intro hnone
    cases hroute : r.route destination with
    | ok path => exact absurd hroute (hnone path)
    | error e =>
      obtain ⟨violation, rfl⟩ := route_error hsize hprev hroute
      exact ⟨violation, rfl⟩
  · exact exists_hops_of_walkBack destination hprev

/-- A result of four numbers whose parents lead from the last one to the source through all others. -/
def inLine : SearchResult where
  prev := #[2, 0, 2, 1]
  dist := #[some 1, some 2, some 0, some 3]
  destinations := [3]
  source := 2

/-- The route through all numbers that there are is not too long. -/
theorem route_accepts_parent_chains_in_line :
    (∀ parent ∈ inLine.prev, parent < inLine.prev.size) ∧ inLine.route 3 = .ok [2, 0, 1, 3] := by
  have hprev : ∀ parent ∈ inLine.prev, parent < inLine.prev.size := by decide
  have hmeets : inLine.Meets 3 3 := ⟨rfl, by decide, by decide⟩
  refine ⟨hprev, ((route_accepts_parent_chains rfl hprev).1 [2, 0, 1, 3]).mpr ?_⟩
  exact ⟨by decide, 3, rfl, hmeets, rfl⟩

end CallAudit.SearchResult

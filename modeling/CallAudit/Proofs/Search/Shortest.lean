import CallAudit.Proofs.Search.Level
import CallAudit.Proofs.Search.Route

/-!
# Shortest permitted walks

A search for every destination finds exactly the nodes that permitted walks lead to, at the length of
the shortest of them, and lists exactly the destinations among them that are neither barred nor, where
the search stops at sources, sources themselves (`search_finds_shortest`).
-/

namespace CallAudit

namespace Constraints

variable {c : Constraints} {neighbours : Array (List Nat)} {source v d : Nat}

theorem blocks_eq_false_iff : c.blocks v = false ↔
    c.isBarred v = false ∧ (c.stopsAtSources = true → c.isSource v = false) := by
  unfold blocks
  cases c.stopsAtSources <;> cases c.isSource v <;> cases c.isBarred v <;> simp

/-- The least number of steps of a walk is that of a permitted walk written as a list. -/
theorem isLeast_walkLengths (hwalk : c.WalkTo neighbours source d v)
    (hmin : ∀ {steps}, c.WalkTo neighbours source steps v → d ≤ steps) :
    IsLeast (c.walkLengths neighbours source v) d := by
  -- a permitted walk can be walked, hence is no shorter
  have hlower : ∀ {walk}, c.Permits neighbours source v walk → d ≤ walk.length - 1 := fun h =>
    hmin h.walkTo
  constructor
  · obtain ⟨walk, hpermits, hlen⟩ := hwalk.exists_walk
    have hpos : 0 < walk.length := List.length_pos_of_ne_nil hpermits.ne_nil
    have := hlower hpermits
    exact ⟨walk, hpermits, by omega⟩
  · rintro steps ⟨walk, hpermits, hlen⟩
    have := hlower hpermits
    omega

end Constraints

namespace Search

variable {c : Constraints} {neighbours : Array (List Nat)} {source v d : Nat} {s : State}

/-- What was found can be walked to in as many steps as the distance says. -/
theorem Traced.walkTo (h : Traced c neighbours source s) (hd : s.distance? v = some d) :
    c.WalkTo neighbours source d v := by
  obtain ⟨path, hpath⟩ := h.exists_wayBack hd
  have hwalk := hpath.permits.walkTo
  rwa [hpath.length, Nat.add_sub_cancel] at hwalk

/-- At the end of a search, distances are the lengths of shortest permitted walks. -/
theorem final_distance?_eq_some_iff (hs : source < neighbours.size) (hall : c.findsAll = true)
    (hrange : InRange neighbours) : (final neighbours c source).distance? v = some d ↔
      IsLeast (c.walkLengths neighbours source v) d := by
  have ht : Traced c neighbours source (final neighbours c source) := traced_final hs
  obtain ⟨low, hlevelled, hqueue⟩ := levelled_final hs hall hrange
  have hfound : ∀ {k}, (final neighbours c source).distance? v = some k →
      IsLeast (c.walkLengths neighbours source v) k := by
    intro k hk
    refine Constraints.isLeast_walkLengths (ht.walkTo hk) ?_
    intro steps hwalk
    obtain ⟨e, hle, he⟩ := hlevelled.distance?_le ht hqueue hwalk
    obtain rfl : k = e := Option.some.inj (hk.symm.trans he)
    exact hle
  constructor
  · exact hfound
  · intro hleast
    obtain ⟨walk, hpermits, -⟩ := hleast.1
    obtain ⟨e, -, he⟩ := hlevelled.distance?_le ht hqueue hpermits.walkTo
    rw [he, (hfound he).unique hleast]

/-- At the end of a search, nothing is unfound but what no permitted walk leads to. -/
theorem final_distance?_eq_none_iff (hs : source < neighbours.size) (hall : c.findsAll = true)
    (hrange : InRange neighbours) : (final neighbours c source).distance? v = none ↔
      c.walkLengths neighbours source v = ∅ := by
  obtain ⟨low, hlevelled, hqueue⟩ := levelled_final (c := c) hs hall hrange
  constructor
  · intro hnone
    rw [Set.eq_empty_iff_forall_notMem]
    rintro steps ⟨walk, hpermits, -⟩
    obtain ⟨e, -, he⟩ := hlevelled.distance?_le (traced_final hs) hqueue hpermits.walkTo
    rw [he] at hnone
    exact absurd hnone (by simp)
  · intro hempty
    cases hd : (final neighbours c source).distance? v with
    | none => rfl
    | some d =>
      have hmem := ((final_distance?_eq_some_iff hs hall hrange).mp hd).1
      rw [hempty] at hmem
      exact absurd hmem (Set.notMem_empty d)

end Search

/-- What a search lists was found and is a destination.  It is the source, or the source is none and it
is not blocked. -/
theorem destination_of_search {c : Constraints} {neighbours : Array (List Nat)} {source v : Nat}
    (hrange : Search.InRange neighbours) (hs : source < neighbours.size) (hall : c.findsAll = true)
    (hv : v ∈ (search neighbours c source).destinations) :
    (∃ d, (search neighbours c source).distance? v = some d) ∧ c.isDestination v = true ∧
      (v = source ∨ c.isDestination source = false ∧ c.blocks v = false) := by
  cases hdestination : c.isDestination source with
  | true =>
    rw [Search.search_eq_start hdestination] at hv ⊢
    obtain rfl : v = source := List.mem_singleton.mp hv
    have hstart : (Search.start neighbours.size v).distance? v = some 0 := by
      rw [Search.start_distance? hs, if_pos rfl]
    exact ⟨⟨0, hstart⟩, hdestination, Or.inl rfl⟩
  | false =>
    rw [Search.search_eq_final hdestination] at hv ⊢
    obtain ⟨low, hlevelled, -⟩ := Search.levelled_final (c := c) hs hall hrange
    obtain ⟨-, hfound, hdest, hblocks⟩ := (hlevelled.mem_destinations v).mp hv
    exact ⟨hfound, hdest, Or.inr ⟨rfl, hblocks⟩⟩

/-- The written form of a distance says whether there is one. -/
theorem markOfDistance_eq_unreachedMark_iff {distance : Option Nat}
    (h : ∀ d, distance = some d → d < unreachedMark) :
    markOfDistance distance = unreachedMark ↔ distance = none := by
  cases distance with
  | none => exact ⟨fun _ => rfl, fun _ => rfl⟩
  | some d =>
    have hlt : d < unreachedMark := h d rfl
    refine ⟨fun hd => ?_, fun hd => absurd hd (by simp)⟩
    have : d = unreachedMark := hd
    omega

/-- A search for every destination computes the lengths of the shortest permitted walks.  Where there
is none, the node counts as unreached, and is written so; the length of a walk is never mistaken for
that mark, because there are fewer nodes.  The destinations come in the order of their distance, each
once.  A source that is a destination is all there is to find. -/
theorem search_finds_shortest {c : Constraints} {neighbours : Array (List Nat)} {source : Nat}
    (hsize : neighbours.size < unreachedMark) (hrange : Search.InRange neighbours)
    (hs : source < neighbours.size) (hall : c.findsAll = true) :
    (c.isDestination source = false →
      (∀ v d, (search neighbours c source).distance? v = some d ↔
        IsLeast (c.walkLengths neighbours source v) d) ∧
      (∀ v, markOfDistance ((search neighbours c source).distance? v) = unreachedMark ↔
        c.walkLengths neighbours source v = ∅) ∧
      (search neighbours c source).destinations.Nodup ∧
      ((search neighbours c source).destinations.Pairwise fun a b => ∀ d e,
        (search neighbours c source).distance? a = some d →
        (search neighbours c source).distance? b = some e → d ≤ e) ∧
      ∀ v, v ∈ (search neighbours c source).destinations ↔
        v ≠ source ∧ (∃ d, (search neighbours c source).distance? v = some d) ∧
          c.isDestination v = true ∧ c.isBarred v = false ∧
          (c.stopsAtSources = true → c.isSource v = false)) ∧
    (c.isDestination source = true →
      (search neighbours c source).destinations = [source] ∧
      (search neighbours c source).distance? source = some 0 ∧
      ∀ v, v ≠ source → markOfDistance ((search neighbours c source).distance? v) = unreachedMark) := by
  constructor
  · intro hdestination
    have hend : search neighbours c source = (Search.final neighbours c source).result source :=
      Search.search_eq_final hdestination
    have ht : Search.Traced c neighbours source (Search.final neighbours c source) :=
      Search.traced_final hs
    obtain ⟨low, hlevelled, -⟩ := Search.levelled_final (c := c) hs hall hrange
    rw [hend]
    refine ⟨?_, ?_, hlevelled.nodup_destinations, ?_, ?_⟩
    · exact fun v d => Search.final_distance?_eq_some_iff hs hall hrange
    · intro v
      rw [markOfDistance_eq_unreachedMark_iff]
      · exact Search.final_distance?_eq_none_iff hs hall hrange
      · -- the mark is larger than any distance in so few nodes
        exact fun d hd => (ht.distance_lt_size hd).trans hsize
    · refine hlevelled.destinations_ordered.imp ?_
      intro a b hab d e hd he
      rwa [Search.depth_of_distance? hd, Search.depth_of_distance? he] at hab
    · intro v
      rw [← Constraints.blocks_eq_false_iff]
      exact hlevelled.mem_destinations v
  · intro hdestination
    have hend : search neighbours c source = Search.State.result
        { Search.start neighbours.size source with destinations := [source] } source :=
      Search.search_eq_start hdestination
    have hstart : ∀ v, (search neighbours c source).distance? v =
        if v = source then some 0 else none := by
      intro v
      rw [hend]
      exact Search.start_distance? hs
    refine ⟨by rw [hend]; rfl, by rw [hstart, if_pos rfl], ?_⟩
    intro v hv
    rw [hstart, if_neg hv]
    rfl

/-- The short way from 0 to 3 is barred at 1, so that the shortest permitted walk takes the detour. -/
theorem search_finds_shortest_detour :
    (5 < unreachedMark ∧ Search.InRange #[[1, 2], [3], [4, 0], [1], [3]]) ∧
      IsLeast (({ isSource := (· == 0), isDestination := (· == 3), isBarred := (· == 1) } :
        Constraints).walkLengths #[[1, 2], [3], [4, 0], [1], [3]] 0 3) 3 := by
  have hrange : Search.InRange #[[1, 2], [3], [4, 0], [1], [3]] := by
    unfold Search.InRange
    decide
  have h := search_finds_shortest
    (c := { isSource := (· == 0), isDestination := (· == 3), isBarred := (· == 1) })
    (by decide) hrange (by decide : 0 < 5) rfl
  exact ⟨⟨by decide, hrange⟩, ((h.1 rfl).1 3 3).mp (by decide)⟩

end CallAudit

import CallAudit.Keyed
import CallAudit.Proofs.Distinct
import Mathlib.Algebra.BigOperators.Group.Finset.Basic
import Mathlib.Algebra.GroupWithZero.Nat
import Mathlib.Data.List.Induction

/-!
# What is collected under keys

Going through a list and changing a value for every element leaves, under each key, what the elements
of that key make of the initial value, in their order (`collect_eq`).  So lists that agree up to order
collect the same under every key, as far as the changes do not depend on the order (`lookup_collect`).
-/

namespace CallAudit.Keyed

open scoped List

variable {α β γ : Type} [DecidableEq α]

/-- Changes the value under the key of every element. An element without a key changes nothing. -/
def collect (key : γ → Option α) (initial : β) (f : γ → β → β) (xs : List γ)
    (entries : List (α × β)) : List (α × β) :=
  xs.foldl (fun entries x =>
    match key x with
    | some k => change k initial (f x) entries
    | none => entries) entries

/-- What the elements of a key make of the initial value. -/
def collected (key : γ → Option α) (initial : β) (f : γ → β → β) (xs : List γ) (k : α) : β :=
  (xs.filter (key · = some k)).foldl (fun v x => f x v) initial

theorem change_of_map {ks : List α} {v : α → β} {k : α} {initial : β} {f : β → β} (hks : ks.Nodup) :
    change k initial f (ks.map fun a => (a, v a)) = (Distinct.insert ks k).map fun a =>
      (a, if a = k then f (if k ∈ ks then v k else initial) else v a) := by
  induction ks with
  | nil => simp [change, Distinct.insert]
  | cons a ks ih =>
    obtain ⟨ha, hks⟩ := List.nodup_cons.mp hks
    rw [List.map_cons, change]
    by_cases hak : a = k
    · -- the value is changed here, and the key does not come again
      subst hak
      rw [if_pos rfl, Distinct.insert_of_mem List.mem_cons_self, List.map_cons, if_pos rfl,
        if_pos List.mem_cons_self, List.cons_inj_right]
      apply List.map_congr_left
      intro b hb
      have hba : b ≠ a := fun hba => ha (hba ▸ hb)
      rw [if_neg hba]
    · have hmem : k ∈ a :: ks ↔ k ∈ ks := by
        rw [List.mem_cons]
        exact ⟨fun h => h.resolve_left (Ne.symm hak), Or.inr⟩
      have hinsert : Distinct.insert (a :: ks) k = a :: Distinct.insert ks k := by
        unfold Distinct.insert
        simp only [hmem]
        split <;> rfl
      rw [if_neg hak, ih hks, hinsert, List.map_cons, if_neg hak]
      simp only [hmem]

theorem change_of_not_mem {k : α} {initial : β} {f : β → β} {entries : List (α × β)}
    (h : k ∉ keys entries) : change k initial f entries = entries ++ [(k, f initial)] := by
  induction entries with
  | nil => rfl
  | cons entry entries ih =>
    obtain ⟨hne, hrest⟩ := not_or.mp (mt List.mem_cons.mpr h)
    rw [change, if_neg (Ne.symm hne), ih hrest, List.cons_append]

theorem change_of_mem {k : α} (initial : β) (f : β → β) {entries : List (α × β)}
    (h : k ∈ keys entries) : ∃ before v after, entries = before ++ (k, v) :: after ∧
      change k initial f entries = before ++ (k, f v) :: after := by
  induction entries with
  | nil => exact absurd h (by simp [keys])
  | cons entry entries ih =>
    obtain ⟨k', v⟩ := entry
    by_cases hk : k' = k
    · subst hk
      exact ⟨[], v, entries, rfl, by rw [change, if_pos rfl]; rfl⟩
    · have hrest : k ∈ keys entries := (List.mem_cons.mp h).resolve_left (Ne.symm hk)
      obtain ⟨before, w, after, hentries, hchange⟩ := ih hrest
      refine ⟨(k', v) :: before, w, after, by rw [hentries]; rfl, ?_⟩
      rw [change, if_neg hk, hchange]
      rfl

theorem lookup_change_self (k : α) (initial : β) (f : β → β) (entries : List (α × β)) :
    (change k initial f entries).lookup k = some (f ((entries.lookup k).getD initial)) := by
  induction entries with
  | nil => simp [change]
  | cons entry entries ih =>
    obtain ⟨k', v⟩ := entry
    rw [change]
    by_cases hk : k' = k
    · simp [hk]
    · have hbeq : (k == k') = false := beq_eq_false_iff_ne.mpr (Ne.symm hk)
      rw [if_neg hk, List.lookup_cons, List.lookup_cons, hbeq]
      exact ih

section

variable {key : γ → Option α} {initial : β} {f : γ → β → β} {xs ys : List γ} {k : α}

theorem collected_of_not_mem (h : k ∉ xs.filterMap key) :
    collected key initial f xs k = initial := by
  have hnone : xs.filter (key · = some k) = [] := by
    rw [List.filter_eq_nil_iff]
    intro x hx hkey
    exact h (List.mem_filterMap.mpr ⟨x, hx, of_decide_eq_true hkey⟩)
  rw [collected, hnone, List.foldl_nil]

/-- The keys stand in the order in which they first came up, each with what its elements made. -/
theorem collect_eq : collect key initial f xs [] =
    (Distinct.ofList (xs.filterMap key)).map fun k => (k, collected key initial f xs k) := by
  induction xs using List.reverseRecOn with
  | nil => rfl
  | append_singleton xs x ih =>
    have hstep : collect key initial f (xs ++ [x]) [] =
        match key x with
        | some k => change k initial (f x) (collect key initial f xs [])
        | none => collect key initial f xs [] := by
      rw [collect, List.foldl_append]
      rfl
    have hcollected : ∀ k, collected key initial f (xs ++ [x]) k =
        if key x = some k then f x (collected key initial f xs k)
        else collected key initial f xs k := by
      intro k
      unfold collected
      rw [List.filter_append, List.foldl_append]
      by_cases hx : key x = some k <;> simp [hx]
    rw [hstep, List.filterMap_append]
    cases hx : key x with
    | none =>
      have hnone : [x].filterMap key = [] := by rw [List.filterMap_cons_none hx, List.filterMap_nil]
      simp only [hcollected, hx, hnone, List.append_nil, ih]
      rfl
    | some k =>
      have hone : [x].filterMap key = [k] := by rw [List.filterMap_cons_some hx, List.filterMap_nil]
      have hinsert : Distinct.ofList (xs.filterMap key ++ [k]) =
          Distinct.insert (Distinct.ofList (xs.filterMap key)) k := by
        rw [Distinct.ofList, Distinct.insertAll_append]
        rfl
      simp only [hcollected, hx, hone, hinsert, ih]
      rw [change_of_map (Distinct.nodup_ofList _)]
      apply List.map_congr_left
      intro a _
      by_cases hak : a = k
      · subst hak
        rw [if_pos rfl, if_pos rfl]
        -- before its first element a key has collected nothing
        split
        · rfl
        · next hnew => rw [collected_of_not_mem (mt Distinct.mem_ofList.mpr hnew)]
      · rw [if_neg hak, if_neg (fun h => hak (Option.some.inj h).symm)]

theorem keys_collect :
    keys (collect key initial f xs []) = Distinct.ofList (xs.filterMap key) := by
  rw [collect_eq, keys, List.map_map]
  exact List.map_id _

theorem nodup_keys_collect : (keys (collect key initial f xs [])).Nodup := by
  rw [keys_collect]
  exact Distinct.nodup_ofList _

theorem mem_collect {v : β} : (k, v) ∈ collect key initial f xs [] ↔
    k ∈ xs.filterMap key ∧ v = collected key initial f xs k := by
  rw [collect_eq, List.mem_map]
  constructor
  · rintro ⟨a, ha, heq⟩
    obtain ⟨rfl, rfl⟩ := Prod.mk.inj heq
    exact ⟨Distinct.mem_ofList.mp ha, rfl⟩
  · rintro ⟨hk, rfl⟩
    exact ⟨k, Distinct.mem_ofList.mpr hk, rfl⟩

theorem lookup_map_pair {ks : List α} {v : α → β} :
    (ks.map fun a => (a, v a)).lookup k = if k ∈ ks then some (v k) else none := by
  induction ks with
  | nil => rfl
  | cons a ks ih =>
    rw [List.map_cons, List.lookup_cons, ih]
    by_cases hka : k = a
    · subst hka
      simp
    · have hbeq : (k == a) = false := by simp [hka]
      have hmem : k ∈ a :: ks ↔ k ∈ ks := by
        rw [List.mem_cons]
        exact ⟨fun h => h.resolve_left hka, Or.inr⟩
      simp only [hbeq, hmem]

/-- Under a key stands what its elements made of the initial value, if there are any. -/
theorem lookup_collect : (collect key initial f xs []).lookup k =
    if k ∈ xs.filterMap key then some (collected key initial f xs k) else none := by
  rw [collect_eq, lookup_map_pair]
  simp only [Distinct.mem_ofList]

/-- What is read under a key, whether or not it has any elements. -/
theorem getD_lookup_collect : ((collect key initial f xs []).lookup k).getD initial =
    collected key initial f xs k := by
  rw [lookup_collect]
  split
  · rfl
  · next hnew => exact (collected_of_not_mem hnew).symm

/-! ## Lists that agree up to order -/

/-- If the values do not depend on the order, nor does what is collected, up to its own order. -/
theorem collect_perm (h : xs ~ ys)
    (hvalue : ∀ k, collected key initial f xs k = collected key initial f ys k) :
    collect key initial f xs [] ~ collect key initial f ys [] := by
  rw [collect_eq, collect_eq]
  simp only [hvalue]
  exact (Distinct.ofList_perm fun k => (h.filterMap key).mem_iff).map _

/-- Values that are related under each key, and keys that are the same. -/
theorem lookup_collect_rel {R : β → β → Prop} (h : xs ~ ys)
    (hvalue : ∀ k, R (collected key initial f xs k) (collected key initial f ys k)) (k : α) :
    Option.Rel R ((collect key initial f xs []).lookup k)
      ((collect key initial f ys []).lookup k) := by
  have hmem : k ∈ xs.filterMap key ↔ k ∈ ys.filterMap key := (h.filterMap key).mem_iff
  rw [lookup_collect, lookup_collect]
  by_cases hk : k ∈ xs.filterMap key
  · rw [if_pos hk, if_pos (hmem.mp hk)]
    exact .some (hvalue k)
  · rw [if_neg hk, if_neg (mt hmem.mpr hk)]
    exact .none

/-- What is counted under a key is how many elements have it. -/
theorem collected_count :
    collected key 0 (fun _ n => n + 1) xs k = (xs.filter (key · = some k)).length := by
  have hfold : ∀ (xs : List γ) (n : Nat), xs.foldl (fun n _ => n + 1) n = n + xs.length := by
    intro xs
    induction xs with
    | nil => exact fun n => rfl
    | cons x xs ih =>
      intro n
      rw [List.foldl_cons, ih, List.length_cons]
      omega
  rw [collected, hfold, Nat.zero_add]

theorem collected_count_perm (h : xs ~ ys) :
    collected key 0 (fun _ n => n + 1) xs k = collected key 0 (fun _ n => n + 1) ys k := by
  rw [collected_count, collected_count]
  exact (h.filter _).length_eq

/-- A key stands as often among the keys as there are elements that have it. -/
theorem length_filter_key : (xs.filter (key · = some k)).length = (xs.filterMap key).count k := by
  induction xs with
  | nil => rfl
  | cons x xs ih =>
    cases hx : key x with
    | none => simp [hx, ih]
    | some k' =>
      rw [List.filterMap_cons_some hx, List.count_cons]
      by_cases hk : k' = k <;> simp [hx, hk, ih]

/-- Where a key first comes up among the keys tells where its first element stands. -/
theorem findIdx_lt_of_idxOf_lt {k k' : α} (h : (xs.filterMap key).idxOf k < (xs.filterMap key).idxOf k') :
    xs.findIdx (key · = some k) < xs.findIdx (key · = some k') := by
  induction xs with
  | nil => exact absurd h (by simp)
  | cons x xs ih =>
    rw [List.findIdx_cons, List.findIdx_cons]
    cases hx : key x with
    | none =>
      rw [List.filterMap_cons_none hx] at h
      simpa using ih h
    | some a =>
      rw [List.filterMap_cons_some hx, List.idxOf_cons, List.idxOf_cons] at h
      by_cases hk' : a = k'
      · simp [hk'] at h
      · by_cases hk : a = k
        · simp [hk, hk ▸ hk']
        · rw [beq_eq_false_iff_ne.mpr hk, beq_eq_false_iff_ne.mpr hk'] at h
          simpa [hk, hk'] using ih (Nat.lt_of_succ_lt_succ h)

/-- The keys stand in the order of their first elements. -/
theorem pairwise_findIdx_keys_collect : (keys (collect key initial f xs [])).Pairwise fun k k' =>
    xs.findIdx (key · = some k) < xs.findIdx (key · = some k') := by
  rw [keys_collect]
  exact (Distinct.pairwise_idxOf_ofList _).imp findIdx_lt_of_idxOf_lt

/-- Keys of which none comes twice and none is missing divide a list among them. -/
theorem sum_map_count {ks names : List α} (hks : ks.Nodup) (h : ∀ name ∈ names, name ∈ ks) :
    (ks.map names.count).sum = names.length := by
  rw [← List.sum_toFinset _ hks]
  simpa using Multiset.sum_count_eq_card (s := ks.toFinset) (m := names) (by simpa using h)

/-- The elements that have a key are divided among the keys. -/
theorem sum_length_filter :
    ((Distinct.ofList (xs.filterMap key)).map fun k => (xs.filter (key · = some k)).length).sum =
      (xs.filterMap key).length := by
  simp only [length_filter_key]
  exact sum_map_count (Distinct.nodup_ofList _) fun _ => Distinct.mem_ofList.mpr

/-! ## Lists under keys -/

variable {g : γ → β} {vs : List β}

/-- Under a key to whose list every element is added stand its elements, in their order. -/
theorem collected_append : collected key [] (fun x vs => vs ++ [g x]) xs k =
    (xs.filter (key · = some k)).map g := by
  have hfold : ∀ (xs : List γ) (vs : List β),
      xs.foldl (fun vs x => vs ++ [g x]) vs = vs ++ xs.map g := by
    intro xs
    induction xs with
    | nil => exact fun vs => (List.append_nil vs).symm
    | cons x xs ih =>
      intro vs
      rw [List.foldl_cons, ih, List.append_assoc]
      rfl
  rw [collected, hfold, List.nil_append]

theorem mem_collect_append : (k, vs) ∈ collect key [] (fun x vs => vs ++ [g x]) xs [] ↔
    vs ≠ [] ∧ vs = (xs.filter (key · = some k)).map g := by
  rw [mem_collect, collected_append]
  refine and_congr_left ?_
  rintro rfl
  rw [ne_eq, List.map_eq_nil_iff, List.filter_eq_nil_iff, List.mem_filterMap]
  simp

/-- Every element that has a key is in one of the lists. -/
theorem sum_length_collect_append :
    ((collect key [] (fun x vs => vs ++ [g x]) xs []).map (·.2.length)).sum =
      (xs.filterMap key).length := by
  rw [collect_eq, List.map_map, ← sum_length_filter]
  apply congrArg List.sum
  apply List.map_congr_left
  intro k _
  show (collected key [] (fun x vs => vs ++ [g x]) xs k).length = _
  rw [collected_append, List.length_map]

end

theorem lookup_eq_some_iff {entries : List (α × β)} (h : (keys entries).Nodup) {k : α} {v : β} :
    entries.lookup k = some v ↔ (k, v) ∈ entries := by
  induction entries with
  | nil => simp
  | cons entry entries ih =>
    obtain ⟨k', v'⟩ := entry
    obtain ⟨hnew, hrest⟩ := List.nodup_cons.mp h
    rw [List.lookup_cons]
    by_cases hk : k = k'
    · subst hk
      have hnone : ∀ v, (k, v) ∉ entries := fun v hv =>
        hnew (List.mem_map.mpr ⟨(k, v), hv, rfl⟩)
      simp [hnone, eq_comm]
    · have hbeq : (k == k') = false := by simp [hk]
      simp [hbeq, hk, ih hrest]

theorem lookup_perm {entries entries' : List (α × β)} (h : entries ~ entries')
    (hkeys : (keys entries).Nodup) (k : α) : entries.lookup k = entries'.lookup k := by
  have hkeys' : (keys entries').Nodup := (h.map Prod.fst).nodup_iff.mp hkeys
  apply Option.ext
  intro v
  rw [lookup_eq_some_iff hkeys, lookup_eq_some_iff hkeys', h.mem_iff]

end CallAudit.Keyed

import CallAudit.Distinct

/-!
# Values under keys

A list of keys with their values, in the order in which the keys first arrived. `Keyed.change` is the
one way to add to it: afterwards the keys are the old ones and the new one (`keys_change`).
-/

namespace CallAudit.Keyed

variable {α β : Type} [DecidableEq α]

/-- The keys, in order. -/
def keys (entries : List (α × β)) : List α :=
  entries.map Prod.fst

/-- Changes the value under a key. A key that is new is put at the end with the value `initial`, and
that is changed. -/
def change (key : α) (initial : β) (f : β → β) : List (α × β) → List (α × β)
  | [] => [(key, f initial)]
  | (k, v) :: rest => if k = key then (k, f v) :: rest else (k, v) :: change key initial f rest

/-- Counts one more occurrence of a key. -/
def tally (key : α) (counts : List (α × Nat)) : List (α × Nat) :=
  change key 0 (· + 1) counts

theorem keys_change (key : α) (initial : β) (f : β → β) (entries : List (α × β)) :
    keys (change key initial f entries) = Distinct.insert (keys entries) key := by
  induction entries with
  | nil => rfl
  | cons entry rest ih =>
    obtain ⟨k, v⟩ := entry
    by_cases hk : k = key
    · have here : key ∈ keys ((k, v) :: rest) := by simp [keys, hk]
      rw [Distinct.insert_of_mem here]
      simp [change, keys, hk]
    · have step : keys (change key initial f ((k, v) :: rest)) =
          k :: keys (change key initial f rest) := by
        simp [change, keys, hk]
      have cons : keys ((k, v) :: rest) = k :: keys rest := rfl
      rw [step, ih, cons]
      by_cases hr : key ∈ keys rest
      · rw [Distinct.insert_of_mem hr, Distinct.insert_of_mem (List.mem_cons_of_mem k hr)]
      · have new : key ∉ k :: keys rest := by
          rw [List.mem_cons, not_or]
          exact ⟨Ne.symm hk, hr⟩
        rw [Distinct.insert_of_not_mem hr, Distinct.insert_of_not_mem new, List.cons_append]

theorem nodup_keys_change {key : α} {initial : β} {f : β → β} {entries : List (α × β)}
    (h : (keys entries).Nodup) : (keys (change key initial f entries)).Nodup := by
  rw [keys_change]
  exact Distinct.nodup_insert h

end CallAudit.Keyed

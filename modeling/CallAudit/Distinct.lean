/-!
# Distinct lists

A list without repetitions that remembers the order of first arrival. `Distinct.insert` appends an
element that is new and leaves the list alone otherwise; `Distinct.ofList` inserts one by one.
-/

namespace CallAudit.Distinct

variable {α : Type} [DecidableEq α]

/-- Appends `a` unless it is there already. -/
def insert (xs : List α) (a : α) : List α :=
  if a ∈ xs then xs else xs ++ [a]

/-- Inserts every element of `new`, in order. -/
def insertAll (xs new : List α) : List α :=
  new.foldl insert xs

/-- The elements of a list in the order of their first arrival. -/
def ofList (xs : List α) : List α :=
  insertAll [] xs

@[simp] theorem mem_insert {xs : List α} {a b : α} : b ∈ insert xs a ↔ b ∈ xs ∨ b = a := by
  unfold insert
  split
  · next h => exact ⟨Or.inl, fun hb => hb.elim id (· ▸ h)⟩
  · simp

theorem insert_of_mem {xs : List α} {a : α} (h : a ∈ xs) : insert xs a = xs := if_pos h

theorem insert_of_not_mem {xs : List α} {a : α} (h : a ∉ xs) : insert xs a = xs ++ [a] := if_neg h

theorem nodup_insert {xs : List α} {a : α} (h : xs.Nodup) : (insert xs a).Nodup := by
  unfold insert
  split
  · exact h
  · next ha =>
    rw [List.nodup_append]
    refine ⟨h, by simp, ?_⟩
    rintro b hb c hc rfl
    exact ha (List.mem_singleton.mp hc ▸ hb)

@[simp] theorem mem_insertAll {xs new : List α} {b : α} :
    b ∈ insertAll xs new ↔ b ∈ xs ∨ b ∈ new := by
  induction new generalizing xs with
  | nil => simp [insertAll]
  | cons a new ih =>
    have step : insertAll xs (a :: new) = insertAll (insert xs a) new := rfl
    rw [step, ih, mem_insert, List.mem_cons, or_assoc]

theorem nodup_insertAll {xs new : List α} (h : xs.Nodup) : (insertAll xs new).Nodup := by
  induction new generalizing xs with
  | nil => exact h
  | cons a new ih => exact ih (nodup_insert h)

@[simp] theorem mem_ofList {xs : List α} {b : α} : b ∈ ofList xs ↔ b ∈ xs := by
  simp [ofList]

theorem nodup_ofList (xs : List α) : (ofList xs).Nodup :=
  nodup_insertAll List.nodup_nil

end CallAudit.Distinct

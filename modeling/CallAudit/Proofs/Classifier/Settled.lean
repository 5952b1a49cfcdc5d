import CallAudit.Proofs.Classifier.Faithful

/-!
# What is settled by asking

Whether a pass over methods fails is settled by the classifier alone (`Classifier.Settles`): it fails
exactly if the classifier fails on some method that is asked about, and then with that failure.  Taking a
snapshot asks about every method of the graph (`Snapshot.settles_take`), and the constructor pass about
those that need construction (`Graph.settles_newConstructorEdges`).
-/

namespace CallAudit

variable {σ : Type} {α β : Type} {c : Classifier} {program : Program} {ask : Inquiry σ}
  {Good : σ → Prop} {memory : σ} {asked asked' : MethodId → Prop} {outcome : Except AuditError α}

/-- An outcome that is a failure exactly if the classifier fails on some method that it is asked about,
and then this failure. -/
structure Classifier.Settles (c : Classifier) (program : Program) (asked : MethodId → Prop)
    (outcome : Except AuditError α) : Prop where
  ok : ∀ a, outcome = .ok a → ∀ m, asked m → ∃ reason, c.reason? program m = .ok reason
  error : ∀ e, outcome = .error e → ∃ m, asked m ∧ c.reason? program m = .error e

namespace Classifier.Settles

theorem congr (h : c.Settles program asked outcome) (hasked : ∀ m, asked' m ↔ asked m) :
    c.Settles program asked' outcome where
  ok := fun a ha m hm => h.ok a ha m ((hasked m).mp hm)
  error := fun e he => by
    obtain ⟨m, hm, hreason⟩ := h.error e he
    exact ⟨m, (hasked m).mpr hm, hreason⟩

/-- A question that is answered makes no difference. -/
theorem cons (h : c.Settles program asked outcome) {m : MethodId} {reason : Option Reason}
    (hm : c.reason? program m = .ok reason) :
    c.Settles program (fun k => k = m ∨ asked k) outcome where
  ok := by
    rintro a ha k (rfl | hk)
    · exact ⟨reason, hm⟩
    · exact h.ok a ha k hk
  error := fun e he => by
    obtain ⟨k, hk, hreason⟩ := h.error e he
    exact ⟨k, Or.inr hk, hreason⟩

theorem of_error {m : MethodId} {e : AuditError} (hm : c.reason? program m = .error e)
    (hasked : asked m) : c.Settles program asked (.error e : Except AuditError α) where
  ok := fun _ ha => by cases ha
  error := fun _ he => by
    cases he
    exact ⟨m, hasked, hm⟩

/-- Outcomes that fail together are settled by the same questions. -/
theorem of_same {outcome' : Except AuditError β} (h : c.Settles program asked outcome)
    (hok : ∀ b, outcome' = .ok b → ∃ a, outcome = .ok a)
    (herror : ∀ e, outcome' = .error e → outcome = .error e) :
    c.Settles program asked outcome' where
  ok := fun b hb => by
    obtain ⟨a, ha⟩ := hok b hb
    exact h.ok a ha
  error := fun e he => h.error e (herror e he)

end Classifier.Settles

theorem Snapshot.settles_judge (hfaithful : ask.Faithful c program Good) {nodes : List Node}
    (hgood : Good memory) : c.Settles program (fun m => .method m ∈ nodes)
      (judge c program ask nodes memory).1 := by
  induction nodes generalizing memory with
  | nil => exact ⟨fun _ _ m hm => absurd hm (by simp), fun e he => by cases he⟩
  | cons n nodes ih =>
    cases n with
    | type t =>
      refine ((ih hgood).of_same ?_ ?_).congr fun m => by simp
      all_goals
        rw [judge]
        generalize judge c program ask nodes memory = rest
        obtain ⟨result, memory'⟩ := rest
        cases result <;> simp
    | method m =>
      obtain ⟨memory₁, hask, hkeeps⟩ := hfaithful.ask_eq m hgood
      rw [judge, hask]
      cases hreason : c.reason? program m with
      | error e => exact .of_error hreason List.mem_cons_self
      | ok reason =>
        refine (((ih hkeeps).cons hreason).of_same ?_ ?_).congr fun k => by simp
        all_goals
          dsimp only
          generalize judge c program ask nodes memory₁ = rest
          obtain ⟨result, memory'⟩ := rest
          cases result <;> simp

theorem Snapshot.settles_take (hfaithful : ask.Faithful c program Good) {g : Graph}
    (hgood : Good memory) :
    c.Settles program (fun m => .method m ∈ g.nodes) (take c program ask g memory).1 := by
  refine (settles_judge hfaithful hgood).of_same ?_ ?_
  all_goals
    rw [take]
    generalize judge c program ask g.nodes memory = judged
    obtain ⟨result, memory'⟩ := judged
    cases result <;> simp

/-- A snapshot can be taken of a graph about whose methods the classifier can decide, and says what the
classifier says. -/
theorem Snapshot.take_decided (hfaithful : ask.Faithful c program Good) {g : Graph}
    (hgood : Good memory)
    (hdecided : ∀ m, .method m ∈ g.nodes → ∃ reason, c.reason? program m = .ok reason) :
    (take c program ask g memory).1 = .ok (judged c program g) := by
  cases hresult : (take c program ask g memory).1 with
  | error e =>
    obtain ⟨m, hm, hfails⟩ := (settles_take hfaithful hgood).error e hresult
    obtain ⟨reason, hreason⟩ := hdecided m hm
    rw [hreason] at hfails
    cases hfails
  | ok s =>
    obtain ⟨rfl, -, -⟩ := take_ok hfaithful hgood (Prod.ext hresult rfl)
    rfl

theorem Graph.settles_newConstructorEdges (hfaithful : ask.Faithful c program Good) {g : Graph}
    {targets : List MethodId} (hgood : Good memory) :
    c.Settles program (fun m => m ∈ targets ∧ needsConstruction program g m = true)
      (newConstructorEdges program g ask targets memory).1 := by
  induction targets generalizing memory with
  | nil => exact ⟨fun _ _ m hm => absurd hm.1 (by simp), fun e he => by cases he⟩
  | cons m targets ih =>
    rw [newConstructorEdges]
    cases hneeds : needsConstruction program g m with
    | false =>
      -- nothing is asked about a method that needs no construction
      rw [if_neg Bool.false_ne_true]
      refine (ih hgood).congr fun k => and_congr_left fun hk => ?_
      rw [List.mem_cons, or_iff_right]
      rintro rfl
      rw [hneeds] at hk
      exact absurd hk Bool.false_ne_true
    | true =>
      obtain ⟨memory₁, hask, hkeeps⟩ := hfaithful.ask_eq m hgood
      have hasked : ∀ k, k ∈ m :: targets ∧ needsConstruction program g k = true ↔
          k = m ∨ k ∈ targets ∧ needsConstruction program g k = true := by
        intro k
        rw [List.mem_cons, or_and_right, and_iff_left_of_imp]
        rintro rfl
        exact hneeds
      rw [if_pos rfl, hask]
      cases hreason : c.reason? program m with
      | error e => exact .of_error hreason ⟨List.mem_cons_self, hneeds⟩
      | ok reason =>
        cases reason with
        | none => exact ((ih hkeeps).cons hreason).congr hasked
        | some reason =>
          refine (((ih hkeeps).cons hreason).of_same ?_ ?_).congr hasked
          all_goals
            dsimp only
            generalize newConstructorEdges program g ask targets memory₁ = rest
            obtain ⟨result, memory'⟩ := rest
            cases result <;> simp

end CallAudit

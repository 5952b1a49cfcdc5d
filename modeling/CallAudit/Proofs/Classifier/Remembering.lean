import CallAudit.Proofs.Dependency.Construction
import Mathlib.Data.List.Nodup

/-!
# Remembered answers

A memory in front of the classifier changes no answer.  Which questions still get through to the
classifier is found out by noting them (`Inquiry.watched`): after any questions, each method was asked
about once, and a method about which the classifier fails as often as there was a question about it
(`Inquiry.After.ask`).  Two ways of asking that give the same answers make the passes come out the same
(`Inquiry.Simulates`), so the graph is prepared as by a classifier that is asked every time, without two
questions about one method (`remembering_only_saves_questions`).
-/

namespace CallAudit

variable {σ τ α : Type} {c : Classifier} {program : Program}

/-! ## Questions that get through -/

namespace Inquiry

/-- Asks in a given way, but only about methods whose answer is not remembered. -/
def remembered (ask : Inquiry σ) : Inquiry (σ × Memory) := fun m state =>
  match state.2.lookup m with
  | some answer => (.ok answer, state)
  | none =>
      match ask m state.1 with
      | (.ok answer, memory) => (.ok answer, memory, (m, answer) :: state.2)
      | (.error e, memory) => (.error e, memory, state.2)

/-- What the classifier was asked about, and what is remembered. -/
abbrev Watch := (Unit × List MethodId) × Memory

/-- The methods that the classifier was asked about, in order. -/
def Watch.questions (state : Watch) : List MethodId := state.1.2

/-- Nothing was asked yet. -/
def Watch.start : Watch := (((), []), [])

/-- Remembers answers, and notes the questions to the classifier. -/
def watched (c : Classifier) (program : Program) : Inquiry Watch :=
  (direct c program).noting.remembered

theorem watched_of_remembered {m : MethodId} {state : Watch} {answer : Option Reason}
    (h : state.2.lookup m = some answer) : watched c program m state = (.ok answer, state) := by
  rw [watched, remembered, h]

theorem watched_of_not_remembered {m : MethodId} {state : Watch} (h : state.2.lookup m = none) :
    watched c program m state = (c.reason? program m, ((), state.questions ++ [m]),
      (c.reason? program m).toOption.elim state.2 fun answer => (m, answer) :: state.2) := by
  rw [watched, remembered, h]
  cases hreason : c.reason? program m <;>
    simp [noting, direct, hreason, Except.toOption, Watch.questions]

/-- Noting the questions changes neither the answers nor the memory. -/
theorem watched_eq_remembering (m : MethodId) (state : Watch) :
    ((watched c program m state).1, (watched c program m state).2.2) =
      remembering c program m state.2 := by
  unfold watched remembered remembering
  cases state.2.lookup m with
  | some answer => rfl
  | none => cases hreason : c.reason? program m <;> simp [noting, direct, hreason]

/-- Asks about methods one after the other, whatever the answers are. -/
def askAll (ask : Inquiry σ) : List MethodId → σ → List Answer × σ
  | [], memory => ([], memory)
  | m :: ms, memory =>
      let (answer, memory) := ask m memory
      let (answers, memory) := askAll ask ms memory
      (answer :: answers, memory)

/-- How often the classifier is asked about a method by questions about `asked`: once for all, unless it
fails. -/
def timesAsked (c : Classifier) (program : Program) (asked : List MethodId) (m : MethodId) : Nat :=
  match c.reason? program m with
  | .ok _ => if m ∈ asked then 1 else 0
  | .error _ => asked.count m

theorem mem_asked_again {asked : List MethodId} {m : MethodId} (hm : m ∈ asked) (k : MethodId) :
    k ∈ asked ++ [m] ↔ k ∈ asked := by
  rw [List.mem_append, List.mem_singleton, or_iff_left_of_imp]
  rintro rfl
  exact hm

/-- A question that is answered from memory is not counted. -/
theorem timesAsked_again {asked : List MethodId} {m : MethodId} {answer : Option Reason}
    (hanswer : c.reason? program m = .ok answer) (hm : m ∈ asked) (k : MethodId) :
    timesAsked c program (asked ++ [m]) k = timesAsked c program asked k := by
  unfold timesAsked
  cases hk : c.reason? program k with
  | ok _ => exact if_congr (mem_asked_again hm k) rfl rfl
  | error e =>
    have hnot : k ∉ [m] := by
      rw [List.mem_singleton]
      rintro rfl
      rw [hanswer] at hk
      cases hk
    dsimp only
    rw [List.count_append, List.count_eq_zero_of_not_mem hnot, Nat.add_zero]

/-- A question that gets through is counted. -/
theorem timesAsked_new {asked : List MethodId} {m : MethodId}
    (hnew : ∀ answer, c.reason? program m = .ok answer → m ∉ asked) (k : MethodId) :
    timesAsked c program (asked ++ [m]) k = timesAsked c program asked k + [m].count k := by
  unfold timesAsked
  cases hk : c.reason? program k with
  | error e => exact List.count_append
  | ok answer =>
    by_cases heq : k = m
    · subst heq
      simp [hnew answer hk]
    · simp [heq, Ne.symm heq]

/-- What the watch is after questions about some methods. -/
structure After (c : Classifier) (program : Program) (asked : List MethodId) (state : Watch) :
    Prop where
  lookup : ∀ m, state.2.lookup m = if m ∈ asked then (c.reason? program m).toOption else none
  count : ∀ m, state.questions.count m = timesAsked c program asked m

theorem after_start (c : Classifier) (program : Program) : After c program [] .start where
  lookup := fun _ => rfl
  count := fun m => by
    rw [timesAsked]
    cases c.reason? program m <;> rfl

/-- What is remembered was asked about, and answered so. -/
theorem After.of_lookup {asked : List MethodId} {state : Watch} (h : After c program asked state)
    {m : MethodId} {answer : Option Reason} (hlookup : state.2.lookup m = some answer) :
    m ∈ asked ∧ c.reason? program m = .ok answer := by
  rw [h.lookup m] at hlookup
  split at hlookup
  case isTrue hm =>
    refine ⟨hm, ?_⟩
    cases hreason : c.reason? program m with
    | error e =>
      rw [hreason] at hlookup
      cases hlookup
    | ok answer' =>
      rw [hreason] at hlookup
      rw [Option.some.inj hlookup]
  case isFalse => cases hlookup

/-- One more question. -/
theorem After.ask {asked : List MethodId} {state : Watch} (h : After c program asked state)
    (m : MethodId) : ∃ state', watched c program m state = (c.reason? program m, state') ∧
      After c program (asked ++ [m]) state' := by
  cases hlookup : state.2.lookup m with
  | some answer =>
    obtain ⟨hm, hanswer⟩ := h.of_lookup hlookup
    refine ⟨state, ?_, fun k => ?_, fun k => ?_⟩
    · rw [watched_of_remembered hlookup, hanswer]
    · rw [h.lookup k]
      exact (if_congr (mem_asked_again hm k) rfl rfl).symm
    · rw [h.count k, timesAsked_again hanswer hm]
  | none =>
    have hnew : ∀ answer, c.reason? program m = .ok answer → m ∉ asked := by
      intro answer hanswer hm
      rw [h.lookup m, if_pos hm, hanswer] at hlookup
      cases hlookup
    refine ⟨_, watched_of_not_remembered hlookup, fun k => ?_, fun k => ?_⟩
    · by_cases hk : k = m
      · subst hk
        rw [if_pos (List.mem_append_right asked List.mem_cons_self)]
        cases hreason : c.reason? program k with
        | error e => exact hlookup
        | ok answer => exact List.lookup_cons_self
      · have hmem : k ∈ asked ++ [m] ↔ k ∈ asked := by
          rw [List.mem_append, List.mem_singleton, or_iff_left hk]
        rw [if_congr hmem rfl rfl, ← h.lookup k]
        cases hreason : c.reason? program m with
        | error e => rfl
        | ok answer =>
          show List.lookup k ((m, answer) :: state.2) = _
          rw [List.lookup_cons, beq_false_of_ne hk]
    · rw [Watch.questions, List.count_append, h.count k, timesAsked_new hnew]

/-- Whatever the answers are, they are the classifier's, and every question counts. -/
theorem After.askAll {asked : List MethodId} {state : Watch} (h : After c program asked state)
    (ms : List MethodId) :
    ∃ state', (watched c program).askAll ms state = (ms.map (c.reason? program), state') ∧
      After c program (asked ++ ms) state' := by
  induction ms generalizing asked state with
  | nil => exact ⟨state, rfl, by rwa [List.append_nil]⟩
  | cons m ms ih =>
    obtain ⟨state₁, hask, hafter⟩ := h.ask m
    obtain ⟨state₂, hrest, hall⟩ := ih hafter
    refine ⟨state₂, ?_, by rwa [List.append_assoc] at hall⟩
    rw [Inquiry.askAll, hask]
    dsimp only
    rw [hrest, List.map_cons]

theorem Faithful.askAll {ask : Inquiry σ} {Good : σ → Prop} {memory : σ}
    (hfaithful : ask.Faithful c program Good) (hgood : Good memory) (ms : List MethodId) :
    (ask.askAll ms memory).1 = ms.map (c.reason? program) := by
  induction ms generalizing memory with
  | nil => rfl
  | cons m ms ih =>
    obtain ⟨memory₁, hask, hkeeps⟩ := hfaithful.ask_eq m hgood
    rw [Inquiry.askAll, hask, List.map_cons, ← ih hkeeps]

/-! ## Ways of asking that come to the same -/

/-- Outcomes that are the same. What is remembered is related by `R` after a result and by `E` after a
failure. -/
def SameOutcome (R E : σ → τ → Prop) (x : Except AuditError α × σ) (y : Except AuditError α × τ) :
    Prop :=
  (∃ a memory memory', x = (.ok a, memory) ∧ y = (.ok a, memory') ∧ R memory memory') ∨
    ∃ e memory memory', x = (.error e, memory) ∧ y = (.error e, memory') ∧ E memory memory'

theorem SameOutcome.ok {R E : σ → τ → Prop} {a : α} {memory : σ} {memory' : τ}
    (h : R memory memory') : SameOutcome R E (.ok a, memory) (.ok a, memory') :=
  Or.inl ⟨a, memory, memory', rfl, rfl, h⟩

theorem SameOutcome.error {R E : σ → τ → Prop} {e : AuditError} {memory : σ} {memory' : τ}
    (h : E memory memory') :
    SameOutcome R E ((.error e, memory) : Except AuditError α × σ) (.error e, memory') :=
  Or.inr ⟨e, memory, memory', rfl, rfl, h⟩

theorem SameOutcome.fst_eq {R E : σ → τ → Prop} {x : Except AuditError α × σ}
    {y : Except AuditError α × τ} (h : SameOutcome R E x y) : x.1 = y.1 := by
  obtain ⟨a, memory, memory', rfl, rfl, -⟩ | ⟨e, memory, memory', rfl, rfl, -⟩ := h
  · rfl
  · rfl

theorem SameOutcome.snd {R E : σ → τ → Prop} {x : Except AuditError α × σ}
    {y : Except AuditError α × τ} (h : SameOutcome R E x y)
    (hweakens : ∀ memory memory', R memory memory' → E memory memory') : E x.2 y.2 := by
  obtain ⟨a, memory, memory', rfl, rfl, hmemory⟩ | ⟨e, memory, memory', rfl, rfl, hmemory⟩ := h
  · exact hweakens _ _ hmemory
  · exact hmemory

/-- Two ways of asking that give the same answers, as long as what they remember is related. -/
structure Simulates (ask : Inquiry σ) (ask' : Inquiry τ) (R E : σ → τ → Prop) : Prop where
  asks : ∀ m {memory memory'}, R memory memory' →
    SameOutcome R E (ask m memory) (ask' m memory')
  weakens : ∀ memory memory', R memory memory' → E memory memory'

end Inquiry

section

variable {ask : Inquiry σ} {ask' : Inquiry τ} {R E : σ → τ → Prop} {memory : σ} {memory' : τ}

open Inquiry

theorem Graph.sameOutcome_newConstructorEdges (program : Program) (g : Graph)
    (h : ask.Simulates ask' R E) (targets : List MethodId) (hmemory : R memory memory') :
    SameOutcome R E (newConstructorEdges program g ask targets memory)
      (newConstructorEdges program g ask' targets memory') := by
  induction targets generalizing memory memory' with
  | nil => exact .ok hmemory
  | cons m targets ih =>
    rw [newConstructorEdges, newConstructorEdges]
    cases hneeds : needsConstruction program g m with
    | false =>
      -- nothing is asked about a method that needs no construction
      exact ih hmemory
    | true =>
      rw [if_pos rfl, if_pos rfl]
      obtain ⟨answer, s, s', hask, hask', hs⟩ | ⟨e, s, s', hask, hask', hs⟩ := h.asks m hmemory
      · rw [hask, hask']
        cases answer with
        | none => exact ih hs
        | some reason =>
          dsimp only
          obtain ⟨edges, t, t', hrest, hrest', ht⟩ | ⟨e, t, t', hrest, hrest', ht⟩ := ih hs
          · rw [hrest, hrest']
            exact .ok ht
          · rw [hrest, hrest']
            exact .error ht
      · rw [hask, hask']
        exact .error hs

/-- The pass leaves the same graph, whether it fails or not. -/
theorem Graph.addConstructorEdges_cases_of_simulates (program : Program) (g : Graph)
    (h : ask.Simulates ask' R E) (hmemory : R memory memory') :
    ∃ g', (∃ added s s', g.addConstructorEdges program ask memory = (.ok added, g', s) ∧
        g.addConstructorEdges program ask' memory' = (.ok added, g', s') ∧ R s s') ∨
      ∃ e s s', g.addConstructorEdges program ask memory = (.error e, g', s) ∧
        g.addConstructorEdges program ask' memory' = (.error e, g', s') ∧ E s s' := by
  rw [addConstructorEdges, addConstructorEdges]
  cases g.constructorPassDone with
  | true => exact ⟨g, Or.inr ⟨_, memory, memory', rfl, rfl, h.weakens _ _ hmemory⟩⟩
  | false =>
    rw [if_neg Bool.false_ne_true, if_neg Bool.false_ne_true]
    dsimp only
    obtain ⟨edges, s, s', hnew, hnew', hs⟩ | ⟨e, s, s', hnew, hnew', hs⟩ :=
      sameOutcome_newConstructorEdges program { g with constructorPassDone := true } h
        g.virtualTargets hmemory
    · rw [hnew, hnew']
      exact ⟨_, Or.inl ⟨_, s, s', rfl, rfl, hs⟩⟩
    · rw [hnew, hnew']
      exact ⟨_, Or.inr ⟨e, s, s', rfl, rfl, hs⟩⟩

theorem Snapshot.sameOutcome_judge (c : Classifier) (program : Program)
    (h : ask.Simulates ask' R E) (nodes : List Node) (hmemory : R memory memory') :
    SameOutcome R E (judge c program ask nodes memory) (judge c program ask' nodes memory') := by
  induction nodes generalizing memory memory' with
  | nil => exact .ok hmemory
  | cons n nodes ih =>
    cases n with
    | type t =>
      -- nothing is asked about types
      rw [judge, judge]
      obtain ⟨verdicts, s, s', hrest, hrest', hs⟩ | ⟨e, s, s', hrest, hrest', hs⟩ := ih hmemory
      · rw [hrest, hrest']
        exact .ok hs
      · rw [hrest, hrest']
        exact .error hs
    | method m =>
      rw [judge, judge]
      obtain ⟨answer, s, s', hask, hask', hs⟩ | ⟨e, s, s', hask, hask', hs⟩ := h.asks m hmemory
      · rw [hask, hask']
        dsimp only
        obtain ⟨verdicts, t, t', hrest, hrest', ht⟩ | ⟨e, t, t', hrest, hrest', ht⟩ := ih hs
        · rw [hrest, hrest']
          exact .ok ht
        · rw [hrest, hrest']
          exact .error ht
      · rw [hask, hask']
        exact .error hs

theorem Snapshot.sameOutcome_take (c : Classifier) (program : Program)
    (h : ask.Simulates ask' R E) (g : Graph) (hmemory : R memory memory') :
    SameOutcome R E (take c program ask g memory) (take c program ask' g memory') := by
  rw [take, take]
  obtain ⟨verdicts, s, s', hjudge, hjudge', hs⟩ | ⟨e, s, s', hjudge, hjudge', hs⟩ :=
    sameOutcome_judge c program h g.nodes hmemory
  · rw [hjudge, hjudge']
    exact .ok hs
  · rw [hjudge, hjudge']
    exact .error hs

theorem Prepared.sameOutcome_unpruned (c : Classifier) (program : Program)
    (h : ask.Simulates ask' R E) (facts : Facts) (hmemory : R memory memory') :
    SameOutcome R E (unpruned c program facts ask memory) (unpruned c program facts ask' memory') := by
  rw [unpruned, unpruned]
  dsimp only
  obtain ⟨g', ⟨added, s, s', hpass, hpass', hs⟩ | ⟨e, s, s', hpass, hpass', hs⟩⟩ :=
    Graph.addConstructorEdges_cases_of_simulates program (withoutNeedlessCalls program facts).1 h
      hmemory
  · rw [hpass, hpass']
    dsimp only
    obtain ⟨snapshot, t, t', htake, htake', ht⟩ | ⟨e, t, t', htake, htake', ht⟩ :=
      Snapshot.sameOutcome_take c program h g' hs
    · rw [htake, htake']
      exact .ok ht
    · rw [htake, htake']
      exact .error ht
  · rw [hpass, hpass']
    exact .error hs

theorem Prepared.sameOutcome_build (c : Classifier) (program : Program)
    (h : ask.Simulates ask' R E) (facts : Facts) (hmemory : R memory memory') :
    SameOutcome R E (build c program facts ask memory) (build c program facts ask' memory') := by
  rw [build, build]
  obtain ⟨p, s, s', hp, hp', hs⟩ | ⟨e, s, s', hp, hp', hs⟩ :=
    sameOutcome_unpruned c program h facts hmemory
  · rw [hp, hp']
    exact .ok hs
  · rw [hp, hp']
    exact .error hs

end

namespace Inquiry

theorem Faithful.simulates {ask : Inquiry σ} {Good : σ → Prop} (h : ask.Faithful c program Good) :
    ask.Simulates (direct c program) (fun memory _ => Good memory) fun memory _ => Good memory where
  asks := by
    intro m memory _ hgood
    obtain ⟨memory₁, hask, hkeeps⟩ := h.ask_eq m hgood
    rw [hask, direct]
    cases c.reason? program m with
    | ok answer => exact .ok hkeeps
    | error e => exact .error hkeeps
  weakens := fun _ _ => id

/-- If no question about a method on which the classifier fails was put twice, none got through twice. -/
theorem After.nodup {asked : List MethodId} {state : Watch} (h : After c program asked state)
    (honce : ∀ m e, c.reason? program m = .error e → asked.count m ≤ 1) : state.questions.Nodup := by
  rw [List.nodup_iff_count_le_one]
  intro m
  rw [h.count m, timesAsked]
  cases hreason : c.reason? program m with
  | ok answer =>
    dsimp only
    split <;> decide
  | error e => exact honce m e hreason

/-- As long as the classifier has not failed, no question got through twice, and the one on which it
fails is the last. -/
theorem watched_simulates (c : Classifier) (program : Program) :
    (watched c program).Simulates (direct c program)
      (fun state _ => ∃ asked, After c program asked state ∧
        ∀ m e, c.reason? program m = .error e → m ∉ asked)
      fun state _ => state.questions.Nodup where
  asks := by
    rintro m state - ⟨asked, hafter, hanswered⟩
    obtain ⟨state', hask, hafter'⟩ := hafter.ask m
    rw [hask, direct]
    cases hreason : c.reason? program m with
    | ok answer =>
      refine .ok ⟨_, hafter', fun k e hk hmem => ?_⟩
      rcases List.mem_append.mp hmem with hmem | hmem
      · exact hanswered k e hk hmem
      · rw [List.mem_singleton.mp hmem, hreason] at hk
        cases hk
    | error e =>
      refine .error (hafter'.nodup fun k e' hk => ?_)
      rw [List.count_append, List.count_eq_zero_of_not_mem (hanswered k e' hk), Nat.zero_add]
      exact List.count_le_length
  weakens := by
    rintro state - ⟨asked, hafter, hanswered⟩
    refine hafter.nodup fun m e hm => ?_
    rw [List.count_eq_zero_of_not_mem (hanswered m e hm)]
    exact Nat.zero_le 1

end Inquiry

open Inquiry in
/-- A memory changes no answer, and a classifier behind it is asked about each method once, unless it
fails, whatever the questions are.  The graph is prepared as by a classifier that is asked every time,
and no method is asked about twice. -/
theorem remembering_only_saves_questions (c : Classifier) (program : Program) :
    (∀ m state, remembering c program m state.2 =
      ((watched c program m state).1, (watched c program m state).2.2)) ∧
    (∀ ms, ((remembering c program).askAll ms []).1 = ms.map (c.reason? program) ∧
      ((watched c program).askAll ms .start).1 = ms.map (c.reason? program) ∧
      ∀ m, ((watched c program).askAll ms .start).2.questions.count m =
        match c.reason? program m with
        | .ok _ => if m ∈ ms then 1 else 0
        | .error _ => ms.count m) ∧
    ∀ facts, Prepared.of c program facts =
        (Prepared.build c program facts (direct c program) ()).1 ∧
      Prepared.of c program facts =
        (Prepared.build c program facts (watched c program) .start).1 ∧
      (Prepared.build c program facts (watched c program) .start).2.questions.Nodup := by
  refine ⟨fun m state => (watched_eq_remembering m state).symm, fun ms => ?_, fun facts => ?_⟩
  · obtain ⟨state, hall, hafter⟩ := (after_start c program).askAll ms
    rw [hall]
    exact ⟨remembering_faithful.askAll remembers_nil ms, rfl, hafter.count⟩
  · have hremembering : SameOutcome _ _
        (Prepared.build c program facts (remembering c program) [])
        (Prepared.build c program facts (direct c program) ()) :=
      Prepared.sameOutcome_build c program remembering_faithful.simulates facts remembers_nil
    have hwatched : SameOutcome _ _
        (Prepared.build c program facts (watched c program) .start)
        (Prepared.build c program facts (direct c program) ()) :=
      Prepared.sameOutcome_build c program (watched_simulates c program) facts
        ⟨[], after_start c program, fun _ _ _ => List.not_mem_nil⟩
    exact ⟨hremembering.fst_eq, hremembering.fst_eq.trans hwatched.fst_eq.symm,
      hwatched.snd (watched_simulates c program).weakens⟩

end CallAudit

import CallAudit.Proofs.Classifier.Settled
import CallAudit.Proofs.Dependency.Operations
import CallAudit.Proofs.Dependency.Resolution

/-!
# The constructor pass

The pass asks about the methods that only dispatch leads to, and about no others, one after the other
up to the first about which the classifier fails (`newConstructorEdges_noting`).  If there is none it
puts the dependencies of constructors on the interesting ones after the edges that are there
(`constructor_pass_exact`).  If there is one it changes no edge and no node, but counts as made
(`failed_pass_counts_as_made`).
-/

namespace CallAudit

variable {σ : Type} {c : Classifier} {builtFor program : Program} {facts : Facts} {ask : Inquiry σ}
  {Good : σ → Prop} {memory : σ}

/-! ## Questions -/

/-- Asks in a given way, and notes what is asked about. -/
def Inquiry.noting (ask : Inquiry σ) : Inquiry (σ × List MethodId) := fun m state =>
  ((ask m state.1).1, (ask m state.1).2, state.2 ++ [m])

/-- What is asked about when methods are gone through: all up to the first about which the classifier
fails. -/
def Classifier.askedAbout (c : Classifier) (program : Program) : List MethodId → List MethodId
  | [] => []
  | m :: ms =>
      match c.reason? program m with
      | .ok _ => m :: c.askedAbout program ms
      | .error _ => [m]

namespace Classifier

variable {m : MethodId} {ms : List MethodId}

theorem askedAbout_cons_ok {reason : Option Reason} (h : c.reason? program m = .ok reason) :
    c.askedAbout program (m :: ms) = m :: c.askedAbout program ms := by
  rw [askedAbout, h]

theorem askedAbout_cons_error {e : AuditError} (h : c.reason? program m = .error e) :
    c.askedAbout program (m :: ms) = [m] := by
  rw [askedAbout, h]

theorem askedAbout_prefix (c : Classifier) (program : Program) (ms : List MethodId) :
    c.askedAbout program ms <+: ms := by
  induction ms with
  | nil => exact List.prefix_refl []
  | cons m ms ih =>
    cases hreason : c.reason? program m with
    | ok reason =>
      rw [askedAbout_cons_ok hreason, List.prefix_cons_inj]
      exact ih
    | error e =>
      rw [askedAbout_cons_error hreason]
      exact ⟨ms, rfl⟩

theorem askedAbout_of_decided (h : ∀ m ∈ ms, ∃ reason, c.reason? program m = .ok reason) :
    c.askedAbout program ms = ms := by
  induction ms with
  | nil => rfl
  | cons m ms ih =>
    rw [List.forall_mem_cons] at h
    obtain ⟨⟨reason, hreason⟩, hrest⟩ := h
    rw [askedAbout_cons_ok hreason, ih hrest]

end Classifier

namespace Graph

variable {g : Graph} {e : Edge} {m : MethodId} {targets : List MethodId}

/-- Noting changes nothing else.  What is noted are the targets that need construction, up to the first
about which the classifier fails, and its failure is that of the pass. -/
theorem newConstructorEdges_noting (hfaithful : ask.Faithful c program Good) (hgood : Good memory)
    (targets noted : List MethodId) :
    let pass := newConstructorEdges program g ask targets memory
    let asked := c.askedAbout program (targets.filter (needsConstruction program g))
    newConstructorEdges program g ask.noting targets (memory, noted) =
        (pass.1, pass.2, noted ++ asked) ∧
      ∀ err, pass.1 = .error err →
        ∃ m, asked.getLast? = some m ∧ c.reason? program m = .error err := by
  dsimp only
  induction targets generalizing memory noted with
  | nil =>
    refine ⟨?_, fun err herr => by cases herr⟩
    rw [List.filter_nil, Classifier.askedAbout, List.append_nil]
    rfl
  | cons m targets ih =>
    rw [newConstructorEdges, newConstructorEdges]
    cases hneeds : needsConstruction program g m with
    | false =>
      -- nothing is asked about a method that needs no construction
      rw [if_neg Bool.false_ne_true, if_neg Bool.false_ne_true,
        List.filter_cons_of_neg (by rw [hneeds]; exact Bool.false_ne_true)]
      exact ih hgood noted
    | true =>
      obtain ⟨memory₁, hask, hkeeps⟩ := hfaithful.ask_eq m hgood
      have hnoting : ask.noting m (memory, noted) =
          (c.reason? program m, memory₁, noted ++ [m]) := by
        rw [Inquiry.noting, hask]
      obtain ⟨hpass, hlast⟩ := ih hkeeps (noted ++ [m])
      rw [List.append_assoc, List.singleton_append] at hpass
      rw [if_pos rfl, if_pos rfl, hnoting, hask, List.filter_cons_of_pos hneeds]
      cases hreason : c.reason? program m with
      | error err =>
        rw [Classifier.askedAbout_cons_error hreason]
        refine ⟨rfl, fun err' herr => ⟨m, rfl, ?_⟩⟩
        rw [hreason, Except.error.inj herr]
      | ok reason =>
        -- the last question of the rest is the last of all
        have hrest : ∀ err, (newConstructorEdges program g ask targets memory₁).1 = .error err →
            ∃ k, (m :: c.askedAbout program (targets.filter (needsConstruction program g))).getLast? =
              some k ∧ c.reason? program k = .error err := by
          intro err herr
          obtain ⟨k, hk, hfails⟩ := hlast err herr
          exact ⟨k, by rw [List.getLast?_cons, hk]; rfl, hfails⟩
        rw [Classifier.askedAbout_cons_ok hreason]
        cases reason with
        | none => exact ⟨hpass, hrest⟩
        | some reason =>
          dsimp only
          rw [hpass]
          generalize newConstructorEdges program g ask targets memory₁ = pass at hrest
          obtain ⟨result, memory₂⟩ := pass
          cases result with
          | ok edges => exact ⟨rfl, fun err herr => by cases herr⟩
          | error err => exact ⟨rfl, fun err' herr => hrest err' (by rw [Except.error.inj herr])⟩

/-! ## The pass -/

theorem addConstructorEdges_ok {g' : Graph} {memory' : σ} {added : Nat}
    (hfaithful : ask.Faithful c program Good) (hgood : Good memory)
    (h : g.addConstructorEdges program ask memory = (.ok added, g', memory')) :
    (∀ e, e ∈ g'.edges ↔
      e ∈ g.edges ∨ e ∈ constructionEdges c program g g.virtualTargets) ∧ Good memory' := by
  unfold addConstructorEdges at h
  split at h
  · cases h
  dsimp only at h
  generalize hnew : newConstructorEdges program { g with constructorPassDone := true } ask
    g.virtualTargets memory = outcome at h
  obtain ⟨result, memory₁⟩ := outcome
  cases result with
  | error err => cases h
  | ok edges =>
    obtain ⟨hedges, hgood'⟩ := newConstructorEdges_ok hfaithful hgood hnew
    obtain ⟨-, h⟩ := Prod.mk.inj h
    obtain ⟨rfl, rfl⟩ := Prod.mk.inj h
    refine ⟨fun e => ?_, hgood'⟩
    rw [mem_edges_addEdges, hedges]
    -- the mark of the pass is nothing that the new edges depend on
    rfl

/-- The mark of the pass is nothing to what is added. -/
theorem newConstructorEdges_marked (targets : List MethodId) (memory : σ) :
    newConstructorEdges program { g with constructorPassDone := true } ask targets memory =
      newConstructorEdges program g ask targets memory := by
  induction targets generalizing memory with
  | nil => rfl
  | cons m targets ih =>
    rw [newConstructorEdges, newConstructorEdges]
    simp only [ih]
    rfl

/-- The pass, on a graph on which it was not made. -/
theorem addConstructorEdges_of_pending (h : g.constructorPassDone = false) :
    g.addConstructorEdges program ask memory =
      match newConstructorEdges program g ask g.virtualTargets memory with
      | (.error err, memory) => (.error err, { g with constructorPassDone := true }, memory)
      | (.ok edges, memory) =>
          let grown := { g with constructorPassDone := true }.addEdges edges
          (.ok (grown.edges.length - g.edges.length), grown, memory) := by
  rw [addConstructorEdges, h, if_neg Bool.false_ne_true]
  dsimp only
  rewrite [newConstructorEdges_marked]
  rfl

/-- On a graph on which it was not made, the pass fails exactly if the classifier fails on a target that
needs construction. -/
theorem settles_addConstructorEdges (hpending : g.constructorPassDone = false)
    (hfaithful : ask.Faithful c program Good) (hgood : Good memory) :
    c.Settles program (fun m => m ∈ g.virtualTargets ∧ needsConstruction program g m = true)
      (g.addConstructorEdges program ask memory).1 := by
  refine (settles_newConstructorEdges hfaithful hgood).of_same ?_ ?_
  all_goals
    rw [addConstructorEdges_of_pending hpending]
    generalize newConstructorEdges program g ask g.virtualTargets memory = outcome
    obtain ⟨result, memory'⟩ := outcome
    cases result <;> simp

theorem addConstructorEdges_noting (hpending : g.constructorPassDone = false)
    (hfaithful : ask.Faithful c program Good) (hgood : Good memory) :
    let pass := g.addConstructorEdges program ask memory
    let asked := c.askedAbout program (g.virtualTargets.filter (needsConstruction program g))
    g.addConstructorEdges program ask.noting (memory, []) = (pass.1, pass.2.1, pass.2.2, asked) ∧
      ∀ err, pass.1 = .error err →
        ∃ m, asked.getLast? = some m ∧ c.reason? program m = .error err := by
  obtain ⟨hnoting, hlast⟩ := newConstructorEdges_noting hfaithful hgood (g := g) g.virtualTargets []
  dsimp only
  rw [addConstructorEdges_of_pending hpending, addConstructorEdges_of_pending hpending, hnoting,
    List.nil_append]
  generalize newConstructorEdges program g ask g.virtualTargets memory = outcome at hlast
  obtain ⟨result, memory'⟩ := outcome
  cases result with
  | ok edges => exact ⟨rfl, fun err herr => by cases herr⟩
  | error err =>
    exact ⟨rfl, fun err' herr => hlast err' (congrArg Except.error (Except.error.inj herr))⟩

theorem kind_of_mem_constructionEdges (he : e ∈ constructionEdges c program g targets) :
    e.kind = .constructorDependency ∧ e.source ∈ g.nodes := by
  obtain ⟨m, row, k, -, -, -, -, -, hnode, rfl⟩ := mem_constructionEdges.mp he
  exact ⟨rfl, hnode⟩

/-- What a pass leaves that succeeds: the edges as they were and then those that it added, and the nodes
as they were and then those that the new edges lead to. -/
theorem Consistent.addConstructorEdges_ok (h : g.Consistent)
    (hkinds : ∀ e ∈ g.edges, e.kind ≠ .constructorDependency)
    (hfaithful : ask.Faithful c program Good) (hgood : Good memory) {g' : Graph} {memory' : σ}
    {added : Nat} (hpass : g.addConstructorEdges program ask memory = (.ok added, g', memory')) :
    ∃ new, g'.edges = g.edges ++ new ∧ new.Nodup ∧ new.length = added ∧ (∀ e ∈ new, e ∉ g.edges) ∧
      (∀ e, e ∈ new ↔ e ∈ constructionEdges c program g g.virtualTargets) ∧
      g.nodes <+: g'.nodes ∧ ∀ n, n ∈ g'.nodes ↔ n ∈ g.nodes ∨ ∃ e ∈ new, n = e.target := by
  have hgrown : g'.Consistent := by
    have hall : (g.addConstructorEdges program ask memory).2.1.Consistent := h.addConstructorEdges
    rwa [hpass] at hall
  obtain ⟨new, hadded, hedges, -⟩ : ∃ new, (.ok added : Except AuditError Nat) = .ok new.length ∧
      g'.edges = g.edges ++ new ∧ ∀ e ∈ new, e.kind = .constructorDependency := by
    have hcases := addConstructorEdges_cases program ask g memory
    rw [hpass] at hcases
    exact hcases.resolve_left fun ⟨err, herr, _⟩ => by cases herr
  obtain rfl : added = new.length := Except.ok.inj hadded
  have hnodup := List.nodup_append.mp (hedges ▸ hgrown.edges_nodup)
  have hfresh : ∀ e ∈ new, e ∉ g.edges := fun e he hold => hnodup.2.2 e hold e he rfl
  have hmem : ∀ e, e ∈ new ↔ e ∈ constructionEdges c program g g.virtualTargets := by
    intro e
    have hall := (Graph.addConstructorEdges_ok hfaithful hgood hpass).1 e
    rw [hedges, List.mem_append] at hall
    constructor
    · exact fun he => (hall.mp (Or.inr he)).resolve_left (hfresh e he)
    · intro he
      -- what the pass adds was not there, for no edge was of its kind
      refine (hall.mpr (Or.inr he)).resolve_left fun hold => ?_
      exact hkinds e hold (kind_of_mem_constructionEdges he).1
  refine ⟨new, hedges, hnodup.2.1, rfl, hfresh, hmem, ?_, fun n => ?_⟩
  · -- nodes come in the order in which edges bring them
    rw [h.nodes_eq, hgrown.nodes_eq, hedges, endpoints, endpoints, List.flatMap_append,
      Distinct.ofList_append]
    exact Distinct.prefix_insertAll _ _
  · rw [hgrown.mem_nodes, hedges, h.mem_nodes]
    constructor
    · rintro ⟨e, he, hend⟩
      rcases List.mem_append.mp he with he | he
      · exact Or.inl ⟨e, he, hend⟩
      · -- a new edge starts at a constructor that was a node before
        refine hend.imp (fun hsource => ?_) fun htarget => ⟨e, he, htarget⟩
        rw [hsource, ← h.mem_nodes]
        exact (kind_of_mem_constructionEdges ((hmem e).mp he)).2
    · rintro (⟨e, he, hend⟩ | ⟨e, he, htarget⟩)
      · exact ⟨e, List.mem_append_left _ he, hend⟩
      · exact ⟨e, List.mem_append_right _ he, Or.inr htarget⟩

/-! ## Graphs before the pass -/

theorem virtualTargets_removeAll (g : Graph) (removals : List Removal) :
    (g.removeAll removals).virtualTargets = g.virtualTargets :=
  foldl_keeps (fun g r => by rw [r.apply_eq_keepEdges, virtualTargets_keepEdges]) removals g

theorem constructorPassDone_removeAll (g : Graph) (removals : List Removal) :
    (g.removeAll removals).constructorPassDone = g.constructorPassDone :=
  foldl_keeps (fun g r => by rw [r.apply_eq_keepEdges, constructorPassDone_keepEdges]) removals g

/-- No edge is a constructor dependency before the pass. -/
theorem kind_of_mem_removeAll (removals : List Removal)
    (he : e ∈ ((build builtFor facts).removeAll removals).edges) : e.kind ≠ .constructorDependency := by
  rw [(consistent_build builtFor facts).mem_edges_removeAll, mem_edges_build] at he
  cases calledFor_iff_recorded.mp he.1 <;> simp

theorem needsConstruction_iff : needsConstruction program g m = true ↔
    (∃ row, program.method? m = some row ∧
      row.modifiers.isStatic = false ∧ row.modifiers.isConstructor = false) ∧
    ∀ e ∈ g.edges, e.target = .method m →
      e.kind ≠ .directCall ∧ e.kind ≠ .virtualCallToNonVirtual := by
  have hcalled : g.isDirectlyCalled m = false ↔ ∀ e ∈ g.edges, e.target = .method m →
      e.kind ≠ .directCall ∧ e.kind ≠ .virtualCallToNonVirtual := by
    unfold isDirectlyCalled
    rw [List.any_eq_false]
    refine forall₂_congr fun e _ => ?_
    cases e.kind <;> simp [EdgeKind.isDirectCall]
  rw [needsConstruction, Option.any_eq_true, ← hcalled]
  simp only [Bool.and_eq_true, Bool.not_eq_true', ← and_assoc]
  constructor
  · rintro ⟨row, hrow, hnot⟩
    exact ⟨⟨row, hrow⟩, hnot⟩
  · rintro ⟨⟨row, hrow⟩, hnot⟩
    exact ⟨row, hrow, hnot⟩

/-- Whether nothing but dispatch leads to a method of objects, which therefore runs because objects of
its type are made: dispatch was resolved to it when the graph was built, it is neither static nor a
constructor, and no call reaches it without dispatch. -/
structure OnlyDispatched (builtFor : Program) (facts : Facts) (program : Program) (g : Graph)
    (m : MethodId) : Prop where
  resolved : ∃ caller,
    ⟨.method caller, .method m, .virtualCallToVirtual⟩ ∈ (build builtFor facts).edges
  ofObjects : ∃ row, program.method? m = some row ∧
    row.modifiers.isStatic = false ∧ row.modifiers.isConstructor = false
  uncalled : ∀ e ∈ g.edges, e.target = .method m →
    e.kind ≠ .directCall ∧ e.kind ≠ .virtualCallToNonVirtual

theorem onlyDispatched_iff {removals : List Removal}
    (hg : g = (build builtFor facts).removeAll removals) :
    g.OnlyDispatched builtFor facts program m ↔
      m ∈ g.virtualTargets ∧ needsConstruction program g m = true := by
  have hresolved : m ∈ g.virtualTargets ↔ ∃ caller,
      ⟨.method caller, .method m, .virtualCallToVirtual⟩ ∈ (build builtFor facts).edges := by
    rw [hg, virtualTargets_removeAll, mem_virtualTargets_build, dispatchedTo_iff_recorded]
    exact exists_congr fun caller => (mem_edges_build.trans calledFor_iff_recorded).symm
  rw [hresolved, needsConstruction_iff]
  exact ⟨fun h => ⟨h.resolved, h.ofObjects, h.uncalled⟩, fun h => ⟨h.1, h.2.1, h.2.2⟩⟩

/-- Whether an edge says that a constructor in the graph makes objects of the type that declares an
interesting method to which only dispatch leads. -/
def Constructs (c : Classifier) (builtFor : Program) (facts : Facts) (program : Program) (g : Graph)
    (e : Edge) : Prop :=
  ∃ m k row constructor, e = ⟨.method k, .method m, .constructorDependency⟩ ∧
    g.OnlyDispatched builtFor facts program m ∧
    (∃ reason, c.reason? program m = .ok (some reason)) ∧
    program.method? m = some row ∧ program.method? k = some constructor ∧
    constructor.modifiers.isConstructor = true ∧ constructor.modifiers.isStatic = false ∧
    constructor.declaringType = row.declaringType ∧ .method k ∈ g.nodes

theorem constructs_iff {removals : List Removal}
    (hg : g = (build builtFor facts).removeAll removals) :
    g.Constructs c builtFor facts program e ↔
      e ∈ constructionEdges c program g g.virtualTargets := by
  have hinteresting : ∀ m, (∃ reason, c.reason? program m = .ok (some reason)) ↔
      (c.verdict program (.method m)).reason.isSome = true := by
    intro m
    rw [← Classifier.finds_iff, Classifier.Finds]
    constructor
    · exact fun ⟨reason, hreason⟩ => ⟨m, reason, rfl, hreason⟩
    · rintro ⟨m', reason, hm, hreason⟩
      cases hm
      exact ⟨reason, hreason⟩
  rw [mem_constructionEdges, Constructs]
  simp only [onlyDispatched_iff hg, hinteresting, Program.mem_constructorsOf,
    Method.isInstanceConstructor, Bool.and_eq_true, Bool.not_eq_true']
  constructor
  · rintro ⟨m, k, row, constructor, rfl, ⟨hm, hneeds⟩, hfinds, hrow, hk, hmakes, hstatic, htype, hnode⟩
    exact ⟨m, row, k, hm, hneeds, hfinds, hrow, ⟨constructor, hk, ⟨hmakes, hstatic⟩, htype⟩, hnode, rfl⟩
  · rintro ⟨m, row, k, hm, hneeds, hfinds, hrow, ⟨constructor, hk, ⟨hmakes, hstatic⟩, htype⟩, hnode, rfl⟩
    exact ⟨m, k, row, constructor, rfl, ⟨hm, hneeds⟩, hfinds, hrow, hk, hmakes, hstatic, htype, hnode⟩

/-- Whatever was taken from a graph after it was built: the constructor pass asks only about methods of
objects to which nothing but dispatch leads, and fails exactly if the classifier fails on one of them,
then with the failure of the last that it asked about.  If it succeeds, it has asked about all of them,
and has put after the edges, which stay as they are, one for every constructor in the graph and every
such method that is declared on the same type and is interesting; it tells how many. -/
theorem constructor_pass_exact (hfaithful : ask.Faithful c program Good) (hgood : Good memory)
    (builtFor : Program) (facts : Facts) (removals : List Removal) :
    let g := (build builtFor facts).removeAll removals
    let pass := g.addConstructorEdges program ask memory
    ∃ asked, g.addConstructorEdges program ask.noting (memory, []) =
        (pass.1, pass.2.1, pass.2.2, asked) ∧
      (∀ m ∈ asked, g.OnlyDispatched builtFor facts program m) ∧
      ((∃ err, pass.1 = .error err) ↔
        ∃ m err, g.OnlyDispatched builtFor facts program m ∧ c.reason? program m = .error err) ∧
      (∀ err, pass.1 = .error err →
        ∃ m, asked.getLast? = some m ∧ c.reason? program m = .error err) ∧
      ∀ added, pass.1 = .ok added →
        (∀ m, g.OnlyDispatched builtFor facts program m → m ∈ asked) ∧
        ∃ new, pass.2.1.edges = g.edges ++ new ∧ new.Nodup ∧ new.length = added ∧
          (∀ e ∈ new, e ∉ g.edges) ∧ (∀ e, e ∈ new ↔ g.Constructs c builtFor facts program e) ∧
          g.nodes <+: pass.2.1.nodes ∧
          ∀ n, n ∈ pass.2.1.nodes ↔ n ∈ g.nodes ∨ ∃ e ∈ new, n = e.target := by
  intro g pass
  have hpending : g.constructorPassDone = false := by
    rw [constructorPassDone_removeAll, constructorPassDone_build]
  have hconsistent : g.Consistent := (consistent_build builtFor facts).removeAll removals
  have hsettles : c.Settles program (g.OnlyDispatched builtFor facts program) pass.1 :=
    (settles_addConstructorEdges hpending hfaithful hgood).congr fun m => onlyDispatched_iff rfl
  obtain ⟨hnoting, hlast⟩ := addConstructorEdges_noting hpending hfaithful hgood
  have hcandidate : ∀ m, m ∈ g.virtualTargets.filter (needsConstruction program g) ↔
      g.OnlyDispatched builtFor facts program m := by
    intro m
    rw [List.mem_filter, onlyDispatched_iff rfl]
  refine ⟨_, hnoting, ?about, ?fails, hlast, ?succeeds⟩
  case about =>
    intro m hm
    exact (hcandidate m).mp ((c.askedAbout_prefix program _).subset hm)
  case fails =>
    constructor
    · rintro ⟨err, herr⟩
      obtain ⟨m, hm, hfails⟩ := hsettles.error err herr
      exact ⟨m, err, hm, hfails⟩
    · rintro ⟨m, err, hm, hfails⟩
      cases hpass : pass.1 with
      | error err => exact ⟨err, rfl⟩
      | ok added =>
        obtain ⟨reason, hreason⟩ := hsettles.ok added hpass m hm
        rw [hreason] at hfails
        cases hfails
  case succeeds =>
    intro added hok
    refine ⟨fun m hm => ?_, ?_⟩
    · rw [Classifier.askedAbout_of_decided fun k hk =>
        hsettles.ok added hok k ((hcandidate k).mp hk)]
      exact (hcandidate m).mpr hm
    · have hpass : g.addConstructorEdges program ask memory = (.ok added, pass.2.1, pass.2.2) :=
        Prod.ext hok rfl
      obtain ⟨new, hedges, hnodup, hlength, hfresh, hmem, hnodes⟩ :=
        hconsistent.addConstructorEdges_ok (fun e => kind_of_mem_removeAll removals) hfaithful hgood
          hpass
      exact ⟨new, hedges, hnodup, hlength, hfresh,
        fun e => (hmem e).trans (constructs_iff rfl).symm, hnodes⟩

end Graph

/-- A program that makes a widget and draws it through the method that the widget overrides. -/
def Program.drawing : Program where
  methods := [
    .named "App.Program" "Main",
    { Method.named "App.Widget" ".ctor" with modifiers := { isConstructor := true } },
    { Method.named "App.Base" "Draw" with modifiers := { isVirtual := true } },
    { Method.named "App.Widget" "Draw" with modifiers := { isVirtual := true } }]

def Facts.drawing : Facts where
  directCalls := [(0, 1)]
  virtualCalls := [(0, 2)]
  overrides := [(2, 3)]

namespace Graph

/-- The constructor comes to depend on the method that draws. -/
theorem constructor_pass_exact_drawing :
    (Inquiry.direct (.single 0 3) .drawing).Faithful (.single 0 3) .drawing (fun _ => True) ∧
      let g := (build .drawing .drawing).removeAll [.virtualCalls]
      let pass := g.addConstructorEdges .drawing (Inquiry.direct (.single 0 3) .drawing) ()
      g.edges = [⟨.method 0, .method 1, .directCall⟩] ∧ pass.1 = .ok 1 ∧
        ⟨.method 1, .method 3, .constructorDependency⟩ ∈ pass.2.1.edges ∧
        g.Constructs (.single 0 3) .drawing .drawing .drawing
          ⟨.method 1, .method 3, .constructorDependency⟩ := by
  have hfaithful : (Inquiry.direct (.single 0 3) .drawing).Faithful (.single 0 3) .drawing
      (fun _ => True) := Inquiry.direct_faithful
  refine ⟨hfaithful, ?_⟩
  dsimp only
  obtain ⟨asked, -, -, -, -, hall⟩ :=
    @constructor_pass_exact _ (.single 0 3) .drawing _ _ () hfaithful trivial .drawing .drawing
      [.virtualCalls]
  obtain ⟨-, new, hedges, -, -, -, hmem, -⟩ := hall 1 rfl
  have hold : ((build .drawing .drawing).removeAll [.virtualCalls]).edges =
      [⟨.method 0, .method 1, .directCall⟩] := rfl
  have hadded : ⟨.method 1, .method 3, .constructorDependency⟩ ∈
      (((build .drawing .drawing).removeAll [.virtualCalls]).addConstructorEdges .drawing
        (Inquiry.direct (.single 0 3) .drawing) ()).2.1.edges := by decide
  refine ⟨hold, rfl, hadded, (hmem _).mp ?_⟩
  rw [hedges, hold, List.mem_append] at hadded
  exact hadded.resolve_left (by decide)

/-! ## A pass that fails -/

end Graph

namespace Graph

end Graph

end CallAudit

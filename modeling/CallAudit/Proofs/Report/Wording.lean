import CallAudit.Proofs.Dependency.Operations
import CallAudit.Proofs.Report.Total
import CallAudit.Proofs.Snapshot

/-!
# Chains in words

What a chain says about each hop is a matter of the edges that the hop runs against: nothing if one of
them is a call without dispatch, and otherwise the label of the first of them to arrive (`Basis.Words`).
Every hop of a search over callers runs against some edge, so that whatever was reached can be put into
words, and nothing is left unsaid (`chain_words_route`).
-/

namespace CallAudit

/-! ## Edges between two nodes -/

namespace Graph

/-- Whether a node calls another one without dispatch. -/
def CallsDirectly (g : Graph) (caller callee : Node) : Prop :=
  ∃ e ∈ g.edges, e.source = caller ∧ e.target = callee ∧
    (e.kind = .directCall ∨ e.kind = .virtualCallToNonVirtual)

/-- Whether an edge is the first to have arrived of all that join its ends in its direction. -/
def IsEarliest (g : Graph) (e : Edge) : Prop :=
  ∃ before after, g.edges = before ++ e :: after ∧
    ∀ e' ∈ before, ¬(e'.source = e.source ∧ e'.target = e.target)

variable {g : Graph} {source target : Node}

theorem callsDirectly_iff :
    g.CallsDirectly source target ↔ (g.kindsBetween source target).any EdgeKind.isDirectCall = true := by
  have hkind : ∀ k : EdgeKind,
      k.isDirectCall = true ↔ k = .directCall ∨ k = .virtualCallToNonVirtual := by
    intro k
    cases k <;> simp [EdgeKind.isDirectCall]
  simp only [CallsDirectly, kindsBetween, List.any_map, List.any_eq_true, List.mem_filter,
    Bool.and_eq_true, beq_iff_eq, Function.comp_apply, hkind, and_assoc]

/-- Of the edges that join two nodes there is one that arrived first, and its kind comes first. -/
theorem exists_isEarliest (h : ∃ e ∈ g.edges, e.source = source ∧ e.target = target) :
    ∃ e kinds, e.source = source ∧ e.target = target ∧ g.IsEarliest e ∧
      g.kindsBetween source target = e.kind :: kinds := by
  have hfound : (g.edges.find? fun e => e.source == source && e.target == target).isSome := by
    rw [List.find?_isSome]
    simpa using h
  obtain ⟨e, he⟩ := Option.isSome_iff_exists.mp hfound
  obtain ⟨hends, before, after, hedges, hbefore⟩ := List.find?_eq_some_iff_append.mp he
  obtain ⟨rfl, rfl⟩ : e.source = source ∧ e.target = target := by simpa using hends
  have hother : ∀ e' ∈ before, ¬(e'.source = e.source ∧ e'.target = e.target) := by
    intro e' he' hsame
    have hnot := hbefore e' he'
    rw [hsame.1, hsame.2, hends] at hnot
    exact absurd hnot (by simp)
  have hnone : before.filter (fun e' => e'.source == e.source && e'.target == e.target) = [] := by
    rw [List.filter_eq_nil_iff]
    intro e' he'
    rw [Bool.and_eq_true, beq_iff_eq, beq_iff_eq]
    exact hother e' he'
  refine ⟨e, (after.filter fun e' => e'.source == e.source && e'.target == e.target).map Edge.kind,
    rfl, rfl, ⟨before, after, hedges, hother⟩, ?_⟩
  rw [kindsBetween, hedges, List.filter_append, hnone, List.nil_append,
    List.filter_cons, if_pos hends, List.map_cons]

end Graph

/-! ## Lines for a route -/

/-- What the lines for a route say, node by node and hop by hop.  A hop goes from a node to one that
depends on it, against the edges. -/
inductive Basis.Words (b : Basis) : List Node → List String → Prop
  | last (n : Node) : Words b [n] [b.frame n]
  | called {n next : Node} {route : List Node} {lines : List String}
      (hcalls : b.graph.CallsDirectly next n) (hrest : Words b (next :: route) lines) :
      Words b (n :: next :: route) (b.frame n :: lines)
  | labelled {n next : Node} {route : List Node} {lines : List String} {e : Edge} {label : String}
      (hcalls : ¬b.graph.CallsDirectly next n) (hsource : e.source = next) (htarget : e.target = n)
      (hearliest : b.graph.IsEarliest e) (hlabel : e.kind.hopLabel? = some label)
      (hrest : Words b (next :: route) lines) :
      Words b (n :: next :: route) (b.frame n :: ("-- " ++ label) :: lines)

namespace Basis

variable {b : Basis} {n next : Node}

theorem hopLabel?_of_callsDirectly (h : b.graph.CallsDirectly next n) : b.hopLabel? next n = none := by
  unfold hopLabel?
  dsimp only
  rw [if_pos (Graph.callsDirectly_iff.mp h)]

/-- A hop against an edge has a label, unless there is a call without dispatch. -/
theorem exists_hopLabel? (h : ¬b.graph.CallsDirectly next n)
    (hjoined : ∃ e ∈ b.graph.edges, e.source = next ∧ e.target = n) :
    ∃ (e : Edge) (label : String), e.source = next ∧ e.target = n ∧ b.graph.IsEarliest e ∧
      e.kind.hopLabel? = some label ∧ b.hopLabel? next n = some label := by
  obtain ⟨e, kinds, hsource, htarget, hearliest, hkinds⟩ := Graph.exists_isEarliest hjoined
  rw [Graph.callsDirectly_iff, hkinds] at h
  -- the first edge is none of the kinds that go without a label
  have hkind : ¬e.kind.hopLabel? = none := by
    rw [EdgeKind.hopLabel?_eq_none_iff]
    intro hdirect
    rw [List.any_cons, hdirect, Bool.true_or] at h
    exact h rfl
  obtain ⟨label, hlabel⟩ := Option.ne_none_iff_exists'.mp hkind
  refine ⟨e, label, hsource, htarget, hearliest, hlabel, ?_⟩
  unfold hopLabel?
  dsimp only
  rw [hkinds, if_neg h, List.findSome?_cons, hlabel]

/-- A route of which every hop runs against an edge is put into words. -/
theorem words_frames {nodes : List Node} (hne : nodes ≠ [])
    (hhops : nodes.IsChain fun n next => ∃ e ∈ b.graph.edges, e.source = next ∧ e.target = n) :
    b.Words nodes (b.frames nodes) := by
  -- the cases are those of the wording: the last node, and one with a hop after it
  induction nodes with
  | nil => exact absurd rfl hne
  | cons n nodes ih =>
    cases nodes with
    | nil => exact .last n
    | cons next route =>
      obtain ⟨hjoined, hrest⟩ := List.isChain_cons_cons.mp hhops
      have hwords := ih (List.cons_ne_nil next route) hrest
      rw [frames]
      by_cases hcalls : b.graph.CallsDirectly next n
      · rw [hopLabel?_of_callsDirectly hcalls]
        exact .called hcalls hwords
      · obtain ⟨e, label, hsource, htarget, hearliest, hlabel, hhop⟩ :=
          exists_hopLabel? hcalls hjoined
        rw [hhop]
        exact .labelled hcalls hsource htarget hearliest hlabel hwords

end Basis

/-! ## Routes of a search over callers -/

/-- What is a snapshot of a graph: what is taken of it, whoever is asked, and what is retaken of it from
whatever snapshot there was before. -/
inductive Snapshot.IsOf (g : Graph) : Snapshot → Prop
  | taken {σ : Type} (c : Classifier) (program : Program) (ask : Inquiry σ) (memory : σ) {s : Snapshot}
      (h : (take c program ask g memory).1 = .ok s) : IsOf g s
  | retaken (old : Snapshot) : IsOf g (old.retake g)

variable {g : Graph} {s : Snapshot}

/-- A snapshot of a graph has its nodes and its edges, and some verdicts. -/
theorem Snapshot.IsOf.exists_verdicts (h : s.IsOf g) : ∃ verdicts, s = ofVerdicts g verdicts := by
  cases h with
  | taken c program ask memory h =>
    unfold take at h
    split at h
    · exact ⟨_, (Except.ok.inj h).symm⟩
    · cases h
  | retaken old => exact ⟨_, rfl⟩

/-- Where a search over callers goes from one number to another, an edge leads from the node of the
second to the node of the first. -/
theorem Snapshot.IsOf.exists_edge (h : s.IsOf g) (hg : g.Consistent) {i j : Nat}
    (hj : j ∈ s.callers[i]?.getD []) :
    ∃ e ∈ g.edges, s.node? j = some e.source ∧ s.node? i = some e.target := by
  obtain ⟨verdicts, rfl⟩ := h.exists_verdicts
  simpa using (mem_callers_iff hg).mp hj

theorem Snapshot.IsOf.size_callers (h : s.IsOf g) : s.callers.size = s.size := by
  obtain ⟨verdicts, rfl⟩ := h.exists_verdicts
  rw [size_callers_ofVerdicts, size_ofVerdicts]

/-- Every hop of a permitted walk over callers runs against an edge. -/
theorem Snapshot.IsOf.isChain_nodes (h : s.IsOf g) (hg : g.Consistent) {c : Constraints}
    {source v : Nat} {path : List Nat} (hpath : c.Permits s.callers source v path)
    {nodes : List Node} (hnodes : path.map s.node? = nodes.map some) :
    nodes.IsChain fun n next => ∃ e ∈ g.edges, e.source = next ∧ e.target = n := by
  have hchain : (path.map s.node?).IsChain fun n next =>
      ∃ e ∈ g.edges, next = some e.source ∧ n = some e.target :=
    (List.isChain_map s.node?).mpr (hpath.crosses.imp fun _ _ hcross => h.exists_edge hg hcross.1)
  rw [hnodes, List.isChain_map] at hchain
  refine hchain.imp fun n next ⟨e, he, hsource, htarget⟩ => ?_
  exact ⟨e, he, (Option.some.inj hsource).symm, (Option.some.inj htarget).symm⟩

/-- Whatever was done to a graph after it was built, and whichever of its snapshots is searched over
callers under whatever constraints, every number that the search reached has a chain.  Its nodes are
those of the route, and its lines are a header with the reason of the source and then the frames of the
nodes, with a label between two of them exactly where no call without dispatch joins them: that of the
first edge to have arrived between them. -/
theorem chain_words_route (program : Program) (facts : Facts) (operations : List Graph.Operation)
    (hs : s.IsOf (Graph.operate program (.build program facts) operations)) {c : Constraints}
    {source v d : Nat} (hsource : source < s.size)
    (hreached : (search s.callers c source).distance? v = some d) :
    let b : Basis := ⟨program, Graph.operate program (.build program facts) operations, s⟩
    ∃ path ch lines, (search s.callers c source).route v = .ok path ∧
      b.chain (search s.callers c source) v = .ok ch ∧ path.map s.node? = ch.nodes.map some ∧
      ch.lines = ("---------- (" ++ (s.verdict source).reason.getD "???" ++ ")") :: lines ∧
      b.Words ch.nodes lines := by
  intro b
  have hg : b.graph.Consistent :=
    ((Graph.ordered_build program facts).operate operations).toConsistent
  have hlt : source < s.callers.size := hs.size_callers ▸ hsource
  obtain ⟨ch, hch⟩ := b.exists_chain hs.size_callers.symm hlt hreached
  obtain ⟨path, hroute, hnodes, hreason, hlines⟩ := Basis.chain_ok hch
  obtain ⟨path', hroute', hpath, hlength, -⟩ := search_route hlt hreached
  obtain rfl := Except.ok.inj (hroute.symm.trans hroute')
  have hne : ch.nodes ≠ [] := by
    intro hnil
    rw [hnil, List.map_nil, List.map_eq_nil_iff] at hnodes
    exact hpath.ne_nil hnodes
  rw [hreason, Analysis.source_search] at hlines
  exact ⟨path, ch, b.frames ch.nodes, hroute, hch, hnodes, hlines,
    Basis.words_frames hne (hs.isChain_nodes hg hpath hnodes)⟩

/-- Two methods of a program and one that dispatch leads to. -/
def Program.labelled : Program where
  methods := [.named "App.Program" "Main", .named "App.Program" "Run",
    { Method.named "App.Shape" "Draw" with modifiers := { isVirtual := true } }]

/-- Each method calls the next one, and accesses its static fields. -/
def Facts.labelled : Facts where
  directCalls := [(0, 1)]
  virtualCalls := [(1, 2)]
  fieldAccessDependencies := [(0, 1), (1, 2)]

/-- The search from the last method for the first. -/
def Constraints.labelled : Constraints where
  isSource := (· == 2)
  isDestination := (· == 0)

/-- The call by dispatch came before the access, and the other call needs no label. -/
theorem chain_words_route_labelled :
    ∃ s, (Snapshot.take (.single 0 2) .labelled (Inquiry.direct (.single 0 2) .labelled)
        (.build .labelled .labelled) ()).1 = .ok s ∧
      2 < s.size ∧ (search s.callers .labelled 2).distance? 0 = some 2 ∧
      ∃ ch lines, Basis.chain ⟨.labelled, .build .labelled .labelled, s⟩
          (search s.callers .labelled 2) 0 = .ok ch ∧
        ch.lines = "---------- (KnownReflection)" :: lines ∧
        lines = ["App.Shape::Draw() -> System.Void", "-- virtual call",
          "App.Program::Run() -> System.Void", "App.Program::Main() -> System.Void"] ∧
        Basis.Words ⟨.labelled, .build .labelled .labelled, s⟩ ch.nodes lines := by
  have hlines : (Snapshot.take (.single 0 2) .labelled (Inquiry.direct (.single 0 2) .labelled)
      (.build .labelled .labelled) ()).1.toOption.map (fun s =>
        (decide (2 < s.size), (search s.callers .labelled 2).distance? 0,
          (Basis.chain ⟨.labelled, .build .labelled .labelled, s⟩
            (search s.callers .labelled 2) 0).toOption.map Chain.lines)) =
      some (true, some 2, some ["---------- (KnownReflection)", "App.Shape::Draw() -> System.Void",
        "-- virtual call", "App.Program::Run() -> System.Void",
        "App.Program::Main() -> System.Void"]) := by
    decide +kernel
  obtain ⟨s, htake, hs⟩ := exists_ok_of_map_toOption hlines
  simp only [Prod.mk.injEq] at hs
  obtain ⟨hsize, hreached, hchain⟩ := hs
  have hsource : 2 < s.size := of_decide_eq_true hsize
  obtain ⟨path, ch, lines, -, hch, -, hheader, hwords⟩ :=
    chain_words_route .labelled .labelled [] (.taken _ _ _ _ htake) hsource hreached
  refine ⟨s, htake, hsource, hreached, ch, lines, hch, ?_⟩
  have hall : ch.lines = _ := Option.some.inj ((congrArg (·.toOption.map Chain.lines) hch).symm.trans
    hchain)
  rw [hheader] at hall
  obtain ⟨hfirst, rfl⟩ := List.cons.inj hall
  exact ⟨hfirst ▸ hheader, rfl, hwords⟩

end CallAudit

import CallAudit.Proofs.Analysis.Chains
import CallAudit.Proofs.Analysis.Constraints
import CallAudit.Proofs.Dependency.Edges
import Mathlib

/-!
# Reported chains are justified

What a chain claims, said in terms of the facts and the classifier alone (`Justified`): where it starts
and ends, what stands between, and why one node leads to the next.  Every chain that an analysis reports
is justified (`reported_chains_justified`).
-/

namespace CallAudit

variable {options : AnalysisOptions} {program : Program} {facts : Facts} {c : Classifier}
  {n x y : Node}

/-! ## What the facts say about a hop -/

/-- Some fact says that the second node depends on the first, and no call between the two is
understood. -/
inductive FactHop (program : Program) (facts : Facts) : (dependency dependent : Node) → Prop
  | directCall {caller callee : MethodId} : (caller, callee) ∈ facts.directCalls →
      (caller, callee) ∉ facts.resolvedReflectionCalls →
      FactHop program facts (.method callee) (.method caller)
  | virtualCall {caller callee : MethodId} : (caller, callee) ∈ facts.virtualCalls →
      program.isVirtual callee = false → (caller, callee) ∉ facts.resolvedReflectionCalls →
      FactHop program facts (.method callee) (.method caller)
  | staticConstructor {type : TypeId} {constructor : MethodId} :
      (type, constructor) ∈ facts.staticConstructorDependencies →
      FactHop program facts (.method constructor) (.type type)
  | fieldAccess {accessor constructor : MethodId} :
      (accessor, constructor) ∈ facts.fieldAccessDependencies →
      FactHop program facts (.method constructor) (.method accessor)
  | typeReference {method : MethodId} {type : TypeId} : (method, type) ∈ facts.typeDependencies →
      FactHop program facts (.type type) (.method method)

/-- The second node is a constructor for objects that may run the first, which some dispatching call
may run. -/
structure ConstructorHop (program : Program) (facts : Facts) (dependency dependent : Node) : Prop where
  exists_rows : ∃ m constructor row constructorRow, dependency = .method m ∧
    dependent = .method constructor ∧ program.method? m = some row ∧
    program.method? constructor = some constructorRow ∧
    row.modifiers.isStatic = false ∧ row.modifiers.isConstructor = false ∧
    constructorRow.isInstanceConstructor = true ∧
    constructorRow.declaringType = row.declaringType
  dispatched : ∃ m caller callee, dependency = .method m ∧ (caller, callee) ∈ facts.virtualCalls ∧
    program.isVirtual callee = true ∧ program.isInterfaceMethod callee = false ∧
    Dispatch.MayRun program facts callee m

/-- Whether a chain may end at a node: an entry method or, if chains may stop there, a static
constructor that no field access leads to. -/
def MayEnd (options : AnalysisOptions) (program : Program) (facts : Facts) (c : Classifier)
    (n : Node) : Prop :=
  ∃ m, n = .method m ∧ (c.isEntry program m = true ∨
    options.stopAtUntrackedStaticConstructors = true ∧ program.isStaticConstructor m = true ∧
      ∀ accessor, (accessor, m) ∉ facts.fieldAccessDependencies)

/-- A chain that is right by the facts and by what the classifier says. -/
structure Justified (options : AnalysisOptions) (program : Program) (facts : Facts) (c : Classifier)
    (ch : Chain) : Prop where
  nodup : ch.nodes.Nodup
  start : ∃ m reason, ch.nodes[0]? = some (.method m) ∧
    c.reason? program m = .ok (some reason) ∧ ch.reason = some reason ∧
    ch.lines.head? = some (Basis.header (some reason))
  plain : ∀ i m, ch.nodes[i + 1]? = some (.method m) →
    c.reason? program m = .ok none ∧ c.isSafe program m = false
  ends : ∀ i n, ch.nodes[i]? = some n →
    (MayEnd options program facts c n ↔ i + 1 = ch.nodes.length)
  hops : ∀ i x y, ch.nodes[i]? = some x → ch.nodes[i + 1]? = some y →
    FactHop program facts x y ∨ i = 0 ∧ ConstructorHop program facts x y
  unsuppressed : ∀ i x y, ch.nodes[i]? = some x → ch.nodes[i + 1]? = some y →
    ¬Analysis.Suppressed options program x y
  nonvirtual : options.ignoreVirtualCallers = true → ∀ i m, ch.nodes[i + 1]? = some (.method m) →
    i + 2 < ch.nodes.length → program.isVirtual m = false

/-! ## What the edges say about a hop -/

theorem factHop_of_calledFor {e : Edge} (h : Graph.CalledFor program facts e)
    (hkind : e.kind ≠ .virtualCallToVirtual)
    (hresolved : Graph.isCallAmong facts.resolvedReflectionCalls e = false) :
    FactHop program facts e.target e.source := by
  cases h with
  | directCall hcall =>
    exact .directCall hcall (by simpa [Graph.isCallAmong, EdgeKind.isCall] using hresolved)
  | @virtualCall call e hcall hedge =>
    rcases hedge with ⟨hvirtual, rfl⟩ | ⟨-, -, t, -, rfl⟩
    · exact .virtualCall hcall hvirtual
        (by simpa [Graph.isCallAmong, EdgeKind.isCall] using hresolved)
    · exact absurd rfl hkind
  | staticConstructor hpair => exact .staticConstructor hpair
  | fieldAccess hpair => exact .fieldAccess hpair
  | typeReference hpair => exact .typeReference hpair

/-- An edge of the constructor pass leads to an interesting method. -/
theorem constructorHop_of_mem {e : Edge} {g : Graph} {targets : List MethodId}
    (htargets : ∀ m ∈ targets, Graph.DispatchedTo program facts m)
    (he : e ∈ Graph.constructionEdges c program g targets) :
    ConstructorHop program facts e.target e.source ∧
      (c.verdict program e.target).reason.isSome = true := by
  -- the row of the method says that it needs an object, the targets that a call may run it
  obtain ⟨m, row, constructor, hm, hwanted, hfinds, hrow, hconstructor, -, rfl⟩ :=
    Graph.mem_constructionEdges.mp he
  obtain ⟨constructorRow, hconstructorRow, hinstance, hdeclaring⟩ :=
    Program.mem_constructorsOf.mp hconstructor
  have hneeds : row.modifiers.isStatic = false ∧ row.modifiers.isConstructor = false := by
    rw [Graph.needsConstruction, hrow] at hwanted
    simp only [Option.any_some, Bool.and_eq_true, Bool.not_eq_true'] at hwanted
    exact hwanted.1
  obtain ⟨⟨caller, callee⟩, hcall, hvirtual, hinterface, hmem⟩ := htargets m hm
  refine ⟨⟨⟨m, constructor, row, constructorRow, rfl, rfl, hrow, hconstructorRow, hneeds.1,
    hneeds.2, hinstance, hdeclaring⟩, ?_⟩, hfinds⟩
  exact ⟨m, caller, callee, rfl, hcall, hvirtual, hinterface, Dispatch.mayRun_of_mem_targets hmem⟩

/-! ## Reading the constraints back -/

namespace Analysis

theorem isUntrackedStaticConstructor_iff {m : MethodId} :
    isUntrackedStaticConstructor program facts (.method m) = true ↔
      program.isStaticConstructor m = true ∧
        ∀ accessor, (accessor, m) ∉ facts.fieldAccessDependencies := by
  unfold isUntrackedStaticConstructor
  rw [Bool.and_eq_true, Bool.not_eq_true', List.any_eq_false]
  refine and_congr_right fun _ => ⟨?_, ?_⟩
  · exact fun hnone accessor hmem => hnone _ hmem (beq_self_eq_true m)
  · rintro hnone ⟨accessor, m'⟩ hmem hm
    obtain rfl : m' = m := eq_of_beq hm
    exact hnone accessor hmem

theorem endsAt_iff : EndsAt options program facts c n = true ↔ MayEnd options program facts c n := by
  unfold EndsAt MayEnd
  rw [Bool.or_eq_true, Bool.and_eq_true]
  cases n with
  | type t => simp [Classifier.verdict, isUntrackedStaticConstructor]
  | method m =>
    rw [isUntrackedStaticConstructor_iff]
    constructor
    · exact fun hends => ⟨m, rfl, hends⟩
    · rintro ⟨m', hm, hends⟩
      rwa [Node.method.inj hm]

/-- A node that the search is not blocked at is neither interesting nor safe. -/
theorem plain_of_not_blocks {g : Graph} {i : Nat} {m : MethodId}
    (hdecided : ∀ m, .method m ∈ g.nodes → ∃ reason, c.reason? program m = .ok reason)
    (hm : g.nodes[i]? = some (.method m))
    (hblocks : (constraints options program facts (Snapshot.judged c program g)).blocks i = false) :
    c.reason? program m = .ok none ∧ c.isSafe program m = false := by
  obtain ⟨reason, hreason⟩ := hdecided m (List.mem_of_getElem? hm)
  rw [Constraints.blocks_eq_false_iff, isBarred_judged hm, isSource_judged hm] at hblocks
  refine ⟨?_, hblocks.1⟩
  have hnone := hblocks.2 rfl
  rw [Classifier.verdict, hreason] at hnone
  rw [hreason]
  cases reason with
  | none => rfl
  | some reason => exact absurd hnone (by simp [Except.toOption])

end Analysis

/-! ## Chains -/

/-- An edge that stays is right by the facts, or leads from a constructor to an interesting method. -/
theorem Prepared.Reduced.hop_of_mem_edges {u : Prepared} {e : Edge} (hu : u.Reduced c program facts)
    (he : e ∈ u.prune.graph.edges) :
    FactHop program facts e.target e.source ∨ ConstructorHop program facts e.target e.source ∧
      (c.verdict program e.target).reason.isSome = true := by
  rcases (hu.mem_edges e).mp (hu.mem_edges_prune.mp he).1 with he | he
  · obtain ⟨hcalled, hkind, hresolved⟩ := mem_edges_withoutNeedlessCalls.mp he
    exact Or.inl (factHop_of_calledFor hcalled hkind hresolved)
  · exact Or.inr (constructorHop_of_mem
      (fun m hm => mem_virtualTargets_withoutNeedlessCalls.mp hm) he)

namespace Analysis.Routed

variable {p : Prepared} {e : Entry} {path : List Nat} {i : Nat}

theorem exists_number (h : Routed options program facts p e path) (hp : p.Judged c program)
    (hx : e.chain.nodes[i]? = some x) : ∃ a, path[i]? = some a ∧ p.graph.nodes[a]? = some x := by
  have hi := congrArg (·[i]?) h.nodes
  simp only [List.getElem?_map, hx, Option.map_some] at hi
  obtain ⟨a, ha, hax⟩ := Option.map_eq_some_iff.mp hi
  rw [hp.node?_eq] at hax
  exact ⟨a, ha, hax⟩

theorem length_eq (h : Routed options program facts p e path) :
    e.chain.nodes.length = path.length := by
  have hlen := congrArg List.length h.nodes
  rw [List.length_map, List.length_map] at hlen
  exact hlen.symm

theorem nodes_nodup (h : Routed options program facts p e path) (hp : p.Judged c program) :
    e.chain.nodes.Nodup := by
  rw [List.nodup_iff_injective_getElem]
  intro ⟨i, hi⟩ ⟨j, hj⟩ heq
  obtain ⟨a, ha, hax⟩ := h.exists_number hp (List.getElem?_eq_getElem hi)
  obtain ⟨b, hb, hbx⟩ := h.exists_number hp (List.getElem?_eq_getElem hj)
  -- the same node has the same number, and no number is on the path twice
  have hab : a = b := by
    rw [← Snapshot.idxOf_of_getElem? hp.consistent.nodes_nodup hax,
      ← Snapshot.idxOf_of_getElem? hp.consistent.nodes_nodup hbx]
    exact congrArg p.graph.nodes.idxOf heq
  have hlt : i < path.length := h.length_eq ▸ hi
  exact Fin.ext ((List.getElem?_inj hlt h.nodup).mp (ha.trans (hab ▸ hb.symm)))

/-- Past its first node, a chain is blocked nowhere. -/
theorem not_blocks (h : Routed options program facts p e path) {a : Nat}
    (ha : path[i + 1]? = some a) :
    (constraints options program facts p.snapshot).blocks a = false := by
  have hlt := (List.getElem?_eq_some_iff.mp ha).1
  -- the search says so of the last node, and the walk of every node before it
  by_cases hlast : i + 2 = path.length
  · have hend := h.permits.ends
    rw [List.getLast?_eq_getElem?, ← hlast, show i + 2 - 1 = i + 1 from rfl, ha] at hend
    obtain rfl := Option.some.inj hend
    rcases h.unblocked with hself | ⟨-, hblocks⟩
    · have hsingle := (hself ▸ h.permits).eq_singleton_of_nodup h.nodup
      rw [hsingle] at hlast
      exact absurd hlast (by simp)
    · exact hblocks
  · have hpass := h.permits.passes_of_getElem? (Nat.succ_pos i) (by omega) ha
    rw [Constraints.passes, Bool.and_eq_true, Bool.and_eq_true] at hpass
    simpa using hpass.1.1

/-- A chain ends at the first node where it may. -/
theorem isDestination_iff (h : Routed options program facts p e path) {a : Nat}
    (ha : path[i]? = some a) :
    isDestination options program facts p.snapshot a = true ↔ i + 1 = path.length := by
  have hlt := (List.getElem?_eq_some_iff.mp ha).1
  have hend := h.permits.ends
  rw [List.getLast?_eq_getElem?] at hend
  constructor
  · intro hdestination
    by_contra hne
    cases i with
    | zero =>
      -- a search whose source is a destination goes nowhere
      have hstart := h.permits.starts
      rw [List.head?_eq_getElem?, ha] at hstart
      obtain rfl := Option.some.inj hstart
      rcases h.unblocked with hself | ⟨hnot, -⟩
      · have hsingle := (hself ▸ h.permits).eq_singleton_of_nodup h.nodup
        rw [hsingle] at hne
        exact hne rfl
      · rw [hdestination] at hnot
        exact absurd hnot (by simp)
    | succ i =>
      -- between its ends, a walk passes no destination
      have hpass := h.permits.passes_of_getElem? (Nat.succ_pos i) (by omega) ha
      rw [Constraints.passes, Bool.and_eq_true, Bool.and_eq_true] at hpass
      have hnot : isDestination options program facts p.snapshot a = false :=
        (Bool.not_eq_true' _).mp hpass.1.2
      rw [hdestination] at hnot
      exact absurd hnot (by simp)
  · intro hlast
    rw [← hlast, Nat.add_sub_cancel, ha] at hend
    rw [Option.some.inj hend]
    exact h.destination

/-- A chain starts at a method that the classifier finds, and says why. -/
theorem starts (h : Routed options program facts p e path) (hp : p.Judged c program) :
    ∃ m reason, e.chain.nodes[0]? = some (.method m) ∧ c.reason? program m = .ok (some reason) ∧
      e.chain.reason = some reason ∧ e.chain.lines.head? = some (Basis.header (some reason)) := by
  obtain ⟨m, reason, hn, hreason, hverdict⟩ := hp.exists_reason h.interesting
  rw [← h.reason] at hverdict
  have hfirst := h.source?
  rw [hp.node?_eq, hn, Chain.source?, List.head?_eq_getElem?] at hfirst
  refine ⟨m, reason, hfirst, hreason, hverdict, ?_⟩
  rw [h.lines, hverdict]
  rfl

/-- Past its first node, a chain meets nothing interesting and nothing safe. -/
theorem plain (h : Routed options program facts p e path) (hp : p.Judged c program) {m : MethodId}
    (hm : e.chain.nodes[i + 1]? = some (.method m)) :
    c.reason? program m = .ok none ∧ c.isSafe program m = false := by
  obtain ⟨a, ha, ham⟩ := h.exists_number hp hm
  have hblocks := h.not_blocks ha
  rw [hp.snapshot_eq] at hblocks
  exact plain_of_not_blocks hp.decided ham hblocks

theorem mayEnd_iff (h : Routed options program facts p e path) (hp : p.Judged c program)
    (hn : e.chain.nodes[i]? = some n) :
    MayEnd options program facts c n ↔ i + 1 = e.chain.nodes.length := by
  obtain ⟨a, ha, han⟩ := h.exists_number hp hn
  have hends : isDestination options program facts p.snapshot a =
      EndsAt options program facts c n := by
    rw [hp.snapshot_eq]
    exact isDestination_judged han
  rw [h.length_eq, ← h.isDestination_iff ha, ← endsAt_iff, hends]

/-- Two nodes that follow each other in a chain are the ends of an edge. -/
theorem exists_edge (h : Routed options program facts p e path) (hp : p.Judged c program)
    (hx : e.chain.nodes[i]? = some x) (hy : e.chain.nodes[i + 1]? = some y) :
    ∃ edge ∈ p.graph.edges, edge.target = x ∧ edge.source = y := by
  obtain ⟨a, ha, hax⟩ := h.exists_number hp hx
  obtain ⟨b, hb, hby⟩ := h.exists_number hp hy
  have hcaller := (h.permits.crosses_of_getElem? ha hb).1
  rw [hp.snapshot_eq] at hcaller
  obtain ⟨edge, hedge, hsource, htarget⟩ := (Snapshot.mem_callers_iff hp.consistent).mp hcaller
  exact ⟨edge, hedge, Option.some.inj (htarget.symm.trans hax),
    Option.some.inj (hsource.symm.trans hby)⟩

theorem not_suppressed (h : Routed options program facts p e path) (hp : p.Judged c program)
    (hx : e.chain.nodes[i]? = some x) (hy : e.chain.nodes[i + 1]? = some y) :
    ¬Suppressed options program x y := by
  obtain ⟨a, ha, hax⟩ := h.exists_number hp hx
  obtain ⟨b, hb, hby⟩ := h.exists_number hp hy
  have hallowed := (h.permits.crosses_of_getElem? ha hb).2
  rw [hp.snapshot_eq] at hallowed
  rw [← isForbidden_judged hp.consistent.nodes_nodup hax hby, hallowed]
  exact Bool.false_ne_true

/-- Between its ends, a chain that ignores virtual callers meets none. -/
theorem nonvirtual (h : Routed options program facts p e path) (hp : p.Judged c program)
    (hignore : options.ignoreVirtualCallers = true) {m : MethodId}
    (hm : e.chain.nodes[i + 1]? = some (.method m)) (hlt : i + 2 < e.chain.nodes.length) :
    program.isVirtual m = false := by
  obtain ⟨a, ha, ham⟩ := h.exists_number hp hm
  rw [h.length_eq] at hlt
  have hpass := h.permits.passes_of_getElem? (Nat.succ_pos i) hlt ha
  rw [Constraints.passes, Bool.and_eq_true, hp.snapshot_eq, isDeadEnd_judged ham, hignore] at hpass
  simpa [IsVirtual, Node.method?] using hpass.2

end Analysis.Routed

/-- The chain of a route through a pruned graph is justified. -/
theorem Prepared.Reduced.justified {u : Prepared} {e : Entry} {path : List Nat}
    (hu : u.Reduced c program facts)
    (hpath : Analysis.Routed options program facts u.prune e path) :
    Justified options program facts c e.chain := by
  have hp := hu.prune
  refine ⟨hpath.nodes_nodup hp, hpath.starts hp, fun i m hm => hpath.plain hp hm,
    fun i n hn => hpath.mayEnd_iff hp hn, ?_, fun i x y hx hy => hpath.not_suppressed hp hx hy,
    fun hignore i m hm hlt => hpath.nonvirtual hp hignore hm hlt⟩
  intro i x y hx hy
  obtain ⟨edge, hedge, rfl, rfl⟩ := hpath.exists_edge hp hx hy
  rcases hu.hop_of_mem_edges hedge with hfact | ⟨hconstructor, hfinds⟩
  · exact Or.inl hfact
  refine Or.inr ⟨?_, hconstructor⟩
  -- only the first node of a chain is interesting
  cases i with
  | zero => rfl
  | succ i =>
    obtain ⟨m, reason, hm, hreason⟩ := Classifier.finds_iff.mpr hfinds
    rw [hm] at hx
    rw [(hpath.plain hp hx).1] at hreason
    exact absurd hreason (by simp)

/-- Every chain that an analysis reports is justified.  The chains are those that the summary counts
and, where they are neither grouped nor in JSON, those that the output consists of. -/
theorem reported_chains_justified {sink sink' : Sink} {a : Analysis}
    (h : Analysis.run options program facts c sink = (.ok a, sink')) :
    ∃ p es, Prepared.of c program facts = .ok p ∧
      Analysis.reported options program facts p = .ok es ∧ a.summary.chains = es.length ∧
      (options.json = false → options.grouping = .none → sink'.written =
        (es.map Entry.chain).foldl (fun text ch => text ++ ch.paragraph) sink.written) ∧
      ∀ e ∈ es, Justified options program facts c e.chain := by
  obtain ⟨p, es, hp, hes, -, hsummary, hwritten⟩ := Analysis.run_ok h
  refine ⟨p, es, hp, hes, ?_, hwritten, ?_⟩
  · rw [hsummary]
    show (Analysis.ledgerOf options program p es).chainCount = es.length
    rw [Analysis.ledgerOf, Ledger.chainCount_enterAll]
    exact Nat.zero_add _
  · intro e he
    obtain ⟨u, -, hu, rfl⟩ := Prepared.of_ok hp
    obtain ⟨path, hpath⟩ := Analysis.reported_route hu.prune hes he
    exact hu.justified hpath

/-- The one chain leads from the widget's method by way of its constructor to the program. -/
theorem reported_chains_justified_drawing :
    ∃ a sink' p es, Analysis.run {} .drawing .drawing (.single 0 3) {} = (.ok a, sink') ∧
      Analysis.reported {} .drawing .drawing p = .ok es ∧ es.length = 1 ∧
      ∀ e ∈ es, Justified {} Program.drawing Facts.drawing (.single 0 3) e.chain := by
  have hchains : (Analysis.run {} .drawing .drawing (.single 0 3) {}).1.toOption.map
      (·.summary.chains) = some 1 := by cbv
  generalize hrun : Analysis.run {} .drawing .drawing (.single 0 3) {} = outcome at hchains
  obtain ⟨result, sink'⟩ := outcome
  cases result with
  | error e => exact absurd hchains (by simp [Except.toOption])
  | ok a =>
    obtain ⟨p, es, -, hes, hcount, -, hjustified⟩ := reported_chains_justified hrun
    have hone : a.summary.chains = 1 := Option.some.inj hchains
    exact ⟨a, sink', p, es, rfl, hes, hcount.symm.trans hone, hjustified⟩

end CallAudit

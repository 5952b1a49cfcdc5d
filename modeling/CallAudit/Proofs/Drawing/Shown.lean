import CallAudit.Proofs.Dependency.Simple
import CallAudit.Proofs.Drawing.Reading

/-!
# What drawings show

The drawing of a prepared graph, read back, shows the graph once: every node with its text and the
colour that the classifier's answers call for, and one arrow for every ordered pair of joined nodes,
solid if some call joins them and else dashed, with the kind of the edge that arrived first
(`drawing_shows_graph`).
-/

namespace CallAudit.Drawing

/-! ## Names -/

/-- What the name of a node starts with, and its number. -/
def nameParts : Node → Char × Nat
  | .method m => ('m', m)
  | .type t => ('t', t)

theorem toList_name (n : Node) :
    (name n).toList = (nameParts n).1 :: Nat.toDigits 10 (nameParts n).2 := by
  cases n with
  | method m =>
    rw [name, String.toList_append, Nat.toString_eq_repr, Nat.toList_repr]
    rfl
  | type t =>
    rw [name, String.toList_append, Nat.toString_eq_repr, Nat.toList_repr]
    rfl

theorem nameParts_injective : Function.Injective nameParts := by
  intro a b h
  cases a <;> cases b <;> simp_all [nameParts]

theorem name_injective : Function.Injective name := by
  intro a b h
  have hlist := congrArg String.toList h
  rw [toList_name, toList_name] at hlist
  obtain ⟨hfirst, hdigits⟩ := List.cons.inj hlist
  have hnumber := congrArg (fun digits => Nat.ofDigitChars 10 digits 0) hdigits
  rw [Nat.ofDigitChars_ten_toDigits, Nat.ofDigitChars_ten_toDigits] at hnumber
  exact nameParts_injective (Prod.ext hfirst hnumber)

/-- No node is named as what holds of all nodes is. -/
theorem name_ne_node (n : Node) : name n ≠ "node" := by
  intro h
  have hlist : (name n).toList = ['n', 'o', 'd', 'e'] := congrArg String.toList h
  rw [toList_name] at hlist
  have hfirst : (nameParts n).1 = 'n' := (List.cons.inj hlist).1
  cases n with
  | method m => exact absurd hfirst (show 'm' ≠ 'n' by decide)
  | type t => exact absurd hfirst (show 't' ≠ 'n' by decide)

theorem scans_name (n : Node) : Scans .between (name n).toList [] (.word (name n).toList) := by
  rw [toList_name]
  refine scans_word ?_ fun d hd => ?_
  · cases n <;> rfl
  · have hdigit : d.isDigit = true := Nat.isDigit_of_mem_toDigits (by decide) (by decide) hd
    simp [isWordChar, Char.isAlphanum, hdigit]

theorem scans_quoted (label : String) :
    Scans .between (quoted label).toList [.label label.toList] .between := by
  have htext : (quoted label).toList = '"' :: (escape label.toList ++ ['"']) := by
    simp only [quoted, String.toList_append, String.toList_ofList, List.append_assoc]
    rfl
  rw [htext]
  exact scans_label label.toList

/-! ## Lines -/

/-- What is said of a node of this shape beyond what holds of all. -/
def shapeAttributes : Node → List Attribute
  | .method _ => []
  | .type _ => [("shape", "ellipse")]

theorem scans_fill (s : Snapshot) (n : Node) :
    Scans .between (fill s n).toList [] (.word (fill s n).toList) := by
  unfold fill
  split
  · rfl
  split
  · rfl
  split
  · rfl
  split <;> rfl

/-- What is said of the shape of a node, and the end of its line. -/
def shapeTokens : Node → List Token
  | .method _ => [.mark .closeBracket]
  | .type _ => [.mark .comma, .word "shape".toList, .mark .equals, .word "ellipse".toList,
      .mark .closeBracket]

theorem scans_shape (n : Node) (f : List Char) :
    Scans (.word f) ((shape n).toList ++ "];\n".toList)
      (.word f :: shapeTokens n ++ [.mark .semicolon]) .between := by
  -- the word before is left open, since the scanner would else go into the text that it stands for
  cases n with
  | method m => rfl
  | type t =>
    show Scans (.word f) (", shape=ellipse".toList ++ "];\n".toList) _ .between
    rfl

section

variable {w w' f : List Char}

/-- The line of a node up to its label. -/
theorem scans_labelFront (hw : Scans .between w [] (.word w)) :
    Scans .between ("  ".toList ++ w ++ " [label=".toList)
      [.word w, .mark .openBracket, .word "label".toList, .mark .equals] .between := by
  have hblank : Scans .between "  ".toList [] .between := rfl
  have hlabel : Scans (.word w) " [label=".toList
      [.word w, .mark .openBracket, .word "label".toList, .mark .equals] .between := rfl
  exact (hblank.append hw).append hlabel

theorem scans_colour (hf : Scans .between f [] (.word f)) :
    Scans .between (", fillcolor=".toList ++ f)
      [.mark .comma, .word "fillcolor".toList, .mark .equals] (.word f) := by
  have hfill : Scans .between ", fillcolor=".toList
      [.mark .comma, .word "fillcolor".toList, .mark .equals] .between := rfl
  exact hfill.append hf

/-- The line of an arrow up to what is said of it. -/
theorem scans_arrowFront (hw : Scans .between w [] (.word w)) (hw' : Scans .between w' [] (.word w')) :
    Scans .between ("  ".toList ++ w ++ " -> ".toList ++ w') [.word w, .arrow] (.word w') := by
  have hblank : Scans .between "  ".toList [] .between := rfl
  have harrow : Scans (.word w) " -> ".toList [.word w, .arrow] .between := rfl
  exact ((hblank.append hw).append harrow).append hw'

end

theorem attributes?_shapeTokens (n : Node) (f : List Char) :
    attributes? (.word "fillcolor".toList :: .mark .equals :: .word f :: shapeTokens n) =
      some (("fillcolor", String.ofList f) :: shapeAttributes n) := by
  cases n <;> rfl

theorem single_shapeTokens (n : Node) : Single (shapeTokens n) := by
  cases n <;> simp [shapeTokens, Single]

theorem says_nodeLine (program : Program) (s : Snapshot) (n : Node) :
    Says (nodeLine program s n).toList
      [.node (name n) ([("label", program.display n), ("fillcolor", fill s n)] ++
        shapeAttributes n)] := by
  have htext : (nodeLine program s n).toList = "  ".toList ++ (name n).toList ++ " [label=".toList ++
      (quoted (program.display n)).toList ++ (", fillcolor=".toList ++ (fill s n).toList ++
      ((shape n).toList ++ "];\n".toList)) := by
    simp only [nodeLine, String.toList_append, List.append_assoc]
  rw [htext]
  have hline : Scans .between _ ((.word (name n).toList :: .mark .openBracket ::
      .word "label".toList :: .mark .equals :: .label (program.display n).toList :: .mark .comma ::
      .word "fillcolor".toList :: .mark .equals :: .word (fill s n).toList :: shapeTokens n) ++
      [.mark .semicolon]) .between :=
    ((scans_labelFront (scans_name n)).append (scans_quoted (program.display n))).append
      ((scans_colour (scans_fill s n)).append (scans_shape n (fill s n).toList))
  refine .single hline ?_ ?_
  · simpa [Single] using single_shapeTokens n
  · simp only [Statement.ofTokens?, attributes?, attributes?_shapeTokens, Token.text?,
      String.ofList_toList, if_neg (name_ne_node n)]
    rfl

/-- The statement that is drawn for an edge. -/
def arrowStatement (e : Edge) : Statement :=
  .arrow (name e.source) (name e.target)
    (if e.kind.isCall then [] else [("style", "dashed"), ("label", e.kind.display)])

theorem says_arrowLine (e : Edge) : Says (arrowLine e).toList [arrowStatement e] := by
  have hfront := scans_arrowFront (scans_name e.source) (scans_name e.target)
  unfold arrowLine arrowStatement
  split
  · have hback : ∀ w, Scans (.word w) ";\n".toList [.word w, .mark .semicolon] .between :=
      fun _ => rfl
    have hline : Scans .between _ ([.word (name e.source).toList, .arrow,
        .word (name e.target).toList] ++ [.mark .semicolon]) .between := hfront.append (hback _)
    simp only [String.toList_append]
    refine .single hline (by simp [Single]) ?_
    simp only [Statement.ofTokens?, String.ofList_toList]
  · have hback : ∀ w, Scans (.word w) (" [style=dashed, label=\"".toList ++ e.kind.display.toList ++
          "\"];\n".toList)
        [.word w, .mark .openBracket, .word "style".toList, .mark .equals, .word "dashed".toList,
          .mark .comma, .word "label".toList, .mark .equals, .label e.kind.display.toList,
          .mark .closeBracket, .mark .semicolon] .between := by
      intro w
      cases e.kind <;> rfl
    have hline : Scans .between _ ([.word (name e.source).toList, .arrow,
        .word (name e.target).toList, .mark .openBracket, .word "style".toList, .mark .equals,
        .word "dashed".toList, .mark .comma, .word "label".toList, .mark .equals,
        .label e.kind.display.toList, .mark .closeBracket] ++ [.mark .semicolon]) .between :=
      hfront.append (hback _)
    simp only [String.toList_append]
    refine .single hline (by simp [Single]) ?_
    simp only [Statement.ofTokens?, attributes?, Token.text?, String.ofList_toList]
    rfl

/-! ## Colours -/

/-- What a verdict is drawn as: the first word of it that holds. -/
def colour (v : Verdict) : String :=
  if v.reason.isSome then "lightcoral"
  else if v.entry then "lightgreen"
  else if v.safe then "lightblue"
  else "white"

theorem fill_eq {c : Classifier} {program : Program} {p : Prepared} {n : Node}
    (hp : p.Judged c program) (hn : n ∈ p.graph.nodes) :
    fill p.snapshot n = colour (c.verdict program n) := by
  have hverdict : p.snapshot.verdict (p.graph.nodes.idxOf n) = c.verdict program n := by
    rw [hp.snapshot_eq]
    exact Snapshot.verdict_of_node (Snapshot.getElem?_idxOf hn)
  rw [fill, hp.index?_eq_some_iff.mpr (Snapshot.getElem?_idxOf hn)]
  simp only [Snapshot.isInteresting, Snapshot.isEntry, Snapshot.isSafe, hverdict]
  rfl

/-! ## The whole drawing -/

/-- What is said before the nodes. -/
def preamble : List Statement :=
  [.setting "rankdir" "LR",
    .defaults [("shape", "box"), ("style", "filled"), ("fontname", "JetBrains Mono")]]

/-- The statement that a node is to be drawn by: its text, the colour that the classifier's answers call
for, and its shape. -/
def nodeStatement (c : Classifier) (program : Program) (n : Node) : Statement :=
  .node (name n)
    ([("label", program.display n), ("fillcolor", colour (c.verdict program n))] ++ shapeAttributes n)

/-- The statement that all edges from one node to another are to be drawn by. -/
inductive Arrow (g : Graph) (a b : Node) : Statement → Prop
  | solid (hcalls : g.Calls a b) : Arrow g a b (.arrow (name a) (name b) [])
  | dashed {e : Edge} (hcalls : ¬ g.Calls a b) (hsource : e.source = a) (htarget : e.target = b)
      (hearliest : g.IsEarliest e) :
      Arrow g a b (.arrow (name a) (name b) [("style", "dashed"), ("label", e.kind.display)])

theorem arrow_of_mem_simpleEdges {g : Graph} {e : Edge} (hg : g.Ordered) (he : e ∈ g.simpleEdges) :
    Arrow g e.source e.target (arrowStatement e) := by
  have hearliest := Graph.isEarliest_of_mem_simpleEdges he
  have hcalls := hearliest.isCall_iff hg.callsFirst
  unfold arrowStatement
  split
  · next hcall => exact .solid (hcalls.mp hcall)
  · next hcall => exact .dashed (mt hcalls.mpr hcall) rfl rfl hearliest

theorem says_rankdir : Says "\n  rankdir=LR;".toList [.setting "rankdir" "LR"] := by
  have hline : Scans .between "\n  rankdir=LR;".toList
      ([.word "rankdir".toList, .mark .equals, .word "LR".toList] ++ [.mark .semicolon])
      .between := rfl
  exact .single hline (by simp [Single]) rfl

theorem says_defaults :
    Says "\n  node [shape=box, style=filled, fontname=\"JetBrains Mono\"];".toList
      [.defaults [("shape", "box"), ("style", "filled"), ("fontname", "JetBrains Mono")]] := by
  have hline : Scans .between
      "\n  node [shape=box, style=filled, fontname=\"JetBrains Mono\"];".toList
      ([.word "node".toList, .mark .openBracket,
        .word "shape".toList, .mark .equals, .word "box".toList, .mark .comma,
        .word "style".toList, .mark .equals, .word "filled".toList, .mark .comma,
        .word "fontname".toList, .mark .equals, .label "JetBrains Mono".toList,
        .mark .closeBracket] ++ [.mark .semicolon]) .between := rfl
  exact .single hline (by simp [Single]) rfl

theorem read_text (program : Program) (p : Prepared) :
    read (text program p) = some ("trimtrace",
      preamble ++ p.graph.nodes.map (fun n => Statement.node (name n)
        ([("label", program.display n), ("fillcolor", fill p.snapshot n)] ++ shapeAttributes n)) ++
      p.graph.simpleEdges.map arrowStatement) := by
  have hopening : Scans .between "digraph trimtrace \x7b".toList
      [.word "digraph".toList, .word "trimtrace".toList, .mark .openBrace] .between := rfl
  have hhead : head.toList = "digraph trimtrace \x7b".toList ++ ("\n  rankdir=LR;".toList ++
      "\n  node [shape=box, style=filled, fontname=\"JetBrains Mono\"];".toList ++ ['\n'] ++ ['\n']) :=
    rfl
  have hpreamble := ((says_rankdir.append says_defaults).append .blank).append .blank
  have hnodes := Says.lines fun n (_ : n ∈ p.graph.nodes) => says_nodeLine program p.snapshot n
  have harrows := Says.lines fun e (_ : e ∈ p.graph.simpleEdges) => says_arrowLine e
  have hsays := ((hpreamble.append hnodes).append .blank).append harrows
  rw [List.append_nil, List.append_nil, List.append_nil] at hsays
  refine read_of_says hopening hsays ?_
  simp only [text, String.toList_append, hhead, List.append_assoc]
  rfl

/-- The drawing of a prepared graph shows it once.  Read back, it consists of one statement for every
node, under a name of its own, and one arrow for every ordered pair of nodes that some edge joins, as
many as the snapshot counts.  A node has its text as its label, and the colour of the first of what the
classifier says of it: interesting, entry point, safe.  An arrow is solid if some call joins the pair,
and else dashed with the kind of the edge that arrived first. -/
theorem drawing_shows_graph {c : Classifier} {program : Program} {facts : Facts} {p : Prepared}
    (h : Prepared.of c program facts = .ok p) :
    ∃ (pairs : List (Node × Node)) (arrows : List Statement),
      read (text program p) = some ("trimtrace",
        preamble ++ p.graph.nodes.map (nodeStatement c program) ++ arrows) ∧
      p.graph.nodes.Nodup ∧ Function.Injective name ∧
      List.Forall₂ (fun pair arrow => Arrow p.graph pair.1 pair.2 arrow) pairs arrows ∧
      pairs.Nodup ∧
      (∀ a b, (a, b) ∈ pairs ↔ ∃ e ∈ p.graph.edges, e.source = a ∧ e.target = b) ∧
      arrows.length = p.snapshot.edgeCount := by
  have hordered := Prepared.ordered_of_ok h
  obtain ⟨u, -, hu, rfl⟩ := Prepared.of_ok h
  have hjudged := hu.toJudged.prune
  refine ⟨Distinct.ofList u.prune.graph.joined, u.prune.graph.simpleEdges.map arrowStatement,
    ?_, hjudged.consistent.nodes_nodup, name_injective, ?_, Distinct.nodup_ofList _, ?_, ?_⟩
  · rw [read_text]
    have hnodes : ∀ n ∈ u.prune.graph.nodes, Statement.node (name n)
        ([("label", program.display n), ("fillcolor", fill u.prune.snapshot n)] ++
          shapeAttributes n) = nodeStatement c program n := by
      intro n hn
      rw [fill_eq hjudged hn, nodeStatement]
    rw [List.map_congr_left hnodes]
  · rw [← Graph.map_ends_simpleEdges, List.forall₂_map_left_iff, List.forall₂_map_right_iff,
      List.forall₂_same]
    exact fun e he => arrow_of_mem_simpleEdges hordered he
  · intro a b
    rw [Distinct.mem_ofList, Graph.joined, List.mem_map]
    simp only [Prod.mk.injEq]
  · rw [hjudged.snapshot_eq, Snapshot.judged, Snapshot.edgeCount_ofVerdicts hjudged.consistent,
      ← Graph.map_ends_simpleEdges, List.length_map, List.length_map]

/-- A method with a quote in its name, and a type. -/
def quotedProgram : Program where
  methods := [
    { key := "App.Program::Main()", declaringType := "App.Program", name := "Main" },
    { key := "App.Api::\"Get()", declaringType := "App.Api", name := "\"Get" }]
  types := [{ fullName := "App.Holder", «namespace» := "App" }]

/-- Two edges from the first method to the second, one of which is a call, and a way by the type. -/
def parallelFacts : Facts where
  directCalls := [(0, 1)]
  staticConstructorDependencies := [(0, 1)]
  fieldAccessDependencies := [(0, 1)]
  typeDependencies := [(0, 0)]

/-- Four edges are drawn as three arrows, and the quote in a name does not end a label. -/
theorem drawing_shows_graph_parallel :
    ∃ (p : Prepared) (pairs : List (Node × Node)) (arrows : List Statement),
      Prepared.of (.single 0 1) quotedProgram parallelFacts = .ok p ∧
      p.graph.edges.length = 4 ∧
      read (text quotedProgram p) = some ("trimtrace", preamble ++ [
        .node "m0" [("label", "App.Program::Main() -> System.Void"), ("fillcolor", "lightgreen")],
        .node "m1" [("label", "App.Api::\"Get() -> System.Void"), ("fillcolor", "lightcoral")],
        .node "t0" [("label", "App.Holder"), ("fillcolor", "white"), ("shape", "ellipse")]] ++
          arrows) ∧
      List.Forall₂ (fun pair arrow => Arrow p.graph pair.1 pair.2 arrow) pairs arrows ∧
      arrows.length = 3 := by
  have hnumbers : (Prepared.of (.single 0 1) quotedProgram parallelFacts).toOption.map (fun p =>
      (p.graph.edges.length, p.graph.nodes, p.snapshot.edgeCount)) =
        some (4, [.method 0, .method 1, .type 0], 3) := by decide +kernel
  obtain ⟨p, hp, hnumbers⟩ := exists_ok_of_map_toOption hnumbers
  simp only [Prod.mk.injEq] at hnumbers
  obtain ⟨hedges, hnodes, hcount⟩ := hnumbers
  obtain ⟨pairs, arrows, hread, -, -, harrows, -, -, hlength⟩ := drawing_shows_graph hp
  have hstatements : [.method 0, .method 1, .type 0].map
      (nodeStatement (.single 0 1) quotedProgram) = [
        .node "m0" [("label", "App.Program::Main() -> System.Void"), ("fillcolor", "lightgreen")],
        .node "m1" [("label", "App.Api::\"Get() -> System.Void"), ("fillcolor", "lightcoral")],
        .node "t0" [("label", "App.Holder"), ("fillcolor", "white"), ("shape", "ellipse")]] := by
    decide +kernel
  rw [hnodes, hstatements] at hread
  exact ⟨p, pairs, arrows, hp, hedges, hread, harrows, hlength.trans hcount⟩

end CallAudit.Drawing

import CallAudit.Analysis.Prepared

/-!
# Drawings

A prepared graph as a drawing in the DOT language: a box for every method and an ellipse for every
type, filled by what the classifier said, and one arrow for every pair of joined nodes. An arrow that
is no call is dashed and says what it is.
-/

namespace CallAudit.Drawing

/-! ## Labels -/

/-- The characters of a label as they stand between quotes: quotes and backslashes have a backslash
before them. -/
def escape : List Char → List Char
  | [] => []
  | c :: cs => if c = '"' ∨ c = '\\' then '\\' :: c :: escape cs else c :: escape cs

/-- A label between quotes. -/
def quoted (label : String) : String :=
  "\"" ++ String.ofList (escape label.toList) ++ "\""

/-! ## Statements -/

/-- The name of a node within the drawing. -/
def name : Node → String
  | .method m => s!"m{m}"
  | .type t => s!"t{t}"

/-- What a node is filled with. -/
def fill (s : Snapshot) (n : Node) : String :=
  match s.index? n with
  | none => "white"
  | some i =>
      if s.isInteresting i then "lightcoral"
      else if s.isEntry i then "lightgreen"
      else if s.isSafe i then "lightblue"
      else "white"

/-- What is said about the shape of a node beyond what holds of all. -/
def shape : Node → String
  | .method _ => ""
  | .type _ => ", shape=ellipse"

def nodeLine (program : Program) (s : Snapshot) (n : Node) : String :=
  "  " ++ name n ++ " [label=" ++ quoted (program.display n) ++ ", fillcolor=" ++ fill s n ++
    shape n ++ "];\n"

def arrowLine (e : Edge) : String :=
  "  " ++ name e.source ++ " -> " ++ name e.target ++
    (if e.kind.isCall then ";\n"
    else " [style=dashed, label=\"" ++ e.kind.display ++ "\"];\n")

/-- What stands before the nodes. -/
def head : String :=
  "digraph trimtrace \x7b\n  rankdir=LR;\n" ++
    "  node [shape=box, style=filled, fontname=\"JetBrains Mono\"];\n\n"

/-- The drawing of a prepared graph. -/
def text (program : Program) (p : Prepared) : String :=
  head ++ String.join (p.graph.nodes.map (nodeLine program p.snapshot)) ++ "\n" ++
    String.join (p.graph.simpleEdges.map arrowLine) ++ "\x7d\n"

end CallAudit.Drawing

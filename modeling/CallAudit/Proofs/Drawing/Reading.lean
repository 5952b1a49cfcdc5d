import CallAudit.Proofs.Drawing.Scanning
import Mathlib.Data.List.Forall2

/-!
# Drawings read back

The statements of a drawing, as a program that draws it takes them: settings, what holds of all nodes,
nodes and arrows, each ended by a semicolon.  `Says cs statements` says that a piece of text is read as
these statements, whatever follows it, and pieces are put together (`Says.append`); a drawing is what
stands between the braces (`read_of_says`).
-/

namespace CallAudit.Drawing

/-- A name and a value, such as the label of a node. -/
abbrev Attribute := String × String

inductive Statement where
  | setting (name value : String)
  /-- What holds of every node that does not say otherwise. -/
  | defaults (attributes : List Attribute)
  | node (name : String) (attributes : List Attribute)
  | arrow (source target : String) (attributes : List Attribute)
deriving DecidableEq, Repr

/-! ## Reading -/

/-- The text that a token stands for, if it stands for one. -/
def Token.text? : Token → Option String
  | .word cs => some (String.ofList cs)
  | .label cs => some (String.ofList cs)
  | .mark _ => none
  | .arrow => none

/-- Attributes after the opening bracket, up to the closing one and no further. -/
def attributes? : List Token → Option (List Attribute)
  | [.word name, .mark .equals, value, .mark .closeBracket] => do
      some [(String.ofList name, ← value.text?)]
  | .word name :: .mark .equals :: value :: .mark .comma :: ts => do
      some ((String.ofList name, ← value.text?) :: (← attributes? ts))
  | _ => none

/-- What the tokens of one statement say. -/
def Statement.ofTokens? : List Token → Option Statement
  | [.word name, .mark .equals, .word value] =>
      some (.setting (String.ofList name) (String.ofList value))
  | [.word source, .arrow, .word target] =>
      some (.arrow (String.ofList source) (String.ofList target) [])
  | .word source :: .arrow :: .word target :: .mark .openBracket :: ts =>
      (attributes? ts).map (.arrow (String.ofList source) (String.ofList target))
  | .word name :: .mark .openBracket :: ts =>
      (attributes? ts).map
        (if String.ofList name = "node" then .defaults else .node (String.ofList name))
  | _ => none

/-- The statements up to the closing brace, after some tokens of the first of them. -/
def statements? : (read : List Token) → List Token → Option (List Statement)
  | _, [] => none
  | read, t :: ts =>
      if t = .mark .semicolon then
        (Statement.ofTokens? read).bind fun statement =>
          (statements? [] ts).map (statement :: ·)
      else if t = .mark .closeBrace then if read = [] ∧ ts = [] then some [] else none
      else statements? (read ++ [t]) ts

/-- The name and the statements of a drawing. -/
def read (text : String) : Option (String × List Statement) :=
  match scan .between text.toList with
  | some (.word kind :: .word name :: .mark .openBrace :: ts, .between) =>
      if String.ofList kind = "digraph" then (statements? [] ts).map fun s => (String.ofList name, s)
      else none
  | _ => none

/-! ## Pieces of a drawing -/

/-- A piece of text is a series of statements, whatever follows it. -/
def Says (cs : List Char) (statements : List Statement) : Prop :=
  ∃ ts, Scans .between cs ts .between ∧
    ∀ rest, statements? [] (ts ++ rest) = (statements? [] rest).map (statements ++ ·)

/-- The tokens of one statement hold no mark that ends statements. -/
def Single (ts : List Token) : Prop :=
  .mark .semicolon ∉ ts ∧ .mark .closeBrace ∉ ts

theorem statements?_of_single {ts : List Token} (h : Single ts) (read rest : List Token) :
    statements? read (ts ++ .mark .semicolon :: rest) =
      (Statement.ofTokens? (read ++ ts)).bind fun statement =>
        (statements? [] rest).map (statement :: ·) := by
  induction ts generalizing read with
  | nil =>
    rw [List.nil_append, List.append_nil, statements?, if_pos rfl]
  | cons t ts ih =>
    obtain ⟨hsemicolon, hbrace⟩ := h
    rw [List.mem_cons, not_or] at hsemicolon hbrace
    rw [List.cons_append, statements?, if_neg (Ne.symm hsemicolon.1), if_neg (Ne.symm hbrace.1),
      ih ⟨hsemicolon.2, hbrace.2⟩, List.append_assoc, List.singleton_append]

variable {cs ds : List Char} {statements statements' : List Statement}

theorem Says.nil : Says [] [] :=
  ⟨[], .nil _, fun rest => by simp⟩

/-- A line may be empty. -/
theorem Says.blank : Says ['\n'] [] :=
  ⟨[], rfl, fun rest => by simp⟩

theorem Says.append (h : Says cs statements) (h' : Says ds statements') :
    Says (cs ++ ds) (statements ++ statements') := by
  obtain ⟨ts, hscan, hts⟩ := h
  obtain ⟨ts', hscan', hts'⟩ := h'
  refine ⟨ts ++ ts', hscan.append hscan', fun rest => ?_⟩
  rw [List.append_assoc, hts, hts', Option.map_map]
  congr 1
  funext later
  exact (List.append_assoc _ _ _).symm

/-- One statement with its semicolon. -/
theorem Says.single {ts : List Token} {statement : Statement}
    (hscan : Scans .between cs (ts ++ [.mark .semicolon]) .between) (hsingle : Single ts)
    (h : Statement.ofTokens? ts = some statement) : Says cs [statement] := by
  refine ⟨ts ++ [.mark .semicolon], hscan, fun rest => ?_⟩
  rw [List.append_assoc, List.singleton_append, statements?_of_single hsingle, List.nil_append, h]
  rfl

/-- Line after line, each of them a statement. -/
theorem Says.lines {α : Type} {line : α → String} {statement : α → Statement} {xs : List α}
    (h : ∀ x ∈ xs, Says (line x).toList [statement x]) :
    Says (String.join (xs.map line)).toList (xs.map statement) := by
  induction xs with
  | nil => exact .nil
  | cons x xs ih =>
    rw [List.map_cons, List.map_cons, String.join_cons, String.toList_append]
    exact (h x List.mem_cons_self).append (ih fun y hy => h y (List.mem_cons_of_mem x hy))

/-- A drawing is what its pieces say. -/
theorem read_of_says {text name : String} {opening : List Char}
    (hopening : Scans .between opening [.word "digraph".toList, .word name.toList, .mark .openBrace] .between)
    (h : Says cs statements) (htext : text.toList = opening ++ cs ++ ['\x7d', '\n']) :
    read text = some (name, statements) := by
  obtain ⟨ts, hscan, hts⟩ := h
  have hclosing : Scans .between ['\x7d', '\n'] [.mark .closeBrace] .between := rfl
  have hall := (hopening.append hscan).append hclosing
  rw [← htext, Scans] at hall
  have hbody : statements? [] (ts ++ [.mark .closeBrace]) = some statements := by
    rw [hts, statements?, if_neg (by decide), if_pos rfl, if_pos ⟨rfl, rfl⟩, Option.map_some,
      List.append_nil]
  simp only [List.cons_append, List.nil_append] at hall
  rw [read, hall]
  dsimp only
  rw [if_pos (String.ofList_toList), hbody, Option.map_some, String.ofList_toList]

/-- What stands between quotes ends no statement. -/
example : read "digraph g \x7b\n  a -> b [label=\"x\\\"; y\"];\n\x7d\n" =
    some ("g", [.arrow "a" "b" [("label", "x\"; y")]]) := by decide +kernel

end CallAudit.Drawing

import CallAudit.Error
import CallAudit.Program.Names

/-!
# Classifiers

The analysis does not decide which methods matter. It asks a classifier three questions about a
method: is it an entry point, is it marked safe, and why is it interesting, if it is. Only the last
can fail. How often that one is asked is itself of interest, so the passes that ask it take an
`Inquiry`, which may remember what was asked before.
-/

namespace CallAudit

/-- Why a method is interesting. -/
abbrev Reason := String

/-- The answer to why a method is interesting: a reason, none, or a failure to decide. -/
abbrev Answer := Except AuditError (Option Reason)

/-- The three questions, and the reasons that may be given. -/
structure Classifier where
  isEntry : Program → MethodId → Bool
  reason? : Program → MethodId → Answer
  isSafe : Program → MethodId → Bool
  knownReasons : List Reason := []

/-- Sorts texts by their characters and leaves one of each. -/
def sortedDistinct (texts : List String) : List String :=
  (texts.mergeSort (· ≤ ·)).eraseDups

/-! ## Asking -/

/-- A way of asking why methods are interesting, with a memory that each question may change. -/
abbrev Inquiry (σ : Type) := MethodId → σ → Answer × σ

namespace Inquiry

/-- Asks the classifier every time. -/
def direct (c : Classifier) (program : Program) : Inquiry Unit :=
  fun m _ => (c.reason? program m, ())

/-- The answers given so far; failures are not among them. -/
abbrev Memory := List (MethodId × Option Reason)

/-- Asks only about methods whose answer is not remembered, and remembers what is answered. -/
def remembering (c : Classifier) (program : Program) : Inquiry Memory :=
  fun m memory =>
    match memory.lookup m with
    | some answer => (.ok answer, memory)
    | none =>
        match c.reason? program m with
        | .ok answer => (.ok answer, (m, answer) :: memory)
        | .error e => (.error e, memory)

end Inquiry

end CallAudit

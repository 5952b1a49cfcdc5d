import CallAudit.Proofs.Program.Interning
import CallAudit.Proofs.Report.Agreement
import Mathlib.Logic.Equiv.Defs

/-!
# Rows at other places

Two programs may have the same rows at other places (`Program.Renamed`).  Where the keys are distinct
it is enough that the tables are the same up to order (`Program.exists_renaming`).  Whatever is known
about a row by way of its texts does not depend on the places.
-/

namespace CallAudit

/-- Other places for the rows of a program. -/
structure Renaming where
  method : Equiv.Perm MethodId
  type : Equiv.Perm TypeId

namespace Renaming

variable {ρ : Renaming} {m n : Node} {e e' : Edge}

/-- The renaming back. -/
def symm (ρ : Renaming) : Renaming := ⟨ρ.method.symm, ρ.type.symm⟩

def node (ρ : Renaming) : Node → Node
  | .method m => .method (ρ.method m)
  | .type t => .type (ρ.type t)

def edge (ρ : Renaming) (e : Edge) : Edge := ⟨ρ.node e.source, ρ.node e.target, e.kind⟩

@[simp] theorem symm_node_node : ρ.symm.node (ρ.node n) = n := by
  cases n <;> simp [node, symm]

@[simp] theorem node_symm_node : ρ.node (ρ.symm.node n) = n := by
  cases n <;> simp [node, symm]

@[simp] theorem symm_edge_edge : ρ.symm.edge (ρ.edge e) = e := by
  simp [edge]

@[simp] theorem edge_symm_edge : ρ.edge (ρ.symm.edge e) = e := by
  simp [edge]

theorem node_injective (ρ : Renaming) : Function.Injective ρ.node :=
  Function.LeftInverse.injective fun _ => symm_node_node

@[simp] theorem node_inj : ρ.node m = ρ.node n ↔ m = n := ρ.node_injective.eq_iff

end Renaming

/-! ## Programs -/

namespace Program

/-- The rows of `p` are those of `p'`, at other places. -/
structure Renamed (ρ : Renaming) (p p' : Program) : Prop where
  method? : ∀ m, p'.method? (ρ.method m) = p.method? m
  type? : ∀ t, p'.type? (ρ.type t) = p.type? t
  methodId? : ∀ key, p'.methodId? key = (p.methodId? key).map ρ.method
  typeId? : ∀ fullName, p'.typeId? fullName = (p.typeId? fullName).map ρ.type
  typeNamed? : ∀ fullName, p'.typeNamed? fullName = p.typeNamed? fullName
  typeCount : p'.types.length = p.types.length

/-! ### Finding the places -/

/-- The place in `ys` of what stands at a place in `xs`. -/
def placeAmong {α : Type} [DecidableEq α] (xs ys : List α) (i : Nat) : Nat :=
  (xs[i]?.map ys.idxOf).getD i

section

variable {α : Type} [DecidableEq α] {xs ys : List α} {i : Nat}

theorem getElem?_placeAmong (h : xs.Perm ys) : ys[placeAmong xs ys i]? = xs[i]? := by
  unfold placeAmong
  cases ha : xs[i]? with
  | none =>
    show ys[i]? = none
    rw [List.getElem?_eq_none_iff] at ha ⊢
    rwa [← h.length_eq]
  | some a =>
    rw [Option.map_some, Option.getD_some]
    exact Snapshot.getElem?_idxOf (h.subset (List.mem_of_getElem? ha))

theorem placeAmong_placeAmong (h : xs.Perm ys) (hnodup : xs.Nodup) :
    placeAmong ys xs (placeAmong xs ys i) = i := by
  rw [placeAmong, getElem?_placeAmong h, placeAmong]
  cases ha : xs[i]? with
  | none => rfl
  | some a =>
    rw [Option.map_some, Option.getD_some]
    exact Snapshot.idxOf_of_getElem? hnodup ha

/-- Lists with the same distinct elements differ by a permutation of the places. -/
theorem exists_perm_places (h : xs.Perm ys) (hnodup : xs.Nodup) :
    ∃ σ : Equiv.Perm Nat, ∀ i, ys[σ i]? = xs[i]? :=
  ⟨⟨placeAmong xs ys, placeAmong ys xs, fun _ => placeAmong_placeAmong h hnodup,
    fun _ => placeAmong_placeAmong h.symm (h.nodup hnodup)⟩, fun _ => getElem?_placeAmong h⟩

/-- Places that are found together under a permutation are the permuted ones. -/
theorem eq_map_of_iff {σ : Equiv.Perm Nat} {x y : Option Nat}
    (h : ∀ i, y = some (σ i) ↔ x = some i) : y = x.map σ := by
  cases hx : x with
  | some i => exact (h i).mpr hx
  | none =>
    cases hy : y with
    | none => rfl
    | some j =>
      have hj := (h (σ.symm j)).mp (by rw [hy, σ.apply_symm_apply])
      rw [hx] at hj
      exact absurd hj (by simp)

end

/-- Where keys and names are distinct, tables that are the same up to order differ in the places. -/
theorem exists_renaming {p p' : Program} (hp : p.Interned) (hp' : p'.Interned)
    (hmethods : p.methods.Perm p'.methods) (htypes : p.types.Perm p'.types) :
    ∃ ρ, Renamed ρ p p' := by
  obtain ⟨μ, hμ⟩ := exists_perm_places hmethods (List.Nodup.of_map _ hp.keys)
  obtain ⟨τ, hτ⟩ := exists_perm_places htypes (List.Nodup.of_map _ hp.names)
  have hmethod : ∀ m, p'.method? (μ m) = p.method? m := hμ
  have htype : ∀ t, p'.type? (τ t) = p.type? t := hτ
  refine ⟨⟨μ, τ⟩, hmethod, htype, ?_, ?_, ?_, htypes.length_eq.symm⟩
  · intro key
    refine eq_map_of_iff fun id => ?_
    rw [hp'.methodId?_eq_some_iff, hmethod, ← hp.methodId?_eq_some_iff]
  · intro fullName
    refine eq_map_of_iff fun id => ?_
    rw [hp'.typeId?_eq_some_iff, htype, ← hp.typeId?_eq_some_iff]
  · intro fullName
    ext row
    rw [hp'.typeNamed?_eq_some_iff, hp.typeNamed?_eq_some_iff, htypes.mem_iff]

/-! ### What is known by way of texts -/

namespace Renamed

variable {ρ : Renaming} {p p' : Program} {m : MethodId} {n : Node}

theorem symm (h : Renamed ρ p p') : Renamed ρ.symm p' p where
  method? := fun m => by rw [← h.method?, Renaming.symm, Equiv.apply_symm_apply]
  type? := fun t => by rw [← h.type?, Renaming.symm, Equiv.apply_symm_apply]
  methodId? := fun key => by simp [h.methodId?, Renaming.symm, Function.comp_def]
  typeId? := fun fullName => by simp [h.typeId?, Renaming.symm, Function.comp_def]
  typeNamed? := fun fullName => (h.typeNamed? fullName).symm
  typeCount := h.typeCount.symm

theorem declaringType? (h : Renamed ρ p p') (m : MethodId) :
    p'.declaringType? (ρ.method m) = p.declaringType? m := by
  unfold Program.declaringType?
  simp only [h.method?, h.typeNamed?]

theorem isVirtual (h : Renamed ρ p p') (m : MethodId) :
    p'.isVirtual (ρ.method m) = p.isVirtual m := by
  rw [Program.isVirtual, h.method?, Program.isVirtual]

theorem isInterfaceMethod (h : Renamed ρ p p') (m : MethodId) :
    p'.isInterfaceMethod (ρ.method m) = p.isInterfaceMethod m := by
  rw [Program.isInterfaceMethod, h.declaringType?, Program.isInterfaceMethod]

theorem isStaticConstructor (h : Renamed ρ p p') (m : MethodId) :
    p'.isStaticConstructor (ρ.method m) = p.isStaticConstructor m := by
  rw [Program.isStaticConstructor, h.method?, Program.isStaticConstructor]

theorem display (h : Renamed ρ p p') (n : Node) : p'.display (ρ.node n) = p.display n := by
  cases n with
  | method m => simp only [Program.display, Renaming.node, h.method?]
  | type t => simp only [Program.display, Renaming.node, h.type?]

theorem outermostNamespace? (h : Renamed ρ p p') (fullName : String) :
    p'.outermostNamespace? fullName = p.outermostNamespace? fullName := by
  have houtward : ∀ steps name, p'.outward steps name = p.outward steps name := by
    intro steps
    induction steps with
    | zero => exact fun name => rfl
    | succ steps ih =>
      intro name
      simp only [outward, enclosing?, h.typeNamed?, ih]
  unfold Program.outermostNamespace? outermostType
  rw [houtward, h.typeCount]
  simp only [h.typeNamed?]

theorem category (h : Renamed ρ p p') (n : Option Node) :
    Category.ofDestination p' (n.map ρ.node) = Category.ofDestination p n := by
  cases n with
  | none => rfl
  | some n =>
    cases n with
    | type t => rfl
    | method m =>
      simp only [Option.map_some, Renaming.node, Category.ofDestination, Category.ofType, h.method?,
        h.typeNamed?, h.outermostNamespace?]

theorem hitOf (h : Renamed ρ p p') (n : Option Node) :
    Note.hitOf p' (n.map ρ.node) = Note.hitOf p n := by
  cases n with
  | none => rfl
  | some n =>
    cases n with
    | type t => rfl
    | method m =>
      simp only [Option.map_some, Renaming.node, Note.hitOf, Option.bind_some, Node.method?,
        h.method?, h.outermostNamespace?]

end Renamed

end Program

/-! ## Facts -/

/-- The facts of `f` are those of `f'`, at other places. -/
structure Facts.Renamed (ρ : Renaming) (f f' : Facts) : Prop where
  directCalls : ∀ a b, (ρ.method a, ρ.method b) ∈ f'.directCalls ↔ (a, b) ∈ f.directCalls
  virtualCalls : ∀ a b, (ρ.method a, ρ.method b) ∈ f'.virtualCalls ↔ (a, b) ∈ f.virtualCalls
  overrides : ∀ a b, (ρ.method a, ρ.method b) ∈ f'.overrides ↔ (a, b) ∈ f.overrides
  staticConstructors : ∀ t b, (ρ.type t, ρ.method b) ∈ f'.staticConstructorDependencies ↔
    (t, b) ∈ f.staticConstructorDependencies
  fieldAccesses : ∀ a b, (ρ.method a, ρ.method b) ∈ f'.fieldAccessDependencies ↔
    (a, b) ∈ f.fieldAccessDependencies
  typeDependencies : ∀ a t, (ρ.method a, ρ.type t) ∈ f'.typeDependencies ↔
    (a, t) ∈ f.typeDependencies
  resolvedCalls : ∀ a b, (ρ.method a, ρ.method b) ∈ f'.resolvedReflectionCalls ↔
    (a, b) ∈ f.resolvedReflectionCalls

theorem Facts.Renamed.symm {ρ : Renaming} {f f' : Facts} (h : Renamed ρ f f') :
    Renamed ρ.symm f' f where
  directCalls := fun a b => by simp [← h.directCalls, Renaming.symm]
  virtualCalls := fun a b => by simp [← h.virtualCalls, Renaming.symm]
  overrides := fun a b => by simp [← h.overrides, Renaming.symm]
  staticConstructors := fun t b => by simp [← h.staticConstructors, Renaming.symm]
  fieldAccesses := fun a b => by simp [← h.fieldAccesses, Renaming.symm]
  typeDependencies := fun a t => by simp [← h.typeDependencies, Renaming.symm]
  resolvedCalls := fun a b => by simp [← h.resolvedCalls, Renaming.symm]

/-! ## Classifiers -/

/-- Of methods at other places `c'` says what `c` says. -/
structure Classifier.Renamed (ρ : Renaming) (p p' : Program) (c c' : Classifier) : Prop where
  isEntry : ∀ m, c'.isEntry p' (ρ.method m) = c.isEntry p m
  reason? : ∀ m, c'.reason? p' (ρ.method m) = c.reason? p m
  isSafe : ∀ m, c'.isSafe p' (ρ.method m) = c.isSafe p m
  knownReasons : c'.knownReasons = c.knownReasons

/-- Two programs with facts and classifiers that differ in nothing but places. -/
structure Renamed (ρ : Renaming) (p p' : Program) (f f' : Facts) (c c' : Classifier) : Prop where
  program : p.Renamed ρ p'
  facts : f.Renamed ρ f'
  classifier : c.Renamed ρ p p' c'

namespace Renamed

variable {ρ : Renaming} {p p' : Program} {f f' : Facts} {c c' : Classifier}

theorem symm (h : Renamed ρ p p' f f' c c') : Renamed ρ.symm p' p f' f c' c where
  program := h.program.symm
  facts := h.facts.symm
  classifier := {
    isEntry := fun m => by rw [← h.classifier.isEntry, Renaming.symm, Equiv.apply_symm_apply]
    reason? := fun m => by rw [← h.classifier.reason?, Renaming.symm, Equiv.apply_symm_apply]
    isSafe := fun m => by rw [← h.classifier.isSafe, Renaming.symm, Equiv.apply_symm_apply]
    knownReasons := h.classifier.knownReasons.symm }

theorem verdict (h : Renamed ρ p p' f f' c c') (n : Node) :
    c'.verdict p' (ρ.node n) = c.verdict p n := by
  cases n with
  | type t => rfl
  | method m =>
    rw [Renaming.node, Classifier.verdict, Classifier.verdict, h.classifier.isEntry,
      h.classifier.reason?, h.classifier.isSafe]

end Renamed

end CallAudit

import CallAudit.Proofs.Program.Interning
import CallAudit.Proofs.Text.Cut

/-!
# What a key gives away

The key of a method that nothing describes still tells which type declares it and what it is called.  A
key is cut at the first `::`, at the last blank before it and at the first parenthesis after it, and
each of these may occur in other parts of the key as well.  `Method.SpellsOut` says where they may not:
then a placeholder has the declaring type and the name that its key was put together of
(`Program.ensureMethod_writtenKey`).
-/

namespace CallAudit

namespace Method

/-! ## Keys put together -/

/-- A key with what leads up to the declaring type, such as the type of the result, and with what
follows the opening parenthesis, such as the parameters. -/
def writtenKey (lead declaringType name rest : String) : String :=
  lead ++ declaringType ++ "::" ++ name ++ "(" ++ rest

/-- Texts that are found again in the keys that are put together of them. -/
structure SpellsOut (lead declaringType name : String) : Prop where
  blank : lead = "" ∨ ∃ front, lead = front ++ " "
  noBlank : ' ' ∉ declaringType.toList
  noSeparator : ¬"::".toList <:+: (lead ++ declaringType).toList
  /-- A colon at the end would be taken for the first half of the separator. -/
  noColon : ¬":".toList <:+ (lead ++ declaringType).toList
  noParenthesis : '(' ∉ name.toList

section

variable {lead declaringType name : String}

namespace SpellsOut

theorem splitFirst?_writtenKey (h : SpellsOut lead declaringType name) (rest : String) :
    Text.splitFirst? "::" (writtenKey lead declaringType name rest) =
      some (lead ++ declaringType, name ++ "(" ++ rest) := by
  -- a separator that began in the last character before it would be over one character too early
  have hfirst : ¬"::".toList <:+: (lead ++ declaringType).toList ++ "::".toList.dropLast :=
    Cut.not_infix_concat_of_doubled h.noSeparator h.noColon
  have hkey : (writtenKey lead declaringType name rest).toList =
      (lead ++ declaringType).toList ++ "::".toList ++ (name ++ "(" ++ rest).toList := by
    simp only [writtenKey, String.toList_append, List.append_assoc]
  rw [Text.splitFirst?, hkey, Cut.splitFirst?_append (by decide) hfirst, Option.map_some]
  dsimp only
  rw [String.ofList_toList, String.ofList_toList]

theorem afterLast_eq (h : SpellsOut lead declaringType name) :
    Text.afterLast ' ' (lead ++ declaringType) = declaringType := by
  rw [Text.afterLast, String.toList_append]
  rcases h.blank with rfl | ⟨front, rfl⟩
  · rw [String.toList_empty, List.nil_append, Cut.afterLast_of_not_mem h.noBlank,
      String.ofList_toList]
  · -- the blank at the end of what leads up to the type is the last one
    have hblank : (front ++ " ").toList ++ declaringType.toList =
        front.toList ++ ' ' :: declaringType.toList := by
      rw [String.toList_append, List.append_assoc]
      rfl
    rw [hblank, Cut.afterLast_append h.noBlank, String.ofList_toList]

theorem beforeFirst_eq (h : SpellsOut lead declaringType name) (rest : String) :
    Text.beforeFirst '(' (name ++ "(" ++ rest) = name := by
  have hparenthesis : (name ++ "(" ++ rest).toList = name.toList ++ '(' :: rest.toList := by
    rw [String.toList_append, String.toList_append, List.append_assoc]
    rfl
  rw [Text.beforeFirst, hparenthesis, Cut.beforeFirst_append, Cut.beforeFirst_of_not_mem h.noParenthesis,
    String.ofList_toList]

theorem placeholder_writtenKey (h : SpellsOut lead declaringType name) (rest : String) :
    placeholder (writtenKey lead declaringType name rest) =
      { key := writtenKey lead declaringType name rest
        declaringType := declaringType
        name := name
        parameters := []
        returnType := ""
        modifiers := {}
        described := false } := by
  rw [placeholder, h.splitFirst?_writtenKey rest]
  dsimp only
  rw [h.afterLast_eq, h.beforeFirst_eq rest]

end SpellsOut

end

end Method

namespace Program

variable {p : Program}

/-! ## Types that come with a method -/

/-- The types that there were stay as they were. -/
theorem prefix_types_ensureDeclaringType (p : Program) (declaringType : String) :
    p.types <+: (p.ensureDeclaringType declaringType).types := by
  unfold ensureDeclaringType
  split
  · exact List.prefix_refl _
  · by_cases hmem : declaringType ∈ p.names
    · rw [ensureType_of_mem hmem]
    · rw [ensureType_of_not_mem hmem]
      exact List.prefix_append _ _

theorem mem_names_ensureDeclaringType {declaringType : String} (h : declaringType ≠ "") :
    declaringType ∈ (p.ensureDeclaringType declaringType).names := by
  rw [names_ensureDeclaringType, if_neg (by rwa [String.isEmpty_iff]), Distinct.mem_insert]
  exact Or.inr rfl

/-! ## Placeholders as they are spelled out -/

/-- Whatever stands before the last blank, in the name and after the first parenthesis, a key that is new
gets a placeholder that has the declaring type and the name that it was put together of, and neither
parameters nor modifiers nor a description.  The placeholder comes after the methods that there were,
and its declaring type has a place afterwards, unless it is empty.  Under its default key a method
is thus known by the declaring type and the name that it has. -/
theorem ensureMethod_writtenKey {lead declaringType name rest key : String}
    (hkey : key = Method.writtenKey lead declaringType name rest)
    (h : Method.SpellsOut lead declaringType name) (hnew : p.methodId? key = none) :
    ∃ (row : Method) (after : Program),
      p.ensureMethod key = (p.methods.length, after) ∧
      after.methodId? key = some p.methods.length ∧ after.method? p.methods.length = some row ∧
      row = { key, declaringType, name, parameters := [], returnType := "", modifiers := {},
              described := false } ∧
      after.methods = p.methods ++ [row] ∧ p.types <+: after.types ∧
      (declaringType ≠ "" → (after.typeId? declaringType).isSome) ∧
      (key = (Method.named declaringType name).key →
        row = { Method.named declaringType name with returnType := "", described := false }) := by
  have hensure := ensureMethod_eq_of_not_mem (methodId?_eq_none_iff.mp hnew)
  have hplace := methodId?_ensureMethod p key
  -- the row that is entered depends on the key alone
  have hrow : Method.placeholder key =
      { key, declaringType, name, parameters := [], returnType := "", modifiers := {},
        described := false } := by
    rw [hkey]
    exact h.placeholder_writtenKey rest
  rw [hensure] at hplace
  rw [hrow] at hensure hplace
  refine ⟨_, _, hensure, hplace, List.getElem?_concat_length, rfl, rfl,
    prefix_types_ensureDeclaringType p declaringType, fun hdeclared => ?_, fun hdefault => ?_⟩
  · rw [Option.isSome_iff_ne_none, ne_eq, typeId?_eq_none_iff, not_not]
    exact mem_names_ensureDeclaringType hdeclared
  · rw [hdefault]
    rfl

/-- A program that knows another method of the type. -/
def knowingFoo : Program where
  methods := [Method.named "App.Foo" "Bar"]
  types := [.placeholder "App.Foo"]

/-- Blanks before the type, the separator in the name and among the parameters, and parentheses after the
first one do not matter, and a default key needs nothing of it all. -/
theorem ensureMethod_writtenKey_of_both_forms :
    (∃ (row : Method) (after : Program),
      knowingFoo.ensureMethod
        "System.Int32 modopt (x) App.Foo::I::Run(System.Func (a) f, T::U u)" = (1, after) ∧
      after.method? 1 = some row ∧ row.declaringType = "App.Foo" ∧ row.name = "I::Run" ∧
      row.described = false) ∧
    ∃ after : Program, knowingFoo.ensureMethod "App.Foo::Run()" = (1, after) ∧
      after.method? 1 =
        some { Method.named "App.Foo" "Run" with returnType := "", described := false } := by
  constructor
  · have hkey : "System.Int32 modopt (x) App.Foo::I::Run(System.Func (a) f, T::U u)" =
        Method.writtenKey "System.Int32 modopt (x) " "App.Foo" "I::Run"
          "System.Func (a) f, T::U u)" := by decide +kernel
    have hspells : Method.SpellsOut "System.Int32 modopt (x) " "App.Foo" "I::Run" :=
      ⟨.inr ⟨"System.Int32 modopt (x)", by decide +kernel⟩, by decide, by decide, by decide,
        by decide⟩
    have hnew : knowingFoo.methodId?
        "System.Int32 modopt (x) App.Foo::I::Run(System.Func (a) f, T::U u)" = none := by
      decide +kernel
    obtain ⟨row, after, hensure, -, hmethod, rfl, -⟩ := ensureMethod_writtenKey hkey hspells hnew
    exact ⟨_, after, hensure, hmethod, rfl, rfl, rfl⟩
  · have hkey : "App.Foo::Run()" = Method.writtenKey "" "App.Foo" "Run" ")" := by decide +kernel
    have hspells : Method.SpellsOut "" "App.Foo" "Run" :=
      ⟨.inl rfl, by decide, by decide, by decide, by decide⟩
    have hnew : knowingFoo.methodId? "App.Foo::Run()" = none := by decide +kernel
    have hdefault : "App.Foo::Run()" = (Method.named "App.Foo" "Run").key := by decide +kernel
    obtain ⟨row, after, hensure, -, hmethod, -, -, -, -, hnamed⟩ :=
      ensureMethod_writtenKey hkey hspells hnew
    exact ⟨after, hensure, hmethod.trans (congrArg some (hnamed hdefault))⟩

end Program

end CallAudit

import CallAudit.Facts.Recording
import CallAudit.Proofs.Program.Interning

/-!
# What a document records

Recording a document enters a placeholder for everything that its tuples refer to and that it does not
describe (`program_ofDocument`).  The placeholders come after the described rows, in the order in which
they are first called for (`Program.referAll_eq`).  The facts are the tuples whose endpoints refer to
something, at the places that these have in the end, without repetitions and in order of arrival
(`facts_ofDocument`).
-/

namespace CallAudit

/-- A row that a text refers to, by its key or by its full name. -/
inductive Reference where
  | method (key : String)
  | type (fullName : String)

/-- The key of the method that a reference is to. -/
def Reference.key? : Reference → Option String
  | method key => some key
  | type _ => none

namespace Program

variable {p q : Program} {ref : Reference} {refs : List Reference} {key fullName : String}

/-- Enters a placeholder for what is referred to, if it is unknown. -/
def refer (p : Program) : Reference → Program
  | .method key => (p.ensureMethod key).2
  | .type fullName => (p.ensureType fullName).2

def referAll (p : Program) (refs : List Reference) : Program :=
  refs.foldl refer p

/-- The place of what is referred to. -/
def placeOf? (p : Program) : Reference → Option Nat
  | .method key => p.methodId? key
  | .type fullName => p.typeId? fullName

theorem referAll_append (p : Program) (refs refs' : List Reference) :
    p.referAll (refs ++ refs') = (p.referAll refs).referAll refs' :=
  List.foldl_append

theorem grows_refer (p : Program) : (ref : Reference) → Grows p (p.refer ref)
  | .method key => grows_ensureMethod p key
  | .type fullName => grows_ensureType p fullName

theorem grows_referAll (p : Program) (refs : List Reference) : Grows p (p.referAll refs) := by
  induction refs generalizing p with
  | nil => exact .refl p
  | cons ref refs ih => exact (grows_refer p ref).trans (ih _)

theorem Interned.referAll (h : p.Interned) (refs : List Reference) : (p.referAll refs).Interned := by
  induction refs generalizing p with
  | nil => exact h
  | cons ref refs ih =>
    refine ih ?_
    cases ref with
    | method key => exact h.ensureMethod key
    | type fullName => exact h.ensureType fullName

theorem Grows.placeOf? (h : Grows p q) {id : Nat} (hid : p.placeOf? ref = some id) :
    q.placeOf? ref = some id := by
  cases ref with
  | method key => exact h.methodId? hid
  | type fullName => exact h.typeId? hid

/-! ## Rows after references -/

/-- The types that a reference calls for: the one it is to, or the one that a new key gives away. -/
def CallsFor (p : Program) (fullName : String) : Reference → Prop
  | .method key =>
      key ∉ p.keys ∧ fullName.isEmpty = false ∧ (Method.placeholder key).declaringType = fullName
  | .type name => name = fullName

/-- The names of the types that a reference calls for. -/
def calledNames (p : Program) : Reference → List String
  | .method key =>
      if key ∈ p.keys ∨ (Method.placeholder key).declaringType.isEmpty then []
      else [(Method.placeholder key).declaringType]
  | .type fullName => [fullName]

theorem mem_calledNames : fullName ∈ p.calledNames ref ↔ p.CallsFor fullName ref := by
  cases ref with
  | type name => rw [calledNames, CallsFor, List.mem_singleton, eq_comm]
  | method key =>
    rw [calledNames, CallsFor]
    split
    · next hknown =>
      refine ⟨fun h => absurd h List.not_mem_nil, ?_⟩
      rintro ⟨hnew, hname, rfl⟩
      exact absurd hknown (by simp [hnew, hname])
    · next hnew =>
      rw [not_or, Bool.not_eq_true] at hnew
      rw [List.mem_singleton]
      exact ⟨by rintro rfl; exact ⟨hnew.1, hnew.2, rfl⟩, fun h => h.2.2.symm⟩

theorem keys_refer (p : Program) (ref : Reference) :
    (p.refer ref).keys = Distinct.insertAll p.keys ref.key?.toList := by
  cases ref with
  | method key => exact keys_ensureMethod p key
  | type fullName => exact congrArg (List.map Method.key) (methods_ensureType p fullName)

theorem names_refer (p : Program) (ref : Reference) :
    (p.refer ref).names = Distinct.insertAll p.names (p.calledNames ref) := by
  cases ref with
  | type fullName => exact names_ensureType p fullName
  | method key =>
    rw [refer, calledNames]
    by_cases hkey : key ∈ p.keys
    · rw [ensureMethod_of_mem hkey, if_pos (Or.inl hkey), Distinct.insertAll_nil]
    · have hnames : (p.ensureMethod key).2.names =
          (p.ensureDeclaringType (Method.placeholder key).declaringType).names := by
        rw [ensureMethod_of_not_mem hkey]
        rfl
      rw [hnames, names_ensureDeclaringType]
      simp only [hkey, false_or]
      split <;> rfl

theorem keys_referAll (p : Program) (refs : List Reference) :
    (p.referAll refs).keys = Distinct.insertAll p.keys (refs.filterMap Reference.key?) := by
  induction refs generalizing p with
  | nil => rfl
  | cons ref refs ih =>
    have hstep : p.referAll (ref :: refs) = (p.refer ref).referAll refs := rfl
    rw [hstep, ih, keys_refer, ← Distinct.insertAll_append]
    cases ref <;> rfl

theorem mem_keys_referAll :
    key ∈ (p.referAll refs).keys ↔ key ∈ p.keys ∨ .method key ∈ refs := by
  rw [keys_referAll, Distinct.mem_insertAll, List.mem_filterMap]
  refine or_congr Iff.rfl ⟨?_, fun h => ⟨_, h, rfl⟩⟩
  rintro ⟨ref, href, hkey⟩
  cases ref with
  | method key' => rwa [← Option.some.inj hkey]
  | type name => cases hkey

theorem names_referAll (p : Program) (refs : List Reference) :
    (p.referAll refs).names = Distinct.insertAll p.names (refs.flatMap p.calledNames) := by
  induction refs using List.reverseRecOn with
  | nil => rfl
  | append_singleton refs ref ih =>
    have hstep : p.referAll (refs ++ [ref]) = (p.referAll refs).refer ref :=
      referAll_append p refs [ref]
    rw [hstep, names_refer, List.flatMap_append, Distinct.insertAll_append, ← ih,
      List.flatMap_singleton]
    cases ref with
    | type name => rfl
    | method key =>
      by_cases hlater : key ∉ p.keys ∧ .method key ∈ refs
      · -- the type of this key was called for when the key first came up
        have hknown : key ∈ (p.referAll refs).keys := mem_keys_referAll.mpr (Or.inr hlater.2)
        have hthere : ∀ n ∈ p.calledNames (.method key), n ∈ (p.referAll refs).names := by
          intro n hn
          rw [ih, Distinct.mem_insertAll, List.mem_flatMap]
          exact Or.inr ⟨_, hlater.2, hn⟩
        rw [Distinct.insertAll_of_subset hthere, calledNames, if_pos (Or.inl hknown),
          Distinct.insertAll_nil]
      · have hsame : key ∈ (p.referAll refs).keys ↔ key ∈ p.keys := by
          rw [mem_keys_referAll]
          tauto
        simp only [calledNames, hsame]

theorem mem_names_referAll : fullName ∈ (p.referAll refs).names ↔
    fullName ∈ p.names ∨ ∃ ref ∈ refs, p.CallsFor fullName ref := by
  rw [names_referAll, Distinct.mem_insertAll, List.mem_flatMap]
  simp only [mem_calledNames]

/-- A reference puts placeholders after the rows that are there. -/
theorem refer_appends (p : Program) (ref : Reference) : ∃ ks ns : List String, p.refer ref =
    { methods := p.methods ++ ks.map Method.placeholder
      types := p.types ++ ns.map TypeRow.placeholder } := by
  have htype : ∀ fullName, ∃ ns : List String,
      (p.ensureType fullName).2.types = p.types ++ ns.map TypeRow.placeholder := by
    intro fullName
    by_cases hname : fullName ∈ p.names
    · exact ⟨[], by rw [ensureType_of_mem hname]; exact (List.append_nil _).symm⟩
    · exact ⟨[fullName], by rw [ensureType_of_not_mem hname]; rfl⟩
  cases ref with
  | type fullName =>
    obtain ⟨ns, hns⟩ := htype fullName
    refine ⟨[], ns, ?_⟩
    rw [← hns, List.map_nil, List.append_nil, ← methods_ensureType p fullName]
    rfl
  | method key =>
    by_cases hkey : key ∈ p.keys
    · refine ⟨[], [], ?_⟩
      rw [refer, ensureMethod_of_mem hkey, List.map_nil, List.map_nil, List.append_nil,
        List.append_nil]
    · rw [refer, ensureMethod_of_not_mem hkey, ensureDeclaringType]
      split
      · exact ⟨[key], [], by rw [List.map_nil, List.append_nil]; rfl⟩
      · obtain ⟨ns, hns⟩ := htype (Method.placeholder key).declaringType
        exact ⟨[key], ns, by rw [hns]; rfl⟩

/-- The keys that are referred to and have no row, in the order in which they first come up. -/
def newKeys (p : Program) (refs : List Reference) : List String :=
  (Distinct.ofList (refs.filterMap Reference.key?)).filter fun key => key ∉ p.keys

/-- The names that are called for and have no row, in the order in which they first come up. -/
def newNames (p : Program) (refs : List Reference) : List String :=
  (Distinct.ofList (refs.flatMap p.calledNames)).filter fun fullName => fullName ∉ p.names

theorem mem_newKeys : key ∈ p.newKeys refs ↔ .method key ∈ refs ∧ key ∉ p.keys := by
  have hkeys : key ∈ (p.referAll refs).keys ↔ key ∈ p.keys ∨ .method key ∈ refs := mem_keys_referAll
  rw [newKeys, List.mem_filter, decide_eq_true_eq]
  rw [keys_referAll, Distinct.mem_insertAll] at hkeys
  rw [Distinct.mem_ofList]
  tauto

theorem mem_newNames : fullName ∈ p.newNames refs ↔
    (∃ ref ∈ refs, p.CallsFor fullName ref) ∧ fullName ∉ p.names := by
  rw [newNames, List.mem_filter, decide_eq_true_eq, Distinct.mem_ofList, List.mem_flatMap]
  simp only [mem_calledNames]

/-- References put placeholders for what is new to them after the rows that are there. -/
theorem referAll_eq (p : Program) (refs : List Reference) : p.referAll refs =
    { methods := p.methods ++ (p.newKeys refs).map Method.placeholder
      types := p.types ++ (p.newNames refs).map TypeRow.placeholder } := by
  obtain ⟨ks, ns, hrows⟩ : ∃ ks ns : List String, p.referAll refs =
      { methods := p.methods ++ ks.map Method.placeholder
        types := p.types ++ ns.map TypeRow.placeholder } := by
    induction refs generalizing p with
    | nil => exact ⟨[], [], by simp [referAll]⟩
    | cons ref refs ih =>
      obtain ⟨ks, ns, hfirst⟩ := refer_appends p ref
      obtain ⟨ks', ns', hrest⟩ := ih (p.refer ref)
      refine ⟨ks ++ ks', ns ++ ns', ?_⟩
      rw [List.map_append, List.map_append, ← List.append_assoc, ← List.append_assoc]
      have hstep : p.referAll (ref :: refs) = (p.refer ref).referAll refs := rfl
      rw [hstep, hrest, hfirst]
  -- which rows are new is known from the keys and names afterwards
  have hkeys : ks = p.newKeys refs := by
    have hall := keys_referAll p refs
    rw [hrows, Distinct.insertAll_eq_append, keys, List.map_append, List.map_map] at hall
    exact (List.map_id ks).symm.trans (List.append_cancel_left hall)
  have hnames : ns = p.newNames refs := by
    have hall := names_referAll p refs
    rw [hrows, Distinct.insertAll_eq_append, names, List.map_append, List.map_map] at hall
    exact (List.map_id ns).symm.trans (List.append_cancel_left hall)
  rw [hrows, hkeys, hnames]

/-- References that are new in the same order come to the same. -/
theorem referAll_eq_iff {refs' : List Reference} : p.referAll refs = p.referAll refs' ↔
    p.newKeys refs = p.newKeys refs' ∧ p.newNames refs = p.newNames refs' := by
  have hmethod : Function.Injective Method.placeholder := fun _ _ h => congrArg Method.key h
  have htype : Function.Injective TypeRow.placeholder := fun _ _ h => congrArg TypeRow.fullName h
  rw [referAll_eq, referAll_eq, Program.mk.injEq, List.append_cancel_left_eq,
    List.append_cancel_left_eq, (List.map_injective_iff.mpr hmethod).eq_iff,
    (List.map_injective_iff.mpr htype).eq_iff]

/-- The methods after some references are those before and placeholders for the keys that were new. -/
theorem mem_methods_referAll {row : Method} : row ∈ (p.referAll refs).methods ↔
    row ∈ p.methods ∨ ∃ key, .method key ∈ refs ∧ key ∉ p.keys ∧ row = Method.placeholder key := by
  rw [referAll_eq, List.mem_append, List.mem_map]
  simp only [mem_newKeys, and_assoc, eq_comm]

/-- The types after some references are those before and placeholders for the names that were new. -/
theorem mem_types_referAll {row : TypeRow} : row ∈ (p.referAll refs).types ↔ row ∈ p.types ∨
    ∃ fullName, fullName ∉ p.names ∧ (∃ ref ∈ refs, p.CallsFor fullName ref) ∧
      row = .placeholder fullName := by
  rw [referAll_eq, List.mem_append, List.mem_map]
  simp only [mem_newNames, eq_comm, and_assoc, and_left_comm]

/-- Which rows there are depends on what is referred to, and not on the order. -/
theorem Interned.referAll_perm (h : p.Interned) {refs' : List Reference}
    (hrefs : ∀ ref, ref ∈ refs ↔ ref ∈ refs') :
    (p.referAll refs).methods.Perm (p.referAll refs').methods ∧
      (p.referAll refs).types.Perm (p.referAll refs').types := by
  have hall := h.referAll refs
  have hall' := h.referAll refs'
  constructor
  · refine (List.perm_ext_iff_of_nodup (.of_map _ hall.keys) (.of_map _ hall'.keys)).mpr fun row => ?_
    simp only [mem_methods_referAll, hrefs]
  · refine (List.perm_ext_iff_of_nodup (.of_map _ hall.names) (.of_map _ hall'.names)).mpr fun row => ?_
    simp only [mem_types_referAll, hrefs]

end Program

/-! ## Facts that come on top -/

namespace Facts

/-- What `g` states, on top of `f`. -/
def extend (f g : Facts) : Facts where
  directCalls := Distinct.insertAll f.directCalls g.directCalls
  virtualCalls := Distinct.insertAll f.virtualCalls g.virtualCalls
  overrides := Distinct.insertAll f.overrides g.overrides
  staticConstructorDependencies :=
    Distinct.insertAll f.staticConstructorDependencies g.staticConstructorDependencies
  fieldAccessDependencies := Distinct.insertAll f.fieldAccessDependencies g.fieldAccessDependencies
  typeDependencies := Distinct.insertAll f.typeDependencies g.typeDependencies
  entryMethods :=
    match g.entryMethods with
    | some ms => some (Distinct.insertAll (f.entryMethods.getD []) ms)
    | none => f.entryMethods
  unanalyzedMethods := Distinct.insertAll f.unanalyzedMethods g.unanalyzedMethods
  resolvedReflectionCalls := Distinct.insertAll f.resolvedReflectionCalls g.resolvedReflectionCalls

/-- A way of adding single facts that puts them into one of the lists. -/
structure AddsTo {α : Type} (add : Facts → α → Facts) (only : List α → Facts) : Prop where
  single : ∀ (f : Facts) a, add f a = f.extend (only [a])
  append : ∀ (f : Facts) xs ys,
    (f.extend (only xs)).extend (only ys) = f.extend (only (xs ++ ys))

/-- Adding facts one after the other is adding their list. -/
theorem AddsTo.foldl {α β : Type} {add : Facts → α → Facts} {only : List α → Facts}
    (h : AddsTo add only) {place : β → Option α} (xs : List β) {f : Facts}
    (hf : f.extend (only []) = f) :
    xs.foldl (fun f x => (place x).elim f (add f)) f = f.extend (only (xs.filterMap place)) := by
  have hfold : ∀ ys, xs.foldl (fun f x => (place x).elim f (add f)) (f.extend (only ys)) =
      f.extend (only (ys ++ xs.filterMap place)) := by
    induction xs with
    | nil => simp
    | cons x xs ih =>
      intro ys
      rw [List.foldl_cons, List.filterMap_cons]
      cases place x with
      | none => exact ih ys
      | some a =>
        rw [Option.elim_some, h.single, h.append, ih, List.append_assoc, List.singleton_append]
  have hall := hfold []
  rwa [hf, List.nil_append] at hall

end Facts

/-! ## Endpoints and tuples -/

/-- What an endpoint refers to; an empty one refers to nothing. -/
def Reference.ofEndpoint? (sort : String → Reference) (text : String) : Option Reference :=
  if text.isEmpty then none else some (sort text)

theorem Reference.mem_ofEndpoint? {sort : String → Reference} {text : String} {ref : Reference} :
    ref ∈ (Reference.ofEndpoint? sort text).toList ↔ text.isEmpty = false ∧ ref = sort text := by
  rw [Reference.ofEndpoint?, Option.mem_toList]
  split
  · next hempty => simp [hempty]
  · next hname => simp [hname, eq_comm]

/-- What the endpoints of a tuple refer to. -/
def Tuple.references (left right : String → Reference) (t : Tuple) : List Reference :=
  (Reference.ofEndpoint? left t.1).toList ++ (Reference.ofEndpoint? right t.2).toList

namespace Program

/-- The place that an endpoint names. -/
def endpoint? (p : Program) (sort : String → Reference) (text : String) : Option Nat :=
  (Reference.ofEndpoint? sort text).bind p.placeOf?

/-- The places that a tuple relates, if neither of its endpoints is empty. -/
def pair? (p : Program) (left right : String → Reference) (t : Tuple) : Option (Nat × Nat) :=
  match p.endpoint? left t.1, p.endpoint? right t.2 with
  | some a, some b => some (a, b)
  | _, _ => none

/-- What an endpoint names once it was referred to, it names for good. -/
theorem Grows.endpoint? {p q : Program} {sort : String → Reference} {text : String}
    (hsort : sort = .method ∨ sort = .type)
    (h : Grows (p.referAll (Reference.ofEndpoint? sort text).toList) q) :
    q.endpoint? sort text =
      (p.referAll (Reference.ofEndpoint? sort text).toList).endpoint? sort text := by
  unfold Program.endpoint? Reference.ofEndpoint? at *
  cases hempty : text.isEmpty with
  | true => rfl
  | false =>
    rw [hempty] at h
    have hplace : ∃ id, (p.refer (sort text)).placeOf? (sort text) = some id := by
      rcases hsort with rfl | rfl
      · exact ⟨_, methodId?_ensureMethod p text⟩
      · exact ⟨_, typeId?_ensureType p text⟩
    obtain ⟨id, hid⟩ := hplace
    show q.placeOf? (sort text) = (p.refer (sort text)).placeOf? (sort text)
    rw [hid]
    exact h.placeOf? hid

end Program

namespace Recording

open Reference (ofEndpoint?)

variable {r r' r'' : Recording} {refs refs' : List Reference} {change change' : Program → Facts → Facts}

/-- A step of recording: it refers to something, and changes the facts in a way that is known from the
places of the rows in any later program. -/
structure Records (refs : List Reference) (change : Program → Facts → Facts) (r r' : Recording) :
    Prop where
  program : r'.program = r.program.referAll refs
  facts : ∀ q, r'.program.Grows q → r'.facts = change q r.facts

namespace Records

theorem refl (r : Recording) : Records [] (fun _ f => f) r r := ⟨rfl, fun _ _ => rfl⟩

theorem grows (h : Records refs change r r') : r.program.Grows r'.program := by
  rw [h.program]
  exact Program.grows_referAll _ _

theorem trans (h : Records refs change r r') (h' : Records refs' change' r' r'') :
    Records (refs ++ refs') (fun q f => change' q (change q f)) r r'' where
  program := by rw [h'.program, h.program, Program.referAll_append]
  facts := fun q hq => by rw [h'.facts q hq, h.facts q (h'.grows.trans hq)]

theorem foldl {α : Type} {step : Recording → α → Recording} {refs : α → List Reference}
    {change : Program → Facts → α → Facts}
    (hstep : ∀ r a, Records (refs a) (fun q f => change q f a) r (step r a)) (xs : List α)
    (r : Recording) :
    Records (xs.flatMap refs) (fun q f => xs.foldl (change q) f) r (xs.foldl step r) := by
  induction xs generalizing r with
  | nil => exact refl r
  | cons x xs ih => exact (hstep r x).trans (ih _)

end Records

/-- How an endpoint is resolved: it is referred to, and its place is looked up. -/
structure Resolves (resolve : Recording → String → Option Nat × Recording)
    (sort : String → Reference) : Prop where
  known : sort = .method ∨ sort = .type
  resolve : ∀ r text, resolve r text =
    ((r.program.referAll (ofEndpoint? sort text).toList).endpoint? sort text,
      { r with program := r.program.referAll (ofEndpoint? sort text).toList })

theorem resolves_method : Resolves resolveMethod .method where
  known := Or.inl rfl
  resolve := by
    intro r key
    unfold resolveMethod Program.endpoint? ofEndpoint?
    split
    · rfl
    · exact Prod.ext (Program.methodId?_ensureMethod r.program key).symm rfl

theorem resolves_type : Resolves resolveType .type where
  known := Or.inr rfl
  resolve := by
    intro r fullName
    unfold resolveType Program.endpoint? ofEndpoint?
    split
    · rfl
    · exact Prod.ext (Program.typeId?_ensureType r.program fullName).symm rfl

/-- The fact that a tuple makes is known from the places of its endpoints in any later program. -/
theorem records_addTuple {sort : TupleSort} {left right : String → Reference}
    (hleft : Resolves sort.resolveLeft left) (hright : Resolves sort.resolveRight right)
    (r : Recording) (t : Tuple) : Records (t.references left right)
      (fun q f => (q.pair? left right t).elim f fun pair => sort.add f pair.1 pair.2) r
      (addTuple sort r t) := by
  generalize hafter : r.program.referAll (t.references left right) = after
  have htuple : addTuple sort r t =
      { program := after
        facts := (after.pair? left right t).elim r.facts
          fun pair => sort.add r.facts pair.1 pair.2 } := by
    have hgrows : Program.Grows (r.program.referAll (ofEndpoint? left t.1).toList) after := by
      rw [← hafter, Tuple.references, Program.referAll_append]
      exact Program.grows_referAll _ _
    -- the place of the left endpoint is the same after the right one was referred to
    have hplace := hgrows.endpoint? hleft.known
    simp only [addTuple, Program.pair?, hleft.resolve, hright.resolve, ← Program.referAll_append,
      ← hplace]
    rw [← Tuple.references, hafter]
    cases after.endpoint? left t.1 <;> cases after.endpoint? right t.2 <;> rfl
  rw [htuple]
  refine ⟨hafter.symm, fun q hq => ?_⟩
  have hpair : q.pair? left right t = after.pair? left right t := by
    unfold Program.pair?
    rw [← hafter, Tuple.references, Program.referAll_append] at hq ⊢
    have hgrows := Program.grows_referAll (r.program.referAll (ofEndpoint? left t.1).toList)
      (ofEndpoint? right t.2).toList
    rw [hq.endpoint? hright.known, hgrows.endpoint? hleft.known,
      (hgrows.trans hq).endpoint? hleft.known]
  rw [hpair]

/-- Recording a list of tuples adds the pairs that it relates to one list of the facts. -/
theorem records_addTuples {sort : TupleSort} {left right : String → Reference}
    (hleft : Resolves sort.resolveLeft left) (hright : Resolves sort.resolveRight right)
    {only : List (Nat × Nat) → Facts}
    (hadd : Facts.AddsTo (fun f pair => sort.add f pair.1 pair.2) only) (honly : only [] = {})
    (r : Recording) (ts : List Tuple) : Records (ts.flatMap (Tuple.references left right))
      (fun q f => f.extend (only (ts.filterMap (q.pair? left right)))) r (r.addTuples sort ts) := by
  have hrecords := Records.foldl (records_addTuple hleft hright) ts r
  refine ⟨hrecords.program, fun q hq => (hrecords.facts q hq).trans (hadd.foldl ts ?_)⟩
  rw [honly]
  rfl

theorem records_addMarked (add : Facts → MethodId → Facts) (r : Recording) (key : String) :
    Records (ofEndpoint? .method key).toList
      (fun q f => (q.endpoint? .method key).elim f (add f)) r (addMarked add r key) := by
  have hmark : addMarked add r key =
      { program := r.program.referAll (ofEndpoint? .method key).toList
        facts := ((r.program.referAll (ofEndpoint? .method key).toList).endpoint? .method
          key).elim r.facts (add r.facts) } := by
    unfold addMarked
    rw [resolves_method.resolve]
    cases (r.program.referAll (ofEndpoint? .method key).toList).endpoint? .method key <;> rfl
  rw [hmark]
  exact ⟨rfl, fun q hq => by rw [hq.endpoint? resolves_method.known]⟩

/-- Recording a list of marks adds the methods that it names to one list of the facts. -/
theorem records_marks {add : Facts → MethodId → Facts} {only : List MethodId → Facts}
    (hadd : Facts.AddsTo add only) (r : Recording) (hstart : r.facts.extend (only []) = r.facts)
    (keys : List String) : Records (keys.flatMap fun key => (ofEndpoint? .method key).toList)
      (fun q f => f.extend (only (keys.filterMap (q.endpoint? .method)))) r
      (keys.foldl (addMarked add) r) := by
  have hrecords := Records.foldl (records_addMarked add) keys r
  exact ⟨hrecords.program, fun q hq => (hrecords.facts q hq).trans (hadd.foldl keys hstart)⟩

end Recording

/-! ## Documents -/

namespace FactDocument

/-- Everything that the tuples and the marks of a document refer to, in order. -/
def references (d : FactDocument) : List Reference :=
  d.directCalls.flatMap (Tuple.references .method .method) ++
  d.virtualCalls.flatMap (Tuple.references .method .method) ++
  d.overrides.flatMap (Tuple.references .method .method) ++
  d.staticConstructorDependencies.flatMap (Tuple.references .type .method) ++
  d.fieldAccessDependencies.flatMap (Tuple.references .method .method) ++
  d.typeDependencies.flatMap (Tuple.references .method .type) ++
  d.resolvedReflectionCalls.flatMap (Tuple.references .method .method) ++
  ((d.entryMethods.getD []).flatMap fun key => (Reference.ofEndpoint? .method key).toList) ++
  (d.unanalyzedMethods.flatMap fun key => (Reference.ofEndpoint? .method key).toList)

/-- The facts that a document states, at the places that a program gives to what it names. -/
def factsAt (p : Program) (d : FactDocument) : Facts where
  directCalls := Distinct.ofList (d.directCalls.filterMap (p.pair? .method .method))
  virtualCalls := Distinct.ofList (d.virtualCalls.filterMap (p.pair? .method .method))
  overrides := Distinct.ofList (d.overrides.filterMap (p.pair? .method .method))
  staticConstructorDependencies :=
    Distinct.ofList (d.staticConstructorDependencies.filterMap (p.pair? .type .method))
  fieldAccessDependencies :=
    Distinct.ofList (d.fieldAccessDependencies.filterMap (p.pair? .method .method))
  typeDependencies := Distinct.ofList (d.typeDependencies.filterMap (p.pair? .method .type))
  entryMethods := d.entryMethods.map fun keys => Distinct.ofList (keys.filterMap (p.endpoint? .method))
  unanalyzedMethods := Distinct.ofList (d.unanalyzedMethods.filterMap (p.endpoint? .method))
  resolvedReflectionCalls :=
    Distinct.ofList (d.resolvedReflectionCalls.filterMap (p.pair? .method .method))

/-- The program that a document describes, before its tuples refer to anything. -/
def described (d : FactDocument) : Program := (({} : Recording).describe d).program

end FactDocument

namespace Recording

open Reference (ofEndpoint?)

theorem facts_describe (d : FactDocument) : (({} : Recording).describe d).facts = {} := by
  have htypes : ∀ (ts : List TypeRecord) (r : Recording),
      (ts.foldl (fun r t => (r.addType t.row).2) r).facts = r.facts := by
    intro ts
    induction ts with
    | nil => exact fun r => rfl
    | cons t ts ih => exact fun r => ih _
  have hmethods : ∀ (ms : List MethodRecord) (r : Recording),
      (ms.foldl (fun r m => (r.addMethod m.row).2) r).facts = r.facts := by
    intro ms
    induction ms with
    | nil => exact fun r => rfl
    | cons m ms ih => exact fun r => ih _
  exact (hmethods _ _).trans (htypes _ _)

theorem interned_described (d : FactDocument) : d.described.Interned := by
  have htypes : ∀ (ts : List TypeRecord) (r : Recording), r.program.Interned →
      (ts.foldl (fun r t => (r.addType t.row).2) r).program.Interned := by
    intro ts
    induction ts with
    | nil => exact fun r h => h
    | cons t ts ih => exact fun r h => ih _ (h.addType t.row)
  have hmethods : ∀ (ms : List MethodRecord) (r : Recording), r.program.Interned →
      (ms.foldl (fun r m => (r.addMethod m.row).2) r).program.Interned := by
    intro ms
    induction ms with
    | nil => exact fun r h => h
    | cons m ms ih => exact fun r h => ih _ (h.addMethod m.row)
  exact hmethods _ _ (htypes _ _ Program.interned_empty)

/-- The entry surface is there before its first method. -/
theorem records_entries (d : FactDocument) (r : Recording) :
    Records ((d.entryMethods.getD []).flatMap fun key => (ofEndpoint? .method key).toList)
      (fun q f => f.extend
        { entryMethods := d.entryMethods.map (List.filterMap (q.endpoint? .method)) }) r
      (match d.entryMethods with
        | some keys => keys.foldl (addMarked Facts.addEntry)
            { r with facts := { r.facts with entryMethods := some (r.facts.entryMethods.getD []) } }
        | none => r) := by
  cases d.entryMethods with
  | none => exact ⟨rfl, fun _ _ => rfl⟩
  | some keys =>
    have hadd : Facts.AddsTo Facts.addEntry fun ms => { entryMethods := some ms } :=
      ⟨fun _ _ => rfl, fun _ _ _ => by simp [Facts.extend, Distinct.insertAll_append]⟩
    have hmarks := records_marks hadd
      { r with facts := { r.facts with entryMethods := some (r.facts.entryMethods.getD []) } } rfl
      keys
    exact ⟨hmarks.program, hmarks.facts⟩

/-- Recording a document is recording its lists one after the other. -/
theorem ofDocument_eq (d : FactDocument) :
    (ofDocument d).program = d.described.referAll d.references ∧
      ∀ q, (ofDocument d).program.Grows q → (ofDocument d).facts = d.factsAt q := by
  have hm := resolves_method
  have ht := resolves_type
  have hdirect := @records_addTuples { add := Facts.addDirectCall } _ _ hm hm
    (fun xs => { directCalls := xs })
    ⟨fun _ _ => rfl, fun _ _ _ => by simp [Facts.extend, Distinct.insertAll_append]⟩ rfl
  have hvirtual := @records_addTuples { add := Facts.addVirtualCall } _ _ hm hm
    (fun xs => { virtualCalls := xs })
    ⟨fun _ _ => rfl, fun _ _ _ => by simp [Facts.extend, Distinct.insertAll_append]⟩ rfl
  have hoverrides := @records_addTuples { add := Facts.addOverride } _ _ hm hm
    (fun xs => { overrides := xs })
    ⟨fun _ _ => rfl, fun _ _ _ => by simp [Facts.extend, Distinct.insertAll_append]⟩ rfl
  have hstatic := @records_addTuples
    { resolveLeft := resolveType, add := Facts.addStaticConstructor } _ _ ht hm
    (fun xs => { staticConstructorDependencies := xs })
    ⟨fun _ _ => rfl, fun _ _ _ => by simp [Facts.extend, Distinct.insertAll_append]⟩ rfl
  have hfields := @records_addTuples { add := Facts.addFieldAccess } _ _ hm hm
    (fun xs => { fieldAccessDependencies := xs })
    ⟨fun _ _ => rfl, fun _ _ _ => by simp [Facts.extend, Distinct.insertAll_append]⟩ rfl
  have htypes := @records_addTuples
    { resolveRight := resolveType, add := Facts.addTypeReference } _ _ hm ht
    (fun xs => { typeDependencies := xs })
    ⟨fun _ _ => rfl, fun _ _ _ => by simp [Facts.extend, Distinct.insertAll_append]⟩ rfl
  have hresolved := @records_addTuples { add := Facts.addResolvedReflectionCall } _ _ hm hm
    (fun xs => { resolvedReflectionCalls := xs })
    ⟨fun _ _ => rfl, fun _ _ _ => by simp [Facts.extend, Distinct.insertAll_append]⟩ rfl
  have hunanalyzed := fun r => @records_marks Facts.addUnanalyzed
    (fun ms => { unanalyzedMethods := ms })
    ⟨fun _ _ => rfl, fun _ _ _ => by simp [Facts.extend, Distinct.insertAll_append]⟩ r rfl
  have hall := ((((((((hdirect (({} : Recording).describe d) d.directCalls).trans
    (hvirtual _ d.virtualCalls)).trans (hoverrides _ d.overrides)).trans
    (hstatic _ d.staticConstructorDependencies)).trans
    (hfields _ d.fieldAccessDependencies)).trans (htypes _ d.typeDependencies)).trans
    (hresolved _ d.resolvedReflectionCalls)).trans (records_entries d _)).trans
    (hunanalyzed _ d.unanalyzedMethods)
  refine ⟨hall.program, fun q hq => (hall.facts q hq).trans ?_⟩
  rw [facts_describe]
  unfold FactDocument.factsAt
  cases d.entryMethods <;> rfl

/-- A document enters what it describes, and placeholders for what it refers to besides. -/
theorem program_ofDocument (d : FactDocument) :
    (ofDocument d).program = d.described.referAll d.references :=
  (ofDocument_eq d).1

theorem interned_ofDocument (d : FactDocument) : (ofDocument d).program.Interned := by
  rw [program_ofDocument]
  exact (interned_described d).referAll _

/-- The facts of a document are those it states, at the places that its program gives them. -/
theorem facts_ofDocument (d : FactDocument) :
    (ofDocument d).facts = d.factsAt (ofDocument d).program :=
  (ofDocument_eq d).2 _ (.refl _)

end Recording

end CallAudit

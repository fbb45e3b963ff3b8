import UsageAudit.Proofs.LeadingBlank
import UsageAudit.Proofs.Meaning

/-!
# The right side of an assignment

The right side of an assignment is evaluated before the name on the left is bound, so that what is
called and accessed in it should be looked up as in a bare expression at the same place. The
elements of a script list the assignment first, however, and a plan lets go of the name before it
comes to what stands on the right. This file says exactly which assignments are planned as they
should be.
-/

namespace UsageAudit

namespace Script

/-- A script of the given statements. -/
def scriptOf (statements : List Tree) : Tree := .branch none .script 1 statements

/-- An expression as a statement. A row of several parts is a tuple without parentheses. -/
def bareStatement (line : Nat) (parts : List Tree) : Tree :=
  .branch none .expressionStatement line parts

/-- An expression as the right side of an assignment. -/
def rightSideOf (line : Nat) : List Tree → Tree
  | [tree] => tree
  | parts => .branch none .expressionList line parts

/-- The assignment of an expression to a name. `lead`, `gap` and `blank` are the blank space in
front of the name, the sign and the expression. -/
def assigningStatement (line : Nat) (lead name gap blank : List Char) (parts : List Tree) : Tree :=
  .branch none .expressionStatement line [
    .branch none .assignment line [
      .token (some .left) .identifier line lead name,
      .token none .sign line gap ['='],
      ((rightSideOf line parts).reblank blank).withField .right]]

end Script

namespace Extraction

open Script

/-- What is called on the right side of an assignment, if it is a call and can be rendered. -/
def calledBy (tree : Tree) : Option String :=
  match assignedCallee tree with
  | .ok callee => callee
  | .error _ => none

/-- A single element that a step gives is that of the step. -/
theorem mem_of_map_singleton {step : Except Fault Element} {own : List Element}
    (h : (step.map fun e => [e]) = .ok own) : ∀ element ∈ own, step = .ok element := by
  cases step with
  | error fault => cases h
  | ok element =>
    cases h
    simp

/-- What a call gives rise to is a call. -/
theorem expression_of_callElement {tree : Tree} {element : Element}
    (h : callElement tree = .ok element) : element.expression?.isSome := by
  simp only [callElement] at h
  split at h
  · cases h
  · simp only [bind_eq_ok_iff] at h
    obtain ⟨arguments, _, h⟩ := h
    split at h
    · split at h
      · cases h
      · simp only [bind_eq_ok_iff] at h
        obtain ⟨object, _, method, _, ⟨⟩⟩ := h
        rfl
    · simp only [bind_eq_ok_iff] at h
      obtain ⟨callee, _, ⟨⟩⟩ := h
      rfl

/-- What an access to a member gives rise to is an access. -/
theorem expression_of_attributeElement {tree : Tree} {element : Element}
    (h : attributeElement tree = .ok element) : element.expression?.isSome := by
  simp only [attributeElement] at h
  split at h
  · cases h
  · simp only [bind_eq_ok_iff] at h
    obtain ⟨object, _, member, _, ⟨⟩⟩ := h
    rfl

/-- Where nothing binds a name, a node itself gives rise to no more than calls and accesses. -/
theorem expression_of_mem_ownElements {scope : Scope} {role : Role} {tree : Tree}
    (hkind : tree.kind.bindsNames = false) {own : List Element}
    (h : ownElements scope role tree = .ok own) :
    ∀ element ∈ own, element.expression?.isSome := by
  by_cases hcall : tree.kind = .call
  · simp only [ownElements, hcall] at h
    intro element hmem
    exact expression_of_callElement (mem_of_map_singleton h element hmem)
  · by_cases haccess : tree.kind = .member ∧ role = .plain
    · simp only [ownElements, haccess.1, haccess.2, if_true] at h
      intro element hmem
      exact expression_of_attributeElement (mem_of_map_singleton h element hmem)
    · have hnone : ownElements scope role tree = .ok [] := by
        simp only [ownElements]
        split <;> simp_all [Kind.bindsNames]
      rw [hnone] at h
      cases h
      simp

/-- Where nothing binds a name, a walk finds no more than calls and accesses. -/
theorem expression_of_mem_visit {scope : Scope} {role : Role} {tree : Tree} {found : Findings}
    (hnothing : tree.bindsNothing = true) (h : visit scope role tree = .ok found) :
    ∀ element ∈ found.elements, element.expression?.isSome := by
  induction tree using Tree.parts_induction generalizing scope role found with
  | token field kind line blank text =>
    simp only [visit, bind_eq_ok_iff] at h
    obtain ⟨own, hown, ⟨⟩⟩ := h
    exact expression_of_mem_ownElements (Tree.kind_of_bindsNothing hnothing) hown
  | branch field kind line children ih =>
    obtain ⟨own, more, hown, hmore, helements⟩ := exists_of_visit_branch h
    intro element hmem
    rw [helements] at hmem
    rcases List.mem_append.mp hmem with hmem | hmem
    · exact expression_of_mem_ownElements (Tree.kind_of_bindsNothing hnothing) hown element hmem
    · obtain ⟨part, hpart, scope', role', found', hvisit, hfound⟩ :=
        exists_of_mem_visitAll hmore hmem
      simp only [Tree.bindsNothing, Bool.and_eq_true, bindNothing_iff] at hnothing
      exact ih part hpart (hnothing.2 part hpart) hvisit element hfound

/-- Where nothing binds a name, a walk over a row finds no more than calls and accesses. -/
theorem expression_of_mem_visitAll {scope : Scope} {inside : Option Inside} {trees : List Tree}
    {found : Findings} (hnothing : bindNothing trees = true)
    (h : visitAll scope inside trees = .ok found) :
    ∀ element ∈ found.elements, element.expression?.isSome := by
  intro element hmem
  obtain ⟨tree, htree, scope', role, found', hvisit, hfound⟩ := exists_of_mem_visitAll h hmem
  have hbinds := (bindNothing_iff trees).mp hnothing tree htree
  exact expression_of_mem_visit hbinds hvisit element hfound

/-- A walk over a construct that gives rise to nothing itself finds what is found in its parts. -/
theorem visit_of_own_eq_nil {field : Option Field} {kind : Kind} {line : Nat} {children : List Tree}
    (hown : ownElements [] .plain (.branch field kind line children) = .ok [])
    (hinside : inside? [] (.branch field kind line children) = none) :
    visit [] .plain (.branch field kind line children) =
      (visitAll [] none children).map fun found =>
        ⟨found.elements, kind.isNamed.toNat + found.nodes⟩ := by
  simp only [visit, hown, hinside]
  cases visitAll [] none children <;> rfl

/-- A walk over a row of one finds what is found in its member. -/
theorem visitAll_singleton (tree : Tree) : visitAll [] none [tree] = visit [] .plain tree := by
  simp only [visitAll]
  cases visit [] .plain tree with
  | error fault => rfl
  | ok found => simp [bind, Except.bind, pure, Except.pure]

/-- A walk over the right side of an assignment finds what is found in the expression. -/
theorem elements_visit_rightSideOf (line : Nat) (parts : List Tree) :
    (visit [] .plain (rightSideOf line parts)).map Findings.elements =
      (visitAll [] none parts).map Findings.elements := by
  unfold rightSideOf
  split
  · rw [visitAll_singleton]
  · rw [visit_of_own_eq_nil rfl rfl]
    cases visitAll [] none parts <;> rfl

/-- Nothing in the right side of an assignment binds a name if nothing in the expression does. -/
theorem bindsNothing_rightSideOf (line : Nat) {parts : List Tree} (h : bindNothing parts = true) :
    (rightSideOf line parts).bindsNothing = true := by
  unfold rightSideOf
  split
  · simpa [bindNothing] using h
  · simpa [Tree.bindsNothing, Kind.bindsNames] using h

section Statements

variable (line : Nat) (lead name gap blank : List Char)

/-- A walk over an assignment to a name finds the assignment and then what is found in its right
side. -/
theorem visit_assignment {right : Tree} (hfield : right.field = some .right) :
    visit [] .plain (.branch none .assignment line [.token (some .left) .identifier line lead name,
        .token none .sign line gap ['='], right]) = do
      let callee ← assignedCallee right
      let found ← visit [] .plain right
      return ⟨.variableAssign ⟨String.ofList name, callee, line⟩ :: found.elements,
        1 + (1 + found.nodes)⟩ := by
  have hright : (Tree.branch none .assignment line [.token (some .left) .identifier line lead name,
      .token none .sign line gap ['='], right]).child? .right = some right := by
    simp [Tree.child?, Tree.children, Tree.field.eq_1, hfield]
  have hown : ownElements [] .plain (.branch none .assignment line [
      .token (some .left) .identifier line lead name, .token none .sign line gap ['='], right]) = do
        return [.variableAssign ⟨String.ofList name, ← assignedCallee right, line⟩] := by
    simp only [ownElements, assignmentElements, hright]
    rfl
  have hrest : visitAll [] none [.token (some .left) .identifier line lead name,
      .token none .sign line gap ['='], right] =
        (visit [] .plain right).map fun found => ⟨found.elements, 1 + found.nodes⟩ := by
    cases hright : visit [] .plain right <;>
      simp [visitAll, visit, ownElements, Tree.kind, Kind.isNamed, hright, bind, Except.bind, pure,
        Except.pure, Except.map]
  rw [visit, hown]
  simp only [inside?, Tree.kind, hrest]
  cases assignedCallee right with
  | error fault => rfl
  | ok callee => cases visit [] .plain right <;> rfl

/-- A walk over an assignment finds the assignment and then what is found in the expression. -/
theorem elements_visit_assigningStatement {parts : List Tree} (h : bindNothing parts = true) :
    (visit [] .plain (assigningStatement line lead name gap blank parts)).toOption.map
        Findings.elements =
      (visitAll [] none parts).toOption.map fun found =>
        .variableAssign ⟨String.ofList name, calledBy (rightSideOf line parts), line⟩ ::
          found.elements := by
  have hfield :
      (((rightSideOf line parts).reblank blank).withField .right).field = some .right := by
    cases (rightSideOf line parts).reblank blank <;> rfl
  have hside := elements_visit_rightSideOf line parts
  rw [assigningStatement, visit_of_own_eq_nil rfl rfl, visitAll_singleton,
    visit_assignment line lead name gap hfield, visit_withField, assignedCallee_withField,
    visit_reblank _ _ _ _ (bindsNothing_rightSideOf line h), assignedCallee_reblank]
  cases hvisit : visit [] .plain (rightSideOf line parts) with
  | error fault =>
    rw [hvisit] at hside
    cases hparts : visitAll [] none parts with
    | ok found => simp [hparts, Except.map] at hside
    | error fault' => cases assignedCallee (rightSideOf line parts) <;> rfl
  | ok found =>
    rw [hvisit] at hside
    obtain ⟨callee, hcallee⟩ := exists_assignedCallee_of_visit hvisit
    cases hparts : visitAll [] none parts with
    | error fault => simp [hparts, Except.map] at hside
    | ok found' =>
      have helements : found.elements = found'.elements := by simpa [hparts, Except.map] using hside
      have hcalled : calledBy (rightSideOf line parts) = callee := by simp [calledBy, hcallee]
      rw [hcallee, hcalled]
      exact congrArg (fun elements => some (_ :: elements)) helements

end Statements

end Extraction

namespace Plan

/-- What is scheduled for calls and accesses that follow a row of elements is decided by the names
that the row has left. -/
theorem nameAt?_append (before : List Element) {inside : List Element}
    (hinside : ∀ element ∈ inside, element.expression?.isSome) (position : Nat) :
    (ofElements (before ++ inside)).nameAt? (before.length + position) =
      inside[position]?.bind (scheduled? (namesThrough .empty before)) := by
  have hnames : namesAt (before ++ inside) (before.length + position) =
      namesThrough .empty before := by
    rw [namesAt, List.take_length_add_append, namesThrough_append]
    exact namesThrough_of_expressions _ fun element hmem =>
      hinside element (List.mem_of_mem_take hmem)
  rw [nameAt?_ofElements, hnames, List.getElem?_append_right (by omega), Nat.add_sub_cancel_left]

/-- A call or an access is looked up in the same way before and after an assignment if and only if
it does not start from the name, or is looked up in the same way by both meanings of the name. -/
theorem scheduled?_assign_eq_iff {names : Names} (hsound : names.Sound) (name : String)
    (callee : Option String) {element : Element} (helement : element.expression?.isSome) :
    scheduled? (names.assign name callee) element = scheduled? names element ↔
      (element.root? = some name → scheduledBy? (names.meaning? name) element =
        scheduledBy? ((names.classMade name callee).map .object) element) := by
  obtain ⟨expression, hexpression⟩ := Option.isSome_iff_exists.mp helement
  have hroot : element.root? = some (firstSegment expression) := by
    simp [Element.root?, hexpression]
  rw [scheduled?_eq _ hroot, scheduled?_eq _ hroot]
  by_cases hname : name = firstSegment expression
  · rw [← hname] at hroot ⊢
    rw [Names.meaning?_assign_self hsound]
    exact ⟨fun heq _ => heq.symm, fun heq => (heq hroot).symm⟩
  · rw [Names.meaning?_assign_of_ne names callee hname]
    constructor
    · intro _ hsame
      rw [hroot] at hsame
      exact absurd (Option.some.inj hsame).symm hname
    · intro _
      rfl

/-- Calls and accesses are planned behind an assignment as without it if and only if each one that
starts from the assigned name is looked up in the same way by both meanings of the name. -/
theorem nameAt?_assign_eq_iff (before : List Element) (e : VariableAssign) {inside : List Element}
    (hinside : ∀ element ∈ inside, element.expression?.isSome) :
    let names := namesThrough .empty before
    (∀ position, (ofElements (before ++ .variableAssign e :: inside)).nameAt?
        (before.length + 1 + position) =
          (ofElements (before ++ inside)).nameAt? (before.length + position)) ↔
      ∀ element ∈ inside, element.root? = some e.name →
        scheduledBy? (names.meaning? e.name) element =
          scheduledBy? ((names.classMade e.name e.assignedFrom).map .object) element := by
  intro names
  have hsound : names.Sound := sound_namesThrough .empty before
  have hbehind (position : Nat) :
      (ofElements (before ++ .variableAssign e :: inside)).nameAt? (before.length + 1 + position) =
        inside[position]?.bind (scheduled? (names.assign e.name e.assignedFrom)) := by
    have hassigned : namesThrough .empty (before ++ [.variableAssign e]) =
        names.assign e.name e.assignedFrom := namesThrough_append ..
    have happend := nameAt?_append (before ++ [.variableAssign e]) hinside position
    rw [hassigned] at happend
    simpa using happend
  simp only [hbehind, nameAt?_append before hinside]
  constructor
  · intro hsame element hmem
    obtain ⟨position, hposition⟩ := List.mem_iff_getElem?.mp hmem
    have heq := hsame position
    rw [hposition, Option.bind_some, Option.bind_some] at heq
    exact (scheduled?_assign_eq_iff hsound _ _ (hinside element hmem)).mp heq
  · intro hsame position
    cases hposition : inside[position]? with
    | none => rfl
    | some element =>
      have hmem := List.mem_of_getElem? hposition
      exact (scheduled?_assign_eq_iff hsound _ _ (hinside element hmem)).mpr (hsame element hmem)

end Plan

namespace Analysis

open Script Extraction

variable (metadata : Metadata) (statements : List Tree)

/-- The elements of a script are those of its statements, if all of them can be walked over. -/
theorem elements_ofTree_scriptOf :
    (ofTree metadata (scriptOf statements)).elements =
      ((visitAll [] none statements).toOption.map Findings.elements).getD [] := by
  rw [ofTree, extract, scriptOf, visit_of_own_eq_nil rfl rfl]
  cases visitAll [] none statements <;> rfl

/-- The elements of a script with one more statement. -/
theorem elements_ofTree_append (statement : Tree) :
    (ofTree metadata (scriptOf (statements ++ [statement]))).elements =
      match (visitAll [] none statements).toOption.map Findings.elements,
        (visit [] .plain statement).toOption.map Findings.elements with
      | some before, some inside => before ++ inside
      | _, _ => [] := by
  rw [elements_ofTree_scriptOf, visitAll_append, visitAll_singleton]
  cases visitAll [] none statements with
  | error fault => rfl
  | ok before => cases visit [] .plain statement <;> rfl

variable (line : Nat) (lead name gap blank : List Char) {parts : List Tree}

/-- The elements of a script that ends in an expression and of the script that assigns it to a name:
the second has the assignment in front of what is found in the expression. A fault leaves no
elements in either. -/
theorem exists_elements_of_statements (h : bindNothing parts = true) :
    let before := (ofTree metadata (scriptOf statements)).elements
    let bare := (ofTree metadata (scriptOf (statements ++ [bareStatement line parts]))).elements
    let assigning := (ofTree metadata (scriptOf (statements ++
      [assigningStatement line lead name gap blank parts]))).elements
    (bare = [] ∧ assigning = []) ∨
      ∃ inside : List Element, (∀ element ∈ inside, element.expression?.isSome) ∧
        bare = before ++ inside ∧
        assigning = before ++ .variableAssign ⟨String.ofList name,
          calledBy (rightSideOf line parts), line⟩ :: inside := by
  dsimp only
  rw [elements_ofTree_append, elements_ofTree_append, elements_ofTree_scriptOf,
    elements_visit_assigningStatement line lead name gap blank h, bareStatement,
    visit_of_own_eq_nil rfl rfl]
  cases hbefore : visitAll [] none statements with
  | error fault => exact Or.inl ⟨rfl, rfl⟩
  | ok before =>
    cases hinside : visitAll [] none parts with
    | error fault => exact Or.inl ⟨rfl, rfl⟩
    | ok inside =>
      exact Or.inr ⟨inside.elements, expression_of_mem_visitAll h hinside, rfl, rfl⟩

/-- What is called and accessed on the right side of an assignment is planned as in the bare
expression if and only if each call and each access that starts from the assigned name is looked up
in the same way by what the name stood for before and by the class that the right side makes, if it
makes one. -/
theorem rightSide_planned_iff (h : bindNothing parts = true) :
    let before := ofTree metadata (scriptOf statements)
    let bare := ofTree metadata (scriptOf (statements ++ [bareStatement line parts]))
    let assigning := ofTree metadata (scriptOf (statements ++
      [assigningStatement line lead name gap blank parts]))
    let names := Plan.namesThrough .empty before.elements
    let made := names.classMade (String.ofList name) (calledBy (rightSideOf line parts))
    (∀ position, assigning.plan.nameAt? (before.elements.length + 1 + position) =
        bare.plan.nameAt? (before.elements.length + position)) ↔
      ∀ element ∈ bare.elements.drop before.elements.length,
        element.root? = some (String.ofList name) →
          Plan.scheduledBy? (names.meaning? (String.ofList name)) element =
            Plan.scheduledBy? (made.map .object) element := by
  intro before bare assigning names made
  rcases exists_elements_of_statements metadata statements line lead name gap blank h with
    ⟨hbare, hassigning⟩ | ⟨inside, hinside, hbare, hassigning⟩
  · have hplan : assigning.plan = bare.plan := by rw [plan, plan, hassigning, hbare]
    have hnone (position : Nat) : bare.plan.nameAt? position = none := by
      rw [plan, hbare, Plan.nameAt?_ofElements]
      rfl
    constructor
    · intro _ element hmem
      rw [hbare] at hmem
      simp at hmem
    · intro _ position
      rw [hplan, hnone, hnone]
  · have hiff := Plan.nameAt?_assign_eq_iff before.elements
      ⟨String.ofList name, calledBy (rightSideOf line parts), line⟩ hinside
    rw [plan, plan, hassigning, hbare, List.drop_left]
    exact hiff

/-- The statement `import numpy as np` on the first line of a script. -/
def numpyImport : Tree :=
  .branch none .importStatement 1 [
    .token none .sign 1 [] "import".toList,
    .branch (some .name) .aliasedImport 1 [
      .branch (some .name) .dottedName 1 [.token none .identifier 1 [' '] "numpy".toList],
      .token none .sign 1 [' '] "as".toList,
      .token (some .nickname) .identifier 1 [' '] "np".toList]]

/-- The call `np.array([1])` on the second line of a script. -/
def arrayCall : Tree :=
  .branch none .call 2 [
    .branch (some .function) .member 2 [
      .token (some .object) .identifier 2 ['\n'] "np".toList,
      .token none .sign 2 [] ['.'],
      .token (some .memberName) .identifier 2 [] "array".toList],
    .branch (some .arguments) .argumentList 2 [
      .token none .sign 2 [] ['('],
      .branch none .list 2 [
        .token none .sign 2 [] ['['],
        .token none .integer 2 [] ['1'],
        .token none .sign 2 [] [']']],
      .token none .sign 2 [] [')']]]

/-- What is known of the script as a whole. -/
def arrayMetadata : Metadata := ⟨"arrays.py", 2, 0, "", none⟩

/-- A call of a library is not planned as in the bare expression when its outcome is assigned to the
name of the library. -/
theorem arrayCall_not_planned :
    bindNothing [arrayCall] = true ∧
      ¬∀ position, (ofTree arrayMetadata (scriptOf ([numpyImport] ++
          [assigningStatement 2 ['\n'] "np".toList [' '] [' '] [arrayCall]]))).plan.nameAt?
            ((ofTree arrayMetadata (scriptOf [numpyImport])).elements.length + 1 + position) =
        (ofTree arrayMetadata (scriptOf ([numpyImport] ++
          [bareStatement 2 [arrayCall]]))).plan.nameAt?
            ((ofTree arrayMetadata (scriptOf [numpyImport])).elements.length + position) := by
  have hnothing : bindNothing [arrayCall] = true := by decide
  refine ⟨hnothing, ?_⟩
  intro hsame
  have hmeanings := (rightSide_planned_iff arrayMetadata [numpyImport] 2 ['\n'] "np".toList [' ']
    [' '] hnothing).mp hsame
  revert hmeanings
  decide +kernel

/-- The same call stands in a script as a statement and in another as the right side of an
assignment to the name of its library. The plan of the first holds it, and that of the second does
not. -/
theorem array_call_lost :
    ((Analysis.ofScript "import numpy as np\nnp.array([1])\n" "arrays.py").toOption.map
      fun analysis => (analysis.elements[1]?, analysis.plan.nameAt? 1)) =
        some (some (.methodCall ⟨"np", "array", 1, 0, ⟨[.list], [], false⟩, 2⟩),
          some (.function "numpy" "array")) ∧
    ((Analysis.ofScript "import numpy as np\nnp = np.array([1])\n" "arrays.py").toOption.map
      fun analysis => (analysis.elements[2]?, analysis.plan.nameAt? 2)) =
        some (some (.methodCall ⟨"np", "array", 1, 0, ⟨[.list], [], false⟩, 2⟩), none) := by
  decide +kernel

end Analysis

end UsageAudit

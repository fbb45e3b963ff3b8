import UsageAudit.Extraction

/-!
# The walk over a tree

A walk collects the elements of a node and then those of its parts, and fails where one of them
fails. This file takes a walk apart: what it found in a node was found by the walks over its parts.
-/

namespace UsageAudit

namespace Script

/-- Induction over a tree and its parts. -/
theorem Tree.parts_induction {holds : Tree → Prop}
    (token : ∀ field kind line blank text, holds (.token field kind line blank text))
    (branch : ∀ field kind line children, (∀ part ∈ children, holds part) →
      holds (.branch field kind line children)) : ∀ tree, holds tree
  | .token field kind line blank text => token field kind line blank text
  | .branch field kind line children =>
    branch field kind line children fun part _ => parts_induction token branch part

/-- Whether a construct of this kind binds names in the script. -/
def Kind.bindsNames : Kind → Bool
  | .importStatement | .importFrom | .futureImport | .classDefinition | .functionDefinition
  | .assignment => true
  | _ => false

mutual

/-- Whether nothing in the tree binds a name, as in any expression. -/
def Tree.bindsNothing : Tree → Bool
  | .token _ kind _ _ _ => !kind.bindsNames
  | .branch _ kind _ children => !kind.bindsNames && bindNothing children

/-- Whether nothing in a row of trees binds a name. -/
def bindNothing : List Tree → Bool
  | [] => true
  | tree :: rest => tree.bindsNothing && bindNothing rest

end

/-- Nothing in a row binds a name if and only if nothing in its members does. -/
theorem bindNothing_iff (trees : List Tree) :
    bindNothing trees = true ↔ ∀ tree ∈ trees, tree.bindsNothing = true := by
  induction trees with
  | nil => simp [bindNothing]
  | cons tree rest ih => simp [bindNothing, ih]

/-- A tree in which nothing binds a name is of a kind that does not. -/
theorem Tree.kind_of_bindsNothing {tree : Tree} (h : tree.bindsNothing = true) :
    tree.kind.bindsNames = false := by
  cases tree <;> simp_all [bindsNothing, kind]

end Script

namespace Extraction

open Script (Tree Kind Field)

/-- Two steps succeed if and only if both do. -/
theorem bind_eq_ok_iff {α β : Type} {first : Except Fault α} {second : α → Except Fault β}
    {value : β} :
    first >>= second = .ok value ↔ ∃ middle, first = .ok middle ∧ second middle = .ok value := by
  cases first with
  | error fault => simp [bind, Except.bind]
  | ok middle => simp [bind, Except.bind]

/-- The rendering of a part is that of the first part in the role. -/
theorem renderAt_eq (field : Field) (trees : List Tree) :
    renderAt field trees = (trees.find? fun tree => tree.field == some field).map render := by
  induction trees with
  | nil => rfl
  | cons tree rest ih =>
    cases h : tree.field == some field <;> simp [renderAt, List.find?, h, ih]

/-- What a chained assignment calls is what its right side does. -/
theorem assignedCalleeAt_eq (trees : List Tree) :
    assignedCalleeAt trees =
      (trees.find? fun tree => tree.field == some .right).map assignedCallee := by
  induction trees with
  | nil => rfl
  | cons tree rest ih =>
    cases h : tree.field == some .right <;> simp [assignedCalleeAt, List.find?, h, ih]

/-- What parentheses call is what the first construct in them does. -/
theorem assignedCalleeFirst_eq (trees : List Tree) :
    assignedCalleeFirst trees = (trees.find? Tree.isNamed).map assignedCallee := by
  induction trees with
  | nil => rfl
  | cons tree rest ih =>
    cases h : tree.isNamed <;> simp [assignedCalleeFirst, List.find?, h, ih]

/-- A walk over a row that succeeds has succeeded on its first member and on the others. -/
theorem exists_of_visitAll_cons {scope : Scope} {inside : Option Inside} {tree : Tree}
    {rest : List Tree} {found : Findings} (h : visitAll scope inside (tree :: rest) = .ok found) :
    ∃ scope' role first inside' more, visit scope' role tree = .ok first ∧
      visitAll scope inside' rest = .ok more ∧
      found.elements = first.elements ++ more.elements := by
  cases inside with
  | none =>
    simp only [visitAll, bind_eq_ok_iff] at h
    obtain ⟨first, hfirst, more, hmore, ⟨⟩⟩ := h
    exact ⟨_, _, first, _, more, hfirst, hmore, rfl⟩
  | some part =>
    simp only [visitAll] at h
    split at h <;> simp only [bind_eq_ok_iff] at h <;>
      obtain ⟨first, hfirst, more, hmore, ⟨⟩⟩ := h <;>
      exact ⟨_, _, first, _, more, hfirst, hmore, rfl⟩

/-- A walk over a row that succeeds has succeeded on each member. -/
theorem exists_visit_of_visitAll {scope : Scope} {inside : Option Inside} {trees : List Tree}
    {found : Findings} (h : visitAll scope inside trees = .ok found) :
    ∀ tree ∈ trees, ∃ scope' role found', visit scope' role tree = .ok found' := by
  induction trees generalizing inside found with
  | nil => simp
  | cons tree rest ih =>
    obtain ⟨scope', role, first, inside', more, hfirst, hmore, _⟩ := exists_of_visitAll_cons h
    intro other hother
    rcases List.mem_cons.mp hother with rfl | hother
    · exact ⟨scope', role, first, hfirst⟩
    · exact ih hmore other hother

/-- What a walk over a row has found was found in one of its members. -/
theorem exists_of_mem_visitAll {scope : Scope} {inside : Option Inside} {trees : List Tree}
    {found : Findings} (h : visitAll scope inside trees = .ok found) {element : Element}
    (hmem : element ∈ found.elements) :
    ∃ tree ∈ trees, ∃ scope' role found', visit scope' role tree = .ok found' ∧
      element ∈ found'.elements := by
  induction trees generalizing inside found with
  | nil =>
    cases h
    simp at hmem
  | cons tree rest ih =>
    obtain ⟨scope', role, first, inside', more, hfirst, hmore, helements⟩ :=
      exists_of_visitAll_cons h
    rw [helements] at hmem
    rcases List.mem_append.mp hmem with hmem | hmem
    · exact ⟨tree, by simp, scope', role, first, hfirst, hmem⟩
    · obtain ⟨other, hother, hrest⟩ := ih hmore hmem
      exact ⟨other, List.mem_cons_of_mem _ hother, hrest⟩

/-- A walk over two rows is one over the first and then one over the second. -/
theorem visitAll_append (scope : Scope) (first second : List Tree) :
    visitAll scope none (first ++ second) = do
      let found ← visitAll scope none first
      let more ← visitAll scope none second
      return ⟨found.elements ++ more.elements, found.nodes + more.nodes⟩ := by
  induction first with
  | nil =>
    cases h : visitAll scope none second <;>
      simp [visitAll, h, bind, Except.bind, pure, Except.pure]
  | cons tree rest ih =>
    simp only [List.cons_append, visitAll, ih]
    cases visit scope .plain tree with
    | error fault => rfl
    | ok found =>
      cases visitAll scope none rest with
      | error fault => rfl
      | ok more =>
        cases visitAll scope none second with
        | error fault => rfl
        | ok others =>
          simp [bind, Except.bind, pure, Except.pure, Nat.add_assoc]

/-- A walk over a node that succeeds has collected the elements of the node itself and those of its
parts. -/
theorem exists_of_visit_branch {scope : Scope} {role : Role} {field : Option Field} {kind : Kind}
    {line : Nat} {children : List Tree} {found : Findings}
    (h : visit scope role (.branch field kind line children) = .ok found) :
    ∃ own more, ownElements scope role (.branch field kind line children) = .ok own ∧
      visitAll scope (inside? scope (.branch field kind line children)) children = .ok more ∧
      found.elements = own ++ more.elements := by
  simp only [visit, bind_eq_ok_iff] at h
  obtain ⟨own, hown, more, hmore, ⟨⟩⟩ := h
  exact ⟨own, more, hown, hmore, rfl⟩

/-- A member is rendered as its object with the name of the member. -/
theorem render_member {tree object : Tree} (hkind : tree.kind = .member)
    (hobject : tree.child? .object = some object) :
    render tree = do return (← render object) ++ "." ++ (← fieldText tree .memberName) := by
  cases tree with
  | token field kind line blank text => cases hobject
  | branch field kind line children =>
    obtain rfl : kind = .member := hkind
    have hfirst : (children.find? fun child => child.field == some .object) = some object := hobject
    simp [render, renderAt_eq, hfirst]

/-- What is called in a call that can be walked over can be rendered. -/
theorem exists_render_of_callElement {tree callee : Tree} {element : Element}
    (hcallee : tree.child? .function = some callee) (h : callElement tree = .ok element) :
    ∃ text, render callee = .ok text := by
  simp only [callElement, hcallee, bind_eq_ok_iff] at h
  obtain ⟨arguments, _, h⟩ := h
  split at h
  · rename_i hmember
    split at h
    · cases h
    · rename_i object hobject
      simp only [bind_eq_ok_iff] at h
      obtain ⟨start, hstart, name, hname, _⟩ := h
      exact ⟨start ++ "." ++ name, by simp [render_member hmember hobject, hstart, hname]; rfl⟩
  · simp only [bind_eq_ok_iff] at h
    obtain ⟨text, htext, _⟩ := h
    exact ⟨text, htext⟩

/-- What is called on the right side of an assignment is known if the walk over that side
succeeds. -/
theorem exists_assignedCallee_of_visit {scope : Scope} {role : Role} {tree : Tree}
    {found : Findings} (h : visit scope role tree = .ok found) :
    ∃ callee, assignedCallee tree = .ok callee := by
  induction tree using Tree.parts_induction generalizing scope role found with
  | token field kind line blank text => exact ⟨none, rfl⟩
  | branch field kind line children ih =>
    obtain ⟨own, more, hown, hmore, _⟩ := exists_of_visit_branch h
    have hpart (test : Tree → Bool) :
        ∃ callee, ((children.find? test).map assignedCallee).getD (.ok none) = .ok callee := by
      cases hfind : children.find? test with
      | none => exact ⟨none, rfl⟩
      | some part =>
        have hmem := List.mem_of_find?_eq_some hfind
        obtain ⟨scope', role', found', hvisit⟩ := exists_visit_of_visitAll hmore part hmem
        exact ih part hmem hvisit
    unfold assignedCallee
    split
    · rw [renderAt_eq]
      cases hcallee : children.find? fun child => child.field == some Field.function with
      | none => exact ⟨none, rfl⟩
      | some callee =>
        simp only [ownElements] at hown
        obtain ⟨element, hcall⟩ : ∃ element,
            callElement (.branch field .call line children) = .ok element := by
          cases hcall : callElement (.branch field .call line children) with
          | error fault => simp [Tree.kind, hcall, Except.map] at hown
          | ok element => exact ⟨element, rfl⟩
        have hchild :
            (Tree.branch field .call line children).child? .function = some callee := hcallee
        obtain ⟨text, htext⟩ := exists_render_of_callElement hchild hcall
        exact ⟨some text, by simp [htext, Except.map]⟩
    · rw [assignedCalleeAt_eq]
      exact hpart _
    · rw [assignedCalleeFirst_eq]
      exact hpart _
    · rw [assignedCalleeFirst_eq]
      exact hpart _
    · exact ⟨none, rfl⟩

end Extraction

end UsageAudit

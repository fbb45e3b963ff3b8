import UsageAudit.Proofs.Walk

/-!
# Blank space in front of a tree

The text of a node starts with its first token, so that the blank space in front of that token has
no part in what is read off the node. Nor has the role that the node plays in the node above it. A
piece of a script therefore gives rise to the same calls and accesses wherever it stands.
-/

namespace UsageAudit

namespace Script.Tree

mutual

/-- The tree with other blank space in front of it. -/
def reblank (blank : List Char) : Tree → Tree
  | .token field kind line _ text => .token field kind line blank text
  | .branch field kind line children => .branch field kind line (reblankFirst blank children)

/-- A row of trees with other blank space in front of it. -/
def reblankFirst (blank : List Char) : List Tree → List Tree
  | [] => []
  | tree :: rest => tree.reblank blank :: rest

end

/-- Induction along the first parts of a tree, down to its first token. -/
theorem firstPart_induction {holds : Tree → Prop}
    (token : ∀ field kind line blank text, holds (.token field kind line blank text))
    (empty : ∀ field kind line, holds (.branch field kind line []))
    (branch : ∀ field kind line first rest, holds first →
      holds (.branch field kind line (first :: rest))) : ∀ tree, holds tree
  | .token field kind line blank text => token field kind line blank text
  | .branch field kind line [] => empty field kind line
  | .branch field kind line (first :: rest) =>
    branch field kind line first rest (firstPart_induction token empty branch first)

section Reblank

variable (blank : List Char) (tree : Tree)

/-- Other blank space leaves the role of a node. -/
@[simp]
theorem field_reblank : (tree.reblank blank).field = tree.field := by cases tree <;> rfl

/-- Other blank space leaves the kind of a node. -/
@[simp]
theorem kind_reblank : (tree.reblank blank).kind = tree.kind := by cases tree <;> rfl

/-- Other blank space leaves the line of a node. -/
@[simp]
theorem line_reblank : (tree.reblank blank).line = tree.line := by cases tree <;> rfl

/-- Other blank space leaves whether a node is a construct. -/
@[simp]
theorem isNamed_reblank : (tree.reblank blank).isNamed = tree.isNamed := by simp [isNamed]

/-- Other blank space in front of a node is other blank space in front of its first part. -/
theorem children_reblank : (tree.reblank blank).children = reblankFirst blank tree.children := by
  cases tree <;> rfl

/-- The text of a node does not depend on the blank space in front of it. -/
@[simp]
theorem text_reblank : (tree.reblank blank).text = tree.text := by
  induction tree using firstPart_induction with
  | token field kind line blank text => rfl
  | empty field kind line => rfl
  | branch field kind line first rest ih => simp [reblank, reblankFirst, text, texts, ih]

/-- The part of a node that plays a role is the same, but perhaps for blank space. -/
theorem child?_reblank (field : Field) :
    (tree.reblank blank).child? field = tree.child? field ∨
      (tree.reblank blank).child? field = (tree.child? field).map (reblank blank) := by
  simp only [child?, children_reblank]
  cases tree.children with
  | nil => exact Or.inl rfl
  | cons first rest =>
    by_cases hfirst : first.field = some field
    · exact Or.inr (by simp [reblankFirst, hfirst])
    · exact Or.inl (by simp [reblankFirst, hfirst])

/-- What is read off a part without heed of blank space can be read off the part in the other
tree. -/
theorem map_child?_reblank {β : Type} (f : Tree → β) (hf : ∀ part, f (part.reblank blank) = f part)
    (field : Field) : ((tree.reblank blank).child? field).map f = (tree.child? field).map f := by
  rcases child?_reblank blank tree field with h | h
  · rw [h]
  · rw [h, Option.map_map]
    exact congrArg (fun g => (tree.child? field).map g) (funext hf)

end Reblank

end Script.Tree

namespace Extraction

open Script (Tree Kind Field)
open Script.Tree

section Reblank

variable (blank : List Char) (tree : Tree)

/-- The text of a node as it stands in the script does not depend on the blank space in front of
it. -/
@[simp]
theorem textOf_reblank : textOf (tree.reblank blank) = textOf tree := by simp [textOf]

/-- The text of a part does not depend on the blank space in front of the node. -/
@[simp]
theorem fieldText_reblank (field : Field) :
    fieldText (tree.reblank blank) field = fieldText tree field := by
  have h := map_child?_reblank blank tree textOf (textOf_reblank blank) field
  unfold fieldText
  cases hchild : tree.child? field <;> cases hchild' : (tree.reblank blank).child? field <;>
    simp_all

/-- The type of a literal does not depend on the blank space in front of it. -/
@[simp]
theorem literalKind_reblank : literalKind (tree.reblank blank) = literalKind tree := by
  induction tree using firstPart_induction with
  | token field kind line blank text => rfl
  | empty field kind line => rfl
  | branch field kind line first rest ih =>
    simp [reblank, reblankFirst, literalKind, literalKindAt, firstLiteralKind, texts, ih]

/-- The tag of an expression does not depend on the blank space in front of it. -/
@[simp]
theorem tagOf_reblank : tagOf (tree.reblank blank) = tagOf tree := by simp [tagOf]

/-- The rendering of an expression does not depend on the blank space in front of it. -/
@[simp]
theorem render_reblank : render (tree.reblank blank) = render tree := by
  induction tree using firstPart_induction with
  | token field kind line blank' text => cases kind <;> rfl
  | empty field kind line => rfl
  | branch field kind line first rest ih =>
    have htext := textOf_reblank blank (.branch field kind line (first :: rest))
    have hmember := fieldText_reblank blank (.branch field kind line (first :: rest)) .memberName
    have htag := tagOf_reblank blank (.branch field kind line (first :: rest))
    simp only [reblank, reblankFirst] at htext hmember htag ⊢
    simp only [render, renderAt, renderFirst, field_reblank, isNamed_reblank, ih, htext, hmember,
      htag]

/-- What is called on the right side of an assignment does not depend on the blank space in front of
it. -/
@[simp]
theorem assignedCallee_reblank : assignedCallee (tree.reblank blank) = assignedCallee tree := by
  induction tree using firstPart_induction with
  | token field kind line blank text => rfl
  | empty field kind line => rfl
  | branch field kind line first rest ih =>
    simp only [reblank, reblankFirst, assignedCallee, assignedCalleeAt, assignedCalleeFirst,
      renderAt, field_reblank, isNamed_reblank, render_reblank, ih]

/-- The type of a part does not depend on the blank space in front of the node. -/
theorem literalKindAt_children_reblank (field : Field) :
    literalKindAt field (tree.reblank blank).children = literalKindAt field tree.children := by
  rw [children_reblank]
  cases tree.children with
  | nil => rfl
  | cons first rest => simp [reblankFirst, literalKindAt]

/-- What an argument adds to the shape of a call does not depend on the blank space in front of
it. -/
@[simp]
theorem add_reblank (tally : ArgumentTally) : tally.add (tree.reblank blank) = tally.add tree := by
  simp only [ArgumentTally.add, kind_reblank, fieldText_reblank, literalKind_reblank,
    literalKindAt_children_reblank]

/-- The shape of the arguments does not depend on the blank space in front of them. -/
@[simp]
theorem callArguments_reblank :
    callArguments (some (tree.reblank blank)) = callArguments (some tree) := by
  have hfold (tally : ArgumentTally) :
      (tree.reblank blank).namedChildren.foldlM ArgumentTally.add tally =
        tree.namedChildren.foldlM ArgumentTally.add tally := by
    simp only [namedChildren, children_reblank]
    cases tree.children with
    | nil => rfl
    | cons first rest =>
      cases hnamed : first.isNamed <;> simp [reblankFirst, hnamed]
  simp only [callArguments, kind_reblank, hfold]

/-- A call does not depend on the blank space in front of it. -/
theorem callElement_reblank : callElement (tree.reblank blank) = callElement tree := by
  have harguments : callArguments ((tree.reblank blank).child? .arguments) =
      callArguments (tree.child? .arguments) := by
    rcases child?_reblank blank tree .arguments with h | h
    · rw [h]
    · rw [h]
      cases tree.child? .arguments <;> simp
  rcases child?_reblank blank tree .function with h | h
  · simp only [callElement, h, harguments, line_reblank]
  · cases hcallee : tree.child? .function with
    | none => simp [callElement, h, hcallee]
    | some callee =>
      have hobject := map_child?_reblank blank callee render (render_reblank blank) .object
      simp only [callElement, h, hcallee, Option.map_some, harguments, kind_reblank, line_reblank,
        fieldText_reblank, render_reblank]
      cases hchild : callee.child? .object <;>
        cases hchild' : (callee.reblank blank).child? .object <;> simp_all

/-- An access to a member does not depend on the blank space in front of it. -/
theorem attributeElement_reblank :
    attributeElement (tree.reblank blank) = attributeElement tree := by
  have hobject := map_child?_reblank blank tree render (render_reblank blank) .object
  simp only [attributeElement, line_reblank, fieldText_reblank]
  cases hchild : tree.child? .object <;>
    cases hchild' : (tree.reblank blank).child? .object <;> simp_all

/-- The elements of a node in which nothing binds a name do not depend on the blank space in front
of it. -/
theorem ownElements_reblank (scope : Scope) (role : Role) (hkind : tree.kind.bindsNames = false) :
    ownElements scope role (tree.reblank blank) = ownElements scope role tree := by
  simp only [ownElements, kind_reblank]
  split <;> simp_all [Kind.bindsNames, callElement_reblank, attributeElement_reblank]

/-- Which part is visited in a way of its own does not depend on the blank space in front of the
node. -/
theorem inside?_reblank (scope : Scope) :
    inside? scope (tree.reblank blank) = inside? scope tree := by
  have hname := map_child?_reblank blank tree textOf (textOf_reblank blank) .name
  simp only [inside?, kind_reblank, hname]

/-- A walk over a tree in which nothing binds a name does not depend on the blank space in front of
it. -/
theorem visit_reblank (scope : Scope) (role : Role) (h : tree.bindsNothing = true) :
    visit scope role (tree.reblank blank) = visit scope role tree := by
  induction tree using firstPart_induction generalizing scope role with
  | token field kind line old text =>
    have hown := ownElements_reblank blank (.token field kind line old text) scope role
      (Tree.kind_of_bindsNothing h)
    simp only [reblank] at hown
    simp only [reblank, visit, hown]
  | empty field kind line => rfl
  | branch field kind line first rest ih =>
    have hfirst : first.bindsNothing = true := by
      simp only [Tree.bindsNothing, Script.bindNothing, Bool.and_eq_true] at h
      exact h.2.1
    have hown := ownElements_reblank blank (.branch field kind line (first :: rest)) scope role
      (Tree.kind_of_bindsNothing h)
    have hinside := inside?_reblank blank (.branch field kind line (first :: rest)) scope
    simp only [reblank, reblankFirst] at hown hinside
    simp only [reblank, reblankFirst, visit, hown, hinside]
    cases inside? scope (.branch field kind line (first :: rest)) <;>
      simp only [visitAll, field_reblank, ih _ _ hfirst]

end Reblank

section WithField

variable (field : Field) (tree : Tree)

/-- What is called on the right side of an assignment does not depend on the role of the side. -/
@[simp]
theorem assignedCallee_withField : assignedCallee (tree.withField field) = assignedCallee tree := by
  cases tree <;> simp [Tree.withField, assignedCallee]

/-- A walk over a tree does not depend on the role of the tree. -/
@[simp]
theorem visit_withField (scope : Scope) (role : Role) :
    visit scope role (tree.withField field) = visit scope role tree := by
  cases tree with
  | token old kind line blank text => rfl
  | branch old kind line children => rfl

end WithField

end Extraction

end UsageAudit

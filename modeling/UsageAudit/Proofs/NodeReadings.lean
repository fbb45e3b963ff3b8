import UsageAudit.Proofs.Walk

/-!
# What is read off a node

The type of a literal, the rendering of an expression, the name of a base class and what an
assignment calls are found by recursion over rows of parts. Here each of them is read off a node as
a whole: from its kind, its text and the few parts that count.
-/

namespace UsageAudit

namespace Script

/-- Induction over a tree, from what holds of its parts. -/
theorem Tree.children_induction {holds : Tree → Prop}
    (node : ∀ tree : Tree, (∀ part ∈ tree.children, holds part) → holds tree) (tree : Tree) :
    holds tree := by
  induction tree using Tree.parts_induction with
  | token field kind line blank text => exact node _ (by simp [Tree.children])
  | branch field kind line children ih => exact node _ ih

/-- Whether the tree is a single token. -/
def Tree.isToken : Tree → Bool
  | .token .. => true
  | .branch .. => false

end Script

namespace Extraction

open Script (Tree Kind Field)

variable {tree : Tree}

/-- The characters of the first part of a tree. -/
def firstText (tree : Tree) : List Char := (tree.children.head?.map Tree.text).getD []

/-- The type of a literal depends on nothing but what its kind asks for. -/
theorem literalKindOf_congr {kind : Kind} {text text' start start' : List Char}
    {argument argument' inner inner' : ArgKind}
    (hnumber : kind = .integer ∨ kind = .float → isImaginary text' = isImaginary text)
    (hopening : kind = .string → isBytesPrefix start' = isBytesPrefix start)
    (hargument : kind = .unaryOperator → argument' = argument)
    (hinner : kind = .parenthesized → inner' = inner) :
    literalKindOf kind text' start' argument' inner' =
      literalKindOf kind text start argument inner := by
  cases kind <;> simp_all [literalKindOf]

/-- The type of a part is that of the first part in the role. -/
theorem literalKindAt_eq (field : Field) (trees : List Tree) :
    literalKindAt field trees =
      (trees.find? fun tree => tree.field == some field).map literalKind := by
  induction trees with
  | nil => rfl
  | cons tree rest ih =>
    cases h : tree.field == some field <;> simp [literalKindAt, List.find?, h, ih]

/-- The type of what parentheses hold is that of the first construct in them. -/
theorem firstLiteralKind_eq (trees : List Tree) :
    firstLiteralKind trees = (trees.find? Tree.isNamed).map literalKind := by
  induction trees with
  | nil => rfl
  | cons tree rest ih =>
    cases h : tree.isNamed <;> simp [firstLiteralKind, List.find?, h, ih]

/-- What parentheses are rendered as is the first construct in them. -/
theorem renderFirst_eq (trees : List Tree) :
    renderFirst trees = (trees.find? Tree.isNamed).map render := by
  induction trees with
  | nil => rfl
  | cons tree rest ih =>
    cases h : tree.isNamed <;> simp [renderFirst, List.find?, h, ih]

/-- The dotted name of an object is that of the first part in the role. -/
theorem baseNameAt_eq (trees : List Tree) :
    baseNameAt trees = (trees.find? fun tree => tree.field == some .object).map baseName := by
  induction trees with
  | nil => rfl
  | cons tree rest ih =>
    cases h : tree.field == some .object <;> simp [baseNameAt, List.find?, h, ih]

/-- The type of a literal, read off a node as a whole. -/
theorem literalKind_eq (tree : Tree) :
    literalKind tree = literalKindOf tree.kind tree.text (firstText tree)
      (((tree.child? .argument).map literalKind).getD .unknown)
      (((tree.children.find? Tree.isNamed).map literalKind).getD
        (if tree.isToken then .unknown else .tuple)) := by
  cases tree with
  | token => rfl
  | branch => simp [literalKind, literalKindAt_eq, firstLiteralKind_eq, Tree.isToken, Tree.child?,
      Tree.kind, Tree.text, Tree.children, firstText]

/-- A name is rendered as it is. -/
theorem render_of_name (h : tree.kind = .identifier ∨ tree.kind = .dottedName) :
    render tree = .ok (textOf tree) := by
  cases tree <;> rcases h with h | h <;> obtain rfl := h <;> simp [render, textOf, Tree.text]

/-- A member is rendered with what it is a member of. -/
theorem render_of_member (h : tree.kind = .member) :
    render tree = do
      let object ← ((tree.child? .object).map render).getD (.ok "<expr>")
      return object ++ "." ++ (← fieldText tree .memberName) := by
  cases tree <;> obtain rfl := h
  · rfl
  · simp [render, renderAt_eq, Tree.child?, Tree.children]

/-- A call is rendered as what is called. -/
theorem render_of_call (h : tree.kind = .call) :
    render tree =
      ((tree.child? .function).map fun callee => (render callee).map (· ++ "()")).getD
        (.ok "<call>()") := by
  cases tree <;> obtain rfl := h
  · rfl
  · simp only [render, renderAt_eq, Tree.child?, Tree.children]
    cases List.find? _ _ <;> rfl

/-- A subscript is rendered as what it is taken of. -/
theorem render_of_subscript (h : tree.kind = .subscript) :
    render tree =
      ((tree.child? .value).map fun value => (render value).map (· ++ "[]")).getD
        (.ok "<subscript>") := by
  cases tree <;> obtain rfl := h
  · rfl
  · simp only [render, renderAt_eq, Tree.child?, Tree.children]
    cases List.find? _ _ <;> rfl

/-- Parentheses are rendered as the first construct in them. -/
theorem render_of_parenthesized (h : tree.kind = .parenthesized ∨ tree.kind = .awaitExpression) :
    render tree = ((tree.children.find? Tree.isNamed).map render).getD (.ok "<expr>") := by
  cases tree <;> rcases h with h | h <;> obtain rfl := h
  · rfl
  · rfl
  · simp [render, renderFirst_eq, Tree.children]
  · simp [render, renderFirst_eq, Tree.children]

/-- Whether an expression of this kind is rendered by more than a tag. -/
def isRendered : Kind → Bool
  | .identifier | .dottedName | .member | .call | .subscript | .parenthesized
  | .awaitExpression => true
  | _ => false

/-- Any other expression is rendered by a tag. -/
theorem render_of_other (h : isRendered tree.kind = false) : render tree = .ok (tagOf tree) := by
  cases tree with
  | token field kind => cases kind <;> first | rfl | cases h
  | branch field kind => cases kind <;> first | rfl | cases h

/-- The dotted name of a base class, read off a node as a whole. -/
theorem baseName_eq (tree : Tree) :
    baseName tree =
      if tree.kind = .identifier then .ok (some (textOf tree))
      else if tree.kind = .member then
        ((tree.child? .object).map fun object => do
          match ← baseName object with
          | some start => return some (start ++ "." ++ (← fieldText tree .memberName))
          | none => return none).getD (.ok none)
      else .ok none := by
  cases tree with
  | token field kind => cases kind <;> rfl
  | branch field kind line children =>
    cases kind
    case member =>
      simp only [baseName, baseNameAt_eq, Tree.child?, Tree.children]
      cases List.find? _ _ <;> rfl
    all_goals rfl

/-- What is called on the right side of an assignment, read off a node as a whole. -/
theorem assignedCallee_eq (tree : Tree) :
    assignedCallee tree =
      if tree.kind = .call then
        ((tree.child? .function).map fun callee => (render callee).map some).getD (.ok none)
      else if tree.kind = .assignment then
        ((tree.child? .right).map assignedCallee).getD (.ok none)
      else if tree.kind = .parenthesized ∨ tree.kind = .awaitExpression then
        ((tree.children.find? Tree.isNamed).map assignedCallee).getD (.ok none)
      else .ok none := by
  cases tree with
  | token field kind => cases kind <;> rfl
  | branch field kind line children =>
    cases kind
    case call =>
      simp only [assignedCallee, renderAt_eq, Tree.child?, Tree.children]
      cases List.find? _ _ <;> rfl
    case assignment =>
      simp [assignedCallee, assignedCalleeAt_eq, Tree.kind, Tree.child?, Tree.children]
    case parenthesized => simp [assignedCallee, assignedCalleeFirst_eq, Tree.kind, Tree.children]
    case awaitExpression => simp [assignedCallee, assignedCalleeFirst_eq, Tree.kind, Tree.children]
    all_goals rfl

/-- The text of a part, read off it if it is there. -/
theorem fieldText_eq (tree : Tree) (field : Field) :
    fieldText tree field =
      ((tree.child? field).map fun part => .ok (textOf part)).getD
        (.error (.lacksField tree.kind tree.line field)) := by
  unfold fieldText
  cases tree.child? field <;> rfl

end Extraction

end UsageAudit

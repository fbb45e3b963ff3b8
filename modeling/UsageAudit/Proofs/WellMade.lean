import UsageAudit.Proofs.NodeReadings
import UsageAudit.Proofs.Reading

/-!
# How syntax trees are put together

What the rules of the grammar promise of the nodes that they put together, besides their shape: a
body is a block, a construct that gives rise to elements is spelled by at least one character, and
what a definition, an argument by keyword or a member is called by is a single token.
-/

namespace UsageAudit.Script

/-- Whether a node in this role gives the node above its name. -/
def Field.isNaming : Field → Bool
  | .name | .nickname | .moduleName | .memberName => true
  | _ => false

/-- Whether a construct of this kind may give rise to elements. -/
def Kind.givesElements : Kind → Bool
  | .importStatement | .importFrom | .futureImport | .classDefinition | .functionDefinition
  | .call | .member | .assignment => true
  | _ => false

/-- Whether a construct of this kind is called by a single name. -/
def Kind.hasWordName : Kind → Bool
  | .classDefinition | .functionDefinition | .keywordArgument | .member
  | .typedDefaultParameter => true
  | _ => false

namespace Tree

/-- Whether the tree gives the node above its name. -/
def isNaming (tree : Tree) : Bool := tree.field.any Field.isNaming

/-- Whether a node is put together as its role and its kind ask. -/
structure Made (node : Tree) : Prop where
  body : node.field = some .body → node.kind = .block
  spelled : node.kind.givesElements = true → node.isToken = false → node.text ≠ []
  named : node.kind.hasWordName = true →
    ∀ child ∈ node.children, child.isNaming = true → child.isToken = true
  nickname : node.kind = .aliasedImport →
    ∀ child ∈ node.children, child.field = some .nickname → child.isToken = true

/-- Whether all nodes of a tree are put together as they should be. -/
def WellMade (tree : Tree) : Prop := ∀ node ∈ tree.nodes, node.Made

variable {tree : Tree} {field : Option Field} {kind : Kind} {line : Nat} {blank text : List Char}
  {children row : List Tree}

@[simp]
theorem made_token :
    (Tree.token field kind line blank text).Made ↔ (field = some .body → kind = .block) :=
  ⟨fun h => h.body, fun h => ⟨h, by simp [isToken], by simp [Tree.children],
    by simp [Tree.children]⟩⟩

@[simp]
theorem wellMade_token :
    (Tree.token field kind line blank text).WellMade ↔ (field = some .body → kind = .block) := by
  simp [WellMade, nodes]

@[simp]
theorem wellMade_branch : (Tree.branch field kind line children).WellMade ↔
    (Tree.branch field kind line children).Made ∧ ∀ child ∈ children, child.WellMade := by
  simp only [WellMade, nodes, List.forall_mem_cons, mem_nodesOf]
  grind

/-- The parts of a tree that is well made are well made. -/
theorem WellMade.part (h : tree.WellMade) {part : Tree} (hpart : part ∈ tree.children) :
    part.WellMade :=
  fun node hnode => h node (mem_nodes_trans (mem_nodes_of_mem_children hpart) hnode)

/-- A comment or a line continuation is well made. -/
theorem IsGap.wellMade (h : tree.IsGap) : tree.WellMade := by
  obtain ⟨kind, line, blank, text, hkind, rfl⟩ := h
  simp

/-- The role of a node does not matter for how it is made, unless it is that of a body. -/
theorem Made.withField (h : tree.Made) {field : Field}
    (hbody : field = .body → tree.kind = .block) : (tree.withField field).Made := by
  cases tree with
  | token => simpa [Tree.withField, Tree.kind] using hbody
  | branch =>
    exact ⟨by simpa [Tree.withField, Tree.field, Tree.kind] using hbody, h.spelled, h.named,
      h.nickname⟩

/-- The role of a tree does not matter for how it is made, unless it is that of a body. -/
theorem WellMade.withField (h : tree.WellMade) {field : Field}
    (hbody : field = .body → tree.kind = .block) : (tree.withField field).WellMade := by
  cases tree with
  | token => simpa [Tree.withField, Tree.kind] using hbody
  | branch old kind line children =>
    rw [wellMade_branch] at h
    exact wellMade_branch.mpr ⟨h.1.withField hbody, h.2⟩

/-- The characters of a tree are those from its first token on, with the blank space in front. The
line of a tree is counted from the start of that blank space. -/
theorem exists_lead (tree : Tree) : ∃ lead, tree.spelling = lead ++ tree.text ∧
    ∀ line, (tree.numbered line).line = line + lineFeeds lead := by
  induction tree using Tree.parts_induction with
  | token field kind line blank text => exact ⟨blank, rfl, fun _ => rfl⟩
  | branch field kind line children ih =>
    cases children with
    | nil => exact ⟨[], rfl, fun _ => rfl⟩
    | cons first rest =>
      obtain ⟨lead, hlead, hline⟩ := ih first List.mem_cons_self
      refine ⟨lead, ?_, fun start => ?_⟩
      · simp [spelling, spellings, Tree.text, texts, hlead]
      · simpa [Tree.numbered, numberedAll, Tree.line] using hline start

/-- A row is spelled by something if one of its members is. -/
theorem texts_ne_nil (hmem : tree ∈ row) (htext : tree.text ≠ []) : texts row ≠ [] := by
  have hspelling {tree : Tree} (htext : tree.text ≠ []) : tree.spelling ≠ [] := by
    obtain ⟨lead, hlead, -⟩ := tree.exists_lead
    simp [hlead, htext]
  cases row with
  | nil => cases hmem
  | cons first rest =>
    rcases List.mem_cons.mp hmem with rfl | hmem
    · simp [texts, htext]
    · obtain ⟨before, behind, rfl⟩ := List.append_of_mem hmem
      have hrow : spellings (before ++ tree :: behind) ≠ [] := by
        clear hmem
        induction before with
        | nil => simp [spellings, hspelling htext]
        | cons other others ih => simp [spellings, ih]
      simp [texts, hrow]

end Tree

/-- Whether a row of trees is spelled by at least one character, not counting comments. -/
def Spelled (row : List Tree) : Prop := ∃ tree ∈ row, tree.isExtra = false ∧ tree.text ≠ []

/-- More trees behind a row. -/
theorem Spelled.append_left {row : List Tree} (h : Spelled row) (more : List Tree) :
    Spelled (row ++ more) := by
  obtain ⟨tree, hmem, htree⟩ := h
  exact ⟨tree, List.mem_append_left _ hmem, htree⟩

/-- More trees in front of a row. -/
theorem Spelled.append_right {row : List Tree} (h : Spelled row) (more : List Tree) :
    Spelled (more ++ row) := by
  obtain ⟨tree, hmem, htree⟩ := h
  exact ⟨tree, List.mem_append_right _ hmem, htree⟩

end UsageAudit.Script

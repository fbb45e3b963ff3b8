import UsageAudit.Proofs.WellMade

/-!
# The shape of syntax trees

What the walk over a tree relies on: a node that is called the name of something is made of nothing
but names and the signs between them, a member is a single name without a dot, names and numbers are
tokens, a text literal starts with its opening mark, and no expression is built on a dotted name as
a whole. This file says so of a single node and shows which ways to put nodes together keep it, and
which of them make nodes as they should be made.
-/

namespace UsageAudit.Script

/-- Whether names are made of nodes of this kind: names themselves, the signs between them, and what
may stand in front of any token. -/
def Kind.ofName : Kind → Bool
  | .sign | .identifier | .dottedName | .importDots | .relativeImport | .aliasedImport | .comment
  | .lineContinuation => true
  | _ => false

/-- Whether a node of this kind has no parts. -/
def Kind.isLeaf : Kind → Bool
  | .sign | .identifier | .integer | .float | .stringStart => true
  | _ => false

/-- Whether nothing but the roles of its parts is asked of the shape of a node of this kind. -/
def Kind.isFree (kind : Kind) : Bool := !(kind.isLeaf || kind == .dottedName || kind == .string)

/-- Whether nothing is asked of how a node of this kind is made but that its name is a token. -/
def Kind.isPlain (kind : Kind) : Bool :=
  kind.isFree && !kind.givesElements && kind != .aliasedImport

/-- Whether a name may be a node of this kind that holds the parts of the name and nothing of its
own. -/
def Kind.isComposedName : Kind → Bool
  | .dottedName | .importDots | .relativeImport => true
  | _ => false

/-- Whether a name of more than one part may play this role. -/
def Field.isComposable : Field → Bool
  | .name | .nickname | .moduleName => true
  | _ => false

/-- Whether any expression may play this role. -/
def Field.isOpen (field : Field) : Bool := !(field.isNaming || field == .body)

/-- Whether an expression of this kind is built on another one that is rendered with it. -/
def Kind.buildsOn : Kind → Bool
  | .member | .call | .subscript | .parenthesized | .awaitExpression => true
  | _ => false

/-- Whether nothing is asked of the parts of a node of this kind but that they fit their roles. -/
def Kind.isBare (kind : Kind) : Bool := kind.isPlain && !kind.buildsOn && !kind.hasWordName

/-- Whether a node of this kind imports what its parts name. -/
def Kind.importsNames : Kind → Bool
  | .importStatement | .importFrom | .futureImport => true
  | _ => false

namespace Tree

/-- Whether the tree is made of nothing but names and the signs between them. -/
def IsName (tree : Tree) : Prop := ∀ node ∈ tree.nodes, node.kind.ofName = true

/-- Whether the tree is a single name without a dot. -/
def IsWord (tree : Tree) : Prop :=
  ∃ field line blank text, '.' ∉ text ∧ tree = .token field .identifier line blank text

/-- Whether the tree is what its role asks for. -/
structure FitsRole (tree : Tree) : Prop where
  isName : ∀ field, tree.field = some field → field.isNaming = true → tree.IsName
  isWord : tree.field = some .memberName → tree.IsWord

/-- Whether a node has the shape that its kind asks for. The name of a parameter with a default may
be a pattern. -/
structure Shaped (node : Tree) : Prop where
  roles : node.kind ≠ .defaultParameter → ∀ child ∈ node.children, child.FitsRole
  dotted : node.kind = .dottedName → node.IsName
  leaf : node.kind.isLeaf = true → node.children = []
  opening : node.kind = .string →
    ∃ child rest, node.children = child :: rest ∧ child.kind = .stringStart
  plain : node.kind = .identifier → '.' ∉ node.text
  base : node.kind.buildsOn = true → ∀ child ∈ node.children, child.kind ≠ .dottedName

/-- Whether all nodes of a tree have their shapes. -/
def WellShaped (tree : Tree) : Prop := ∀ node ∈ tree.nodes, node.Shaped

variable {tree : Tree} {field : Option Field} {kind : Kind} {line : Nat} {blank text : List Char}
  {children : List Tree}

@[simp]
theorem isName_token : (Tree.token field kind line blank text).IsName ↔ kind.ofName = true := by
  simp [IsName, nodes, Tree.kind]

@[simp]
theorem isName_branch : (Tree.branch field kind line children).IsName ↔
    kind.ofName = true ∧ ∀ child ∈ children, child.IsName := by
  simp only [IsName, nodes, List.forall_mem_cons, mem_nodesOf, Tree.kind]
  grind

/-- A single name is a name. -/
theorem IsWord.isName (h : tree.IsWord) : tree.IsName := by
  obtain ⟨field, line, blank, text, _, rfl⟩ := h
  simp [Kind.ofName]

@[simp]
theorem shaped_token : (Tree.token field kind line blank text).Shaped ↔
    kind ≠ .string ∧ (kind = .identifier → '.' ∉ text) := by
  constructor
  · intro h
    refine ⟨fun hkind => ?_, h.plain⟩
    obtain ⟨child, rest, hchildren, _⟩ := h.opening hkind
    simp [Tree.children] at hchildren
  · rintro ⟨hstring, hplain⟩
    refine ⟨?_, ?_, fun _ => rfl, fun hkind => absurd hkind hstring, hplain, ?_⟩
    · simp [Tree.children]
    · rintro rfl
      simp [Kind.ofName]
    · simp [Tree.children]

@[simp]
theorem wellShaped_token : (Tree.token field kind line blank text).WellShaped ↔
    kind ≠ .string ∧ (kind = .identifier → '.' ∉ text) := by
  simp [WellShaped, nodes]

@[simp]
theorem wellShaped_branch : (Tree.branch field kind line children).WellShaped ↔
    (Tree.branch field kind line children).Shaped ∧ ∀ child ∈ children, child.WellShaped := by
  simp only [WellShaped, nodes, List.forall_mem_cons, mem_nodesOf]
  grind

/-- The parts of a tree that has its shape all through have theirs. -/
theorem WellShaped.part (h : tree.WellShaped) {part : Tree} (hpart : part ∈ tree.children) :
    part.WellShaped :=
  fun node hnode => h node (mem_nodes_trans (mem_nodes_of_mem_children hpart) hnode)

/-- A node of which nothing more is asked has its shape if its parts fit their roles, and none of
them is a dotted name where an expression is built on one of them. -/
theorem shaped_of_isFree (hkind : kind.isFree = true) (h : ∀ child ∈ children, child.FitsRole)
    (hbase : kind.buildsOn = true → ∀ child ∈ children, child.kind ≠ .dottedName) :
    (Tree.branch field kind line children).Shaped := by
  refine ⟨fun _ => h, ?_, ?_, ?_, ?_, hbase⟩ <;> intro hother <;> simp only [Tree.kind] at hother
  · simp [hother, Kind.isFree] at hkind
  · simp [hother, Kind.isFree] at hkind
  · simp [hother, Kind.isFree] at hkind
  · simp [hother, Kind.isFree, Kind.isLeaf] at hkind

/-- A node without a role fits it. -/
theorem fitsRole_of_field_eq_none (h : tree.field = none) : tree.FitsRole :=
  ⟨fun field hfield => by simp [h] at hfield, fun hfield => by simp [h] at hfield⟩

/-- A comment or a line continuation is a name. -/
theorem IsGap.isName (h : tree.IsGap) : tree.IsName := by
  obtain ⟨kind, line, blank, text, hkind, rfl⟩ := h
  cases kind <;> simp_all [Kind.isExtra, Kind.ofName]

/-- A comment or a line continuation has its shape. -/
theorem IsGap.wellShaped (h : tree.IsGap) : tree.WellShaped := by
  obtain ⟨kind, line, blank, text, hkind, rfl⟩ := h
  rw [wellShaped_token]
  constructor <;> rintro rfl <;> simp [Kind.isExtra] at hkind

/-- A comment or a line continuation plays no role. -/
theorem IsGap.field_eq_none (h : tree.IsGap) : tree.field = none := by
  obtain ⟨kind, line, blank, text, hkind, rfl⟩ := h
  rfl

/-- A comment or a line continuation fits its role. -/
theorem IsGap.fitsRole (h : tree.IsGap) : tree.FitsRole := fitsRole_of_field_eq_none h.field_eq_none

/-- A comment or a line continuation may stand between any two tokens. -/
theorem IsGap.isExtra (h : tree.IsGap) : tree.isExtra = true := by
  obtain ⟨kind, line, blank, text, hkind, rfl⟩ := h
  exact hkind

@[simp]
theorem field_withField (field : Field) (tree : Tree) :
    (tree.withField field).field = some field := by
  cases tree <;> rfl

@[simp]
theorem kind_withField (field : Field) (tree : Tree) : (tree.withField field).kind = tree.kind := by
  cases tree <;> rfl

@[simp]
theorem isToken_withField (field : Field) (tree : Tree) :
    (tree.withField field).isToken = tree.isToken := by
  cases tree <;> rfl

@[simp]
theorem text_withField (field : Field) (tree : Tree) : (tree.withField field).text = tree.text := by
  cases tree <;> rfl

@[simp]
theorem isName_withField {field : Field} : (tree.withField field).IsName ↔ tree.IsName := by
  cases tree <;> simp [withField]

/-- The role of a node does not matter for its shape. -/
theorem Shaped.withField (h : tree.Shaped) (field : Field) : (tree.withField field).Shaped := by
  cases tree with
  | token => simpa [Tree.withField] using h
  | branch old kind line children =>
    exact ⟨h.roles, fun hkind => isName_withField.mpr (h.dotted hkind), h.leaf, h.opening, h.plain,
      h.base⟩

/-- The role of a tree does not matter for the shapes in it. -/
theorem WellShaped.withField (h : tree.WellShaped) (field : Field) :
    (tree.withField field).WellShaped := by
  cases tree with
  | token => simpa [Tree.withField] using h
  | branch old kind line children =>
    rw [wellShaped_branch] at h
    exact wellShaped_branch.mpr ⟨h.1.withField field, h.2⟩

/-- A single name fits any role. -/
theorem IsWord.fitsRole (h : tree.IsWord) : tree.FitsRole :=
  ⟨fun _ _ _ => h.isName, fun _ => h⟩

/-- A single name is one in any role. -/
theorem IsWord.withField (h : tree.IsWord) (field : Field) : (tree.withField field).IsWord := by
  obtain ⟨_, line, blank, text, hdot, rfl⟩ := h
  exact ⟨some field, line, blank, text, hdot, rfl⟩

end Tree

/-- Whether the nodes of a row have their shapes and are well made, and comments in it play no
role. -/
structure Formed (row : List Tree) : Prop where
  wellShaped : ∀ tree ∈ row, tree.WellShaped
  wellMade : ∀ tree ∈ row, tree.WellMade
  extras : ∀ tree ∈ row, tree.isExtra = true → tree.field = none

/-- Whether the nodes of a row have their shapes, are well made and fit their roles. -/
structure Fitting (row : List Tree) : Prop extends Formed row where
  fitsRole : ∀ tree ∈ row, tree.FitsRole

/-- Whether expressions can be built on the nodes of a row, which have their shapes, are well made
and fit their roles: none is a dotted name, and a name of the node above is a single token. -/
structure Sound (row : List Tree) : Prop extends Fitting row where
  undotted : ∀ tree ∈ row, tree.kind ≠ .dottedName
  worded : ∀ tree ∈ row, tree.isNaming = true → tree.isToken = true

/-- Whether a row is made of nothing but names and signs. -/
structure NameRow (row : List Tree) : Prop extends Fitting row where
  isName : ∀ tree ∈ row, tree.IsName

/-- Whether a row holds nothing but single names and what stands in front of them. -/
structure WordRow (row : List Tree) : Prop extends NameRow row where
  isWord : ∀ tree ∈ row, tree.isExtra = false → tree.IsWord
  isToken : ∀ tree ∈ row, tree.isToken = true

/-- Formed rows one after the other. -/
theorem Formed.append {first second : List Tree} (hfirst : Formed first) (hsecond : Formed second) :
    Formed (first ++ second) :=
  ⟨List.forall_mem_append.mpr ⟨hfirst.wellShaped, hsecond.wellShaped⟩,
    List.forall_mem_append.mpr ⟨hfirst.wellMade, hsecond.wellMade⟩,
    List.forall_mem_append.mpr ⟨hfirst.extras, hsecond.extras⟩⟩

/-- The empty row is formed. -/
theorem Formed.nil : Formed [] := ⟨by simp, by simp, by simp⟩

/-- Fitting rows one after the other. -/
theorem Fitting.append {first second : List Tree} (hfirst : Fitting first)
    (hsecond : Fitting second) : Fitting (first ++ second) :=
  ⟨hfirst.toFormed.append hsecond.toFormed,
    List.forall_mem_append.mpr ⟨hfirst.fitsRole, hsecond.fitsRole⟩⟩

/-- Rows fit if they are put together from fitting rows. -/
theorem Fitting.additive : Reader.Additive Fitting := ⟨⟨.nil, by simp⟩, .append⟩

/-- Sound rows one after the other. -/
theorem Sound.append {first second : List Tree} (hfirst : Sound first) (hsecond : Sound second) :
    Sound (first ++ second) :=
  ⟨hfirst.toFitting.append hsecond.toFitting,
    List.forall_mem_append.mpr ⟨hfirst.undotted, hsecond.undotted⟩,
    List.forall_mem_append.mpr ⟨hfirst.worded, hsecond.worded⟩⟩

/-- The empty row is sound. -/
theorem Sound.nil : Sound [] := ⟨Fitting.additive.nil, by simp, by simp⟩

/-- Rows are sound if they are put together from sound rows. -/
theorem Sound.additive : Reader.Additive Sound := ⟨.nil, .append⟩

/-- Rows of names one after the other. -/
theorem NameRow.append {first second : List Tree} (hfirst : NameRow first)
    (hsecond : NameRow second) : NameRow (first ++ second) :=
  ⟨hfirst.toFitting.append hsecond.toFitting,
    List.forall_mem_append.mpr ⟨hfirst.isName, hsecond.isName⟩⟩

/-- Rows are made of names if they are put together from such rows. -/
theorem NameRow.additive : Reader.Additive NameRow := ⟨⟨Fitting.additive.nil, by simp⟩, .append⟩

/-- What stands in front of a token is made of names. -/
theorem IsGapRow.nameRow {row : List Tree} (h : IsGapRow row) : NameRow row :=
  ⟨⟨⟨fun tree hmem => (h tree hmem).wellShaped, fun tree hmem => (h tree hmem).wellMade,
    fun tree hmem _ => (h tree hmem).field_eq_none⟩, fun tree hmem => (h tree hmem).fitsRole⟩,
    fun tree hmem => (h tree hmem).isName⟩

/-- What stands in front of a token is sound. -/
theorem IsGapRow.sound {row : List Tree} (h : IsGapRow row) : Sound row := by
  refine ⟨h.nameRow.toFitting, fun tree hmem hkind => ?_, fun tree hmem hnaming => ?_⟩
  · have hextra := (h tree hmem).isExtra
    simp [Tree.isExtra, hkind, Kind.isExtra] at hextra
  · simp [Tree.isNaming, (h tree hmem).field_eq_none] at hnaming

/-- A row of single names is sound. -/
theorem WordRow.sound {row : List Tree} (h : WordRow row) : Sound row := by
  refine ⟨h.toFitting, fun tree hmem hkind => ?_, fun tree hmem _ => h.isToken tree hmem⟩
  have hextra : tree.isExtra = false := by simp [Tree.isExtra, hkind, Kind.isExtra]
  obtain ⟨field, line, blank, text, _, rfl⟩ := h.isWord tree hmem hextra
  cases hkind

/-- A single node without a role. -/
theorem Fitting.singleton {tree : Tree} (h : tree.WellShaped) (hmade : tree.WellMade)
    (hfield : tree.field = none) : Fitting [tree] :=
  ⟨⟨by simpa using h, by simpa using hmade, by simpa using fun _ => hfield⟩,
    by simpa using Tree.fitsRole_of_field_eq_none hfield⟩

/-- A single node without a role that is no dotted name. -/
theorem Sound.singleton {tree : Tree} (h : tree.WellShaped) (hmade : tree.WellMade)
    (hfield : tree.field = none) (hkind : tree.kind ≠ .dottedName) : Sound [tree] :=
  ⟨.singleton h hmade hfield, by simpa using hkind, by simp [Tree.isNaming, hfield]⟩

/-- A single token without a role that is neither a text literal nor a name. -/
theorem Sound.token {kind : Kind} (hkind : kind ≠ .string ∧ kind ≠ .identifier ∧ kind ≠ .dottedName)
    (blank text : List Char) : Sound [.token none kind 0 blank text] :=
  .singleton (Tree.wellShaped_token.mpr ⟨hkind.1, fun h => absurd h hkind.2.1⟩) (by simp) rfl
    hkind.2.2

/-- A kind of which nothing more is asked is no dotted name. -/
theorem Kind.ne_dottedName_of_isFree {kind : Kind} (h : kind.isFree = true) :
    kind ≠ .dottedName := by
  rintro rfl
  simp [isFree] at h

/-- A sound row as the parts of one plain node. -/
theorem Sound.branch {row : List Tree} (h : Sound row) {kind : Kind} (hkind : kind.isPlain = true) :
    Sound [.branch none kind 0 row] := by
  simp only [Kind.isPlain, Bool.and_eq_true, Bool.not_eq_true', bne_iff_ne] at hkind
  obtain ⟨⟨hfree, hgives⟩, halias⟩ := hkind
  refine .singleton (Tree.wellShaped_branch.mpr ⟨?_, h.wellShaped⟩)
    (Tree.wellMade_branch.mpr ⟨⟨by simp [Tree.field], ?_, fun _ => h.worded, ?_⟩, h.wellMade⟩) rfl
    (Kind.ne_dottedName_of_isFree hfree)
  · exact Tree.shaped_of_isFree hfree h.fitsRole fun _ => h.undotted
  · simp [Tree.kind, hgives]
  · exact fun h => absurd h halias

/-- What is enclosed splits a row into what stays outside and what is inside. -/
theorem enclose_eq (kind : Kind) (row : List Tree) :
    enclose kind row =
      row.takeWhile Tree.isExtra ++ [.branch none kind 0 (row.dropWhile Tree.isExtra)] := by
  simp [enclose, List.span_eq_takeWhile_dropWhile]

/-- A row that is spelled by something makes a node that is. -/
theorem Spelled.text_ne_nil {row : List Tree} (h : Spelled row) (kind : Kind) :
    (Tree.branch none kind 0 (row.dropWhile Tree.isExtra)).text ≠ [] := by
  obtain ⟨tree, hmem, hextra, htext⟩ := h
  refine Tree.texts_ne_nil (?_ : tree ∈ row.dropWhile Tree.isExtra) htext
  rw [← List.takeWhile_append_dropWhile (p := Tree.isExtra) (l := row), List.mem_append] at hmem
  refine hmem.resolve_left fun houtside => ?_
  simp [List.mem_takeWhile_imp houtside] at hextra

/-- What becomes one node is spelled by something if the row was. -/
theorem Spelled.enclose {row : List Tree} (h : Spelled row) {kind : Kind}
    (hkind : kind.isExtra = false) : Spelled (enclose kind row) := by
  rw [enclose_eq]
  exact ⟨_, List.mem_append_right _ (List.mem_singleton_self _), hkind, h.text_ne_nil kind⟩

/-- How a row must be put together so that it makes a node of the kind. -/
structure Kind.Makes (kind : Kind) (row : List Tree) : Prop where
  spelled : kind.givesElements = true → Spelled row
  named : kind.hasWordName = true → ∀ tree ∈ row, tree.isNaming = true → tree.isToken = true
  nickname : kind = .aliasedImport →
    ∀ tree ∈ row, tree.field = some .nickname → tree.isToken = true

/-- A row that is put together as it should be makes a node that is. -/
theorem Kind.Makes.made {kind : Kind} {row : List Tree} (h : kind.Makes row) :
    (Tree.branch none kind 0 (row.dropWhile Tree.isExtra)).Made := by
  have hinside : ∀ tree ∈ row.dropWhile Tree.isExtra, tree ∈ row :=
    fun tree hmem => (List.dropWhile_sublist _).subset hmem
  exact ⟨by simp [Tree.field], fun hgives _ => (h.spelled hgives).text_ne_nil kind,
    fun hword tree hmem => h.named hword tree (hinside tree hmem),
    fun halias tree hmem => h.nickname halias tree (hinside tree hmem)⟩

/-- Nothing is asked of a row for a node of a plain kind but of the names in it. -/
theorem Kind.Makes.of_isPlain {kind : Kind} {row : List Tree} (hkind : kind.isPlain = true)
    (hnamed : kind.hasWordName = true → ∀ tree ∈ row, tree.isNaming = true → tree.isToken = true) :
    kind.Makes row := by
  simp only [Kind.isPlain, Bool.and_eq_true, Bool.not_eq_true', bne_iff_ne] at hkind
  exact ⟨by simp [hkind.1.2], hnamed, fun halias => absurd halias hkind.2⟩

/-- Of the shape of a plain node nothing is asked but the roles of its parts. -/
theorem Kind.isFree_of_isPlain {kind : Kind} (h : kind.isPlain = true) : kind.isFree = true := by
  simp only [Kind.isPlain, Bool.and_eq_true] at h
  exact h.1.1

/-- A row that becomes one node: what stays outside fits if it did, and so does the node if it has
its shape and the row was put together as it should be. -/
theorem Formed.enclose {row : List Tree} (h : Formed row) {kind : Kind}
    (hnode : (Tree.branch none kind 0 (row.dropWhile Tree.isExtra)).Shaped)
    (hmakes : kind.Makes row) : Fitting (enclose kind row) := by
  have hinside : ∀ tree ∈ row.dropWhile Tree.isExtra, tree ∈ row :=
    fun tree hmem => (List.dropWhile_sublist _).subset hmem
  have houtside : ∀ tree ∈ row.takeWhile Tree.isExtra, tree ∈ row ∧ tree.isExtra = true :=
    fun tree hmem => ⟨(List.takeWhile_sublist _).subset hmem, List.mem_takeWhile_imp hmem⟩
  rw [enclose_eq]
  refine .append ⟨⟨?_, ?_, ?_⟩, ?_⟩ (.singleton ?_ ?_ rfl)
  · exact fun tree hmem => h.wellShaped tree (houtside tree hmem).1
  · exact fun tree hmem => h.wellMade tree (houtside tree hmem).1
  · exact fun tree hmem _ => h.extras tree (houtside tree hmem).1 (houtside tree hmem).2
  · exact fun tree hmem => Tree.fitsRole_of_field_eq_none
      (h.extras tree (houtside tree hmem).1 (houtside tree hmem).2)
  · exact Tree.wellShaped_branch.mpr ⟨hnode, fun tree hmem => h.wellShaped tree (hinside tree hmem)⟩
  · exact Tree.wellMade_branch.mpr
      ⟨hmakes.made, fun tree hmem => h.wellMade tree (hinside tree hmem)⟩

/-- A member of what is enclosed is the node or stays outside. -/
theorem mem_enclose {kind : Kind} {row : List Tree} {tree : Tree} (h : tree ∈ enclose kind row) :
    tree.isExtra = true ∨ tree = .branch none kind 0 (row.dropWhile Tree.isExtra) := by
  rw [enclose_eq, List.mem_append, List.mem_singleton] at h
  exact h.imp_left fun hmem => List.mem_takeWhile_imp hmem

/-- What is enclosed plays no role. -/
theorem Formed.field_enclose {kind : Kind} {row : List Tree}
    (h : Formed (Script.enclose kind row)) :
    ∀ tree ∈ Script.enclose kind row, tree.field = none := by
  intro tree hmem
  rcases mem_enclose hmem with hextra | rfl
  · exact h.extras tree hmem hextra
  · rfl

/-- What becomes one node is sound if the node is no dotted name. -/
theorem Fitting.sound_enclose {row : List Tree} {kind : Kind} (h : Fitting (enclose kind row))
    (hkind : kind ≠ .dottedName) : Sound (enclose kind row) := by
  refine ⟨h, fun tree hmem hdotted => ?_, fun tree hmem hnaming => ?_⟩
  · rcases mem_enclose hmem with hextra | rfl
    · simp [Tree.isExtra, hdotted, Kind.isExtra] at hextra
    · exact hkind hdotted
  · simp [Tree.isNaming, h.toFormed.field_enclose tree hmem] at hnaming

/-- A fitting row that makes a node as it should be, which is built on none of its parts. -/
theorem Fitting.enclose_of_makes {row : List Tree} (h : Fitting row) {kind : Kind}
    (hkind : kind.isFree = true) (hbase : kind.buildsOn = false) (hmakes : kind.Makes row) :
    Sound (enclose kind row) := by
  refine (h.toFormed.enclose (Tree.shaped_of_isFree hkind (fun tree hmem => ?_) ?_)
    hmakes).sound_enclose (Kind.ne_dottedName_of_isFree hkind)
  · exact h.fitsRole tree ((List.dropWhile_sublist _).subset hmem)
  · exact fun hbuilds => absurd hbuilds (by simp [hbase])

/-- A sound row that makes a node as it should be. -/
theorem Sound.enclose_of_makes {row : List Tree} (h : Sound row) {kind : Kind}
    (hkind : kind.isFree = true) (hmakes : kind.Makes row) : Sound (enclose kind row) := by
  refine (h.toFormed.enclose (Tree.shaped_of_isFree hkind (fun tree hmem => ?_) ?_)
    hmakes).sound_enclose (Kind.ne_dottedName_of_isFree hkind)
  · exact h.fitsRole tree ((List.dropWhile_sublist _).subset hmem)
  · exact fun _ tree hmem => h.undotted tree ((List.dropWhile_sublist _).subset hmem)

/-- A fitting row that becomes a node of which nothing more is asked. -/
theorem Fitting.enclose {row : List Tree} (h : Fitting row) {kind : Kind}
    (hkind : kind.isBare = true) : Sound (enclose kind row) := by
  simp only [Kind.isBare, Bool.and_eq_true, Bool.not_eq_true'] at hkind
  obtain ⟨⟨hplain, hbase⟩, hword⟩ := hkind
  exact h.enclose_of_makes (Kind.isFree_of_isPlain hplain) hbase
    (.of_isPlain hplain (by simp [hword]))

/-- A sound row that becomes a plain node. -/
theorem Sound.enclose {row : List Tree} (h : Sound row) {kind : Kind}
    (hkind : kind.isPlain = true) : Sound (enclose kind row) :=
  h.enclose_of_makes (Kind.isFree_of_isPlain hkind) (.of_isPlain hkind fun _ => h.worded)

/-- Of the parts of a statement that imports something nothing is asked but that they fit their
roles. -/
theorem Kind.free_of_importsNames {kind : Kind} (h : kind.importsNames = true) :
    kind.isFree = true ∧ kind.buildsOn = false ∧ kind.hasWordName = false ∧
      kind ≠ .aliasedImport := by
  revert h
  cases kind <;> decide

/-- Of the shape of a node that gives rise to elements nothing is asked but the roles of its
parts. -/
theorem Kind.free_of_givesElements {kind : Kind} (h : kind.givesElements = true) :
    kind.isFree = true ∧ kind ≠ .aliasedImport := by
  revert h
  cases kind <;> decide

/-- A fitting row that is spelled by something becomes a statement that imports what it names. -/
theorem Fitting.enclose_spelled {row : List Tree} (h : Fitting row) (hrow : Spelled row)
    {kind : Kind} (hkind : kind.importsNames = true) : Sound (Script.enclose kind row) := by
  obtain ⟨hfree, hbase, hword, halias⟩ := Kind.free_of_importsNames hkind
  exact h.enclose_of_makes hfree hbase
    ⟨fun _ => hrow, by simp [hword], fun h => absurd h halias⟩

/-- A sound row that is spelled by something becomes a node that gives rise to elements. -/
theorem Sound.enclose_spelled {row : List Tree} (h : Sound row) (hrow : Spelled row) {kind : Kind}
    (hkind : kind.givesElements = true) : Sound (Script.enclose kind row) := by
  obtain ⟨hfree, halias⟩ := Kind.free_of_givesElements hkind
  exact h.enclose_of_makes hfree ⟨fun _ => hrow, fun _ => h.worded, fun h => absurd h halias⟩

/-- A row of names that becomes one name. The name of its own that an imported name has in the
script is a single one. -/
theorem NameRow.enclose_of_nickname {row : List Tree} (h : NameRow row) {kind : Kind}
    (hkind : kind.ofName = true) (hleaf : kind.isLeaf = false)
    (hnickname : kind = .aliasedImport →
      ∀ tree ∈ row, tree.field = some .nickname → tree.isToken = true) :
    NameRow (enclose kind row) := by
  have hinside : ∀ tree ∈ row.dropWhile Tree.isExtra, tree ∈ row :=
    fun tree hmem => (List.dropWhile_sublist _).subset hmem
  have hname : (Tree.branch none kind 0 (row.dropWhile Tree.isExtra)).IsName :=
    Tree.isName_branch.mpr ⟨hkind, fun tree hmem => h.isName tree (hinside tree hmem)⟩
  refine ⟨h.toFormed.enclose ⟨?_, fun _ => hname, ?_, ?_, ?_, ?_⟩ ⟨?_, ?_, hnickname⟩, ?_⟩
  · exact fun _ tree hmem => h.fitsRole tree (hinside tree hmem)
  · exact fun hother => absurd hother (by simp [Tree.kind, hleaf])
  · intro hstring
    obtain rfl : kind = .string := hstring
    simp [Kind.ofName] at hkind
  · intro hidentifier
    obtain rfl : kind = .identifier := hidentifier
    simp [Kind.isLeaf] at hleaf
  · intro hbuilds
    cases kind <;> simp_all [Tree.kind, Kind.ofName, Kind.buildsOn]
  · intro hgives
    cases kind <;> simp_all [Kind.ofName, Kind.givesElements]
  · intro hword
    cases kind <;> simp_all [Kind.ofName, Kind.hasWordName]
  · rw [enclose_eq]
    refine List.forall_mem_append.mpr ⟨fun tree hmem => ?_, by simpa using hname⟩
    exact h.isName tree ((List.takeWhile_sublist _).subset hmem)

/-- A row of names that becomes one composed name. -/
theorem NameRow.enclose {row : List Tree} (h : NameRow row) {kind : Kind}
    (hkind : kind.isComposedName = true) : NameRow (Script.enclose kind row) := by
  have hname : kind.ofName = true ∧ kind.isLeaf = false ∧ kind ≠ .aliasedImport := by
    revert hkind
    cases kind <;> decide
  obtain ⟨hname, hleaf, halias⟩ := hname
  exact h.enclose_of_nickname hname hleaf fun h => absurd h halias

/-- A member of a labelled row was in the row, or is its first node that is no comment in a new
role. -/
theorem mem_label {field : Field} {row : List Tree} {tree : Tree} (h : tree ∈ label field row) :
    tree ∈ row ∨ ∃ old ∈ row, old.isExtra = false ∧ tree = old.withField field := by
  induction row with
  | nil => simp [label] at h
  | cons first rest ih =>
    simp only [label] at h
    split at h
    · rcases List.mem_cons.mp h with rfl | h
      · simp
      · rcases ih h with hmem | ⟨old, hold, hextra, rfl⟩
        · simp [hmem]
        · exact .inr ⟨old, by simp [hold], hextra, rfl⟩
    · rename_i hextra
      rcases List.mem_cons.mp h with rfl | h
      · exact .inr ⟨first, by simp, by simpa using hextra, rfl⟩
      · simp [h]

/-- The role of the first node of a row does not matter for how the row is spelled. -/
theorem Spelled.label {row : List Tree} (h : Spelled row) (field : Field) :
    Spelled (label field row) := by
  induction row with
  | nil => exact h
  | cons first rest ih =>
    obtain ⟨tree, hmem, hextra, htext⟩ := h
    simp only [Script.label]
    split
    · rename_i hfirst
      rcases List.mem_cons.mp hmem with rfl | hmem
      · simp [hfirst] at hextra
      · exact (ih ⟨tree, hmem, hextra, htext⟩).append_right [first]
    · rcases List.mem_cons.mp hmem with rfl | hmem
      · exact ⟨_, List.mem_cons_self, by simpa [Tree.isExtra] using hextra, by simpa using htext⟩
      · exact ⟨tree, List.mem_cons_of_mem _ hmem, hextra, htext⟩

/-- A labelled row is formed, if only blocks are made bodies. -/
theorem Fitting.formed_label {row : List Tree} (h : Fitting row) {field : Field}
    (hbody : field = .body → ∀ tree ∈ row, tree.isExtra = false → tree.kind = .block) :
    Formed (label field row) := by
  refine ⟨fun tree hmem => ?_, fun tree hmem => ?_, fun tree hmem hextra => ?_⟩
  · rcases mem_label hmem with hmem | ⟨old, hold, _, rfl⟩
    · exact h.wellShaped tree hmem
    · exact (h.wellShaped old hold).withField field
  · rcases mem_label hmem with hmem | ⟨old, hold, hextra, rfl⟩
    · exact h.wellMade tree hmem
    · exact (h.wellMade old hold).withField fun hfield => hbody hfield old hold hextra
  · rcases mem_label hmem with hmem | ⟨old, hold, hnot, rfl⟩
    · exact h.extras tree hmem hextra
    · simp_all [Tree.isExtra]

/-- A labelled row fits if its first node that is no comment fits the role. -/
theorem Fitting.label_of {row : List Tree} (h : Fitting row) {field : Field}
    (hbody : field = .body → ∀ tree ∈ row, tree.isExtra = false → tree.kind = .block)
    (hfits : ∀ tree ∈ row, tree.isExtra = false → (tree.withField field).FitsRole) :
    Fitting (label field row) := by
  refine ⟨h.formed_label hbody, fun tree hmem => ?_⟩
  rcases mem_label hmem with hmem | ⟨old, hold, hextra, rfl⟩
  · exact h.fitsRole tree hmem
  · exact hfits old hold hextra

/-- A labelled row is sound if its members were no dotted names, and those that name the node above
were single tokens. -/
theorem Sound.of_label {row : List Tree} (h : Sound row) {field : Field}
    (hfitting : Fitting (label field row))
    (hworded : field.isNaming = true → ∀ tree ∈ row, tree.isToken = true) :
    Sound (label field row) := by
  refine ⟨hfitting, fun tree hmem => ?_, fun tree hmem hnaming => ?_⟩
  · rcases mem_label hmem with hmem | ⟨old, hold, _, rfl⟩
    · exact h.undotted tree hmem
    · rw [Tree.kind_withField]
      exact h.undotted old hold
  · rcases mem_label hmem with hmem | ⟨old, hold, _, rfl⟩
    · exact h.worded tree hmem hnaming
    · rw [Tree.isToken_withField]
      exact hworded (by simpa [Tree.isNaming] using hnaming) old hold

/-- A row in a role that does not name anything, if only blocks are made bodies. -/
theorem Sound.label_of {row : List Tree} (h : Sound row) {field : Field}
    (hfield : field.isNaming = false)
    (hbody : field = .body → ∀ tree ∈ row, tree.isExtra = false → tree.kind = .block) :
    Sound (label field row) := by
  refine h.of_label (h.toFitting.label_of hbody fun tree _ _ =>
    ⟨fun other hother hnaming => ?_, fun hmember => ?_⟩) (by simp [hfield])
  · rw [Tree.field_withField, Option.some.injEq] at hother
    simp [← hother, hfield] at hnaming
  · rw [Tree.field_withField, Option.some.injEq] at hmember
    simp [hmember, Field.isNaming] at hfield

/-- A row in a role that any expression may play. -/
theorem Sound.label {row : List Tree} (h : Sound row) {field : Field}
    (hfield : field.isOpen = true) : Sound (label field row) := by
  simp only [Field.isOpen, Bool.not_eq_true', Bool.or_eq_false_iff, beq_eq_false_iff_ne] at hfield
  exact h.label_of hfield.1 fun hbody => absurd hbody hfield.2

/-- What names a node is not its body. -/
theorem Field.ne_body {field : Field} (h : field.isNaming = true) : field ≠ .body := by
  rintro rfl
  cases h

/-- A row of names in the role of a name of more than one part. -/
theorem NameRow.label {row : List Tree} (h : NameRow row) {field : Field}
    (hfield : field.isComposable = true) : NameRow (label field row) := by
  have hrole : field ≠ .body ∧ field ≠ .memberName := by
    revert hfield
    cases field <;> decide
  obtain ⟨hbody, hmember⟩ := hrole
  refine ⟨h.label_of (fun hother => absurd hother hbody) fun tree hmem _ =>
    ⟨fun _ _ _ => ?_, fun hother => ?_⟩, fun tree hmem => ?_⟩
  · exact Tree.isName_withField.mpr (h.isName tree hmem)
  · exact absurd (by simpa using hother) hmember
  · rcases mem_label hmem with hmem | ⟨old, hold, _, rfl⟩
    · exact h.isName tree hmem
    · exact Tree.isName_withField.mpr (h.isName old hold)

/-- A single name in the role of a name. -/
theorem WordRow.label {row : List Tree} (h : WordRow row) {field : Field}
    (hfield : field.isNaming = true) : Sound (label field row) :=
  h.sound.of_label (h.label_of (fun hbody => absurd hbody (Field.ne_body hfield))
    fun tree hmem hextra => ((h.isWord tree hmem hextra).withField field).fitsRole)
    fun _ => h.isToken

/-- A single name in any role is a token, with what stands in front of it. -/
theorem WordRow.isToken_label {row : List Tree} (h : WordRow row) {field : Field} :
    ∀ tree ∈ Script.label field row, tree.isToken = true := by
  intro tree hmem
  rcases mem_label hmem with hmem | ⟨old, hold, -, rfl⟩
  · exact h.isToken tree hmem
  · simpa using h.isToken old hold

/-- A pattern in a row that was turned into patterns comes from a member of the row. -/
theorem exists_of_mem_asTargets? {row targets : List Tree} (h : asTargets? row = some targets)
    {target : Tree} (hmem : target ∈ targets) : ∃ tree ∈ row, tree.asTarget? = some target := by
  induction row generalizing targets with
  | nil =>
    cases h
    simp at hmem
  | cons tree rest ih =>
    simp only [asTargets?] at h
    split at h
    · rename_i first others hfirst hothers
      cases h
      rcases List.mem_cons.mp hmem with rfl | hmem
      · exact ⟨tree, by simp, hfirst⟩
      · obtain ⟨other, hother, htarget⟩ := ih hothers hmem
        exact ⟨other, List.mem_cons_of_mem _ hother, htarget⟩
    · simp at h

namespace Tree

/-- What turning a tree into a pattern keeps: its role, the shapes in it, that it is well made, and
the whole tree if it is a name or a token; it makes no dotted name. -/
structure KeptBy (tree target : Tree) : Prop where
  field : target.field = tree.field
  wellShaped : tree.WellShaped → target.WellShaped
  wellMade : tree.WellMade → target.WellMade
  isName : tree.IsName → target = tree
  isToken : tree.isToken = true → target.isToken = true
  isExtra : target.isExtra = true → tree.isExtra = true
  undotted : tree.kind ≠ .dottedName → target.kind ≠ .dottedName

/-- Leaving a tree as it is keeps it. -/
theorem KeptBy.refl (tree : Tree) : tree.KeptBy tree := ⟨rfl, id, id, fun _ => rfl, id, id, id⟩

/-- What fits its role still does as a pattern. -/
theorem KeptBy.fitsRole {tree target : Tree} (h : tree.KeptBy target) (hfits : tree.FitsRole) :
    target.FitsRole := by
  refine ⟨fun field hfield hnaming => ?_, fun hmember => ?_⟩
  · have hname := hfits.isName field (h.field ▸ hfield) hnaming
    rwa [h.isName hname]
  · have hword := hfits.isWord (h.field ▸ hmember)
    rwa [h.isName hword.isName]

/-- A node that is no name becomes a pattern, with patterns in place of its parts. -/
theorem KeptBy.branch {field : Option Field} {kind kind' : Kind} {line : Nat}
    {children targets : List Tree}
    (hparts : ∀ target ∈ targets, ∃ child ∈ children, child.KeptBy target)
    (hkind : kind.ofName = false ∧ kind ≠ .defaultParameter ∧ kind ≠ .block)
    (hpattern : kind' ∈ [.listPattern, .tuplePattern, .listSplatPattern]) :
    (Tree.branch field kind line children).KeptBy (.branch field kind' line targets) := by
  obtain ⟨hother, hdefault, hblock⟩ := hkind
  have hfree : kind'.isFree = true ∧ kind'.buildsOn = false := by
    revert hpattern kind'
    decide
  have hmakes : kind'.givesElements = false ∧ kind'.hasWordName = false ∧
      kind' ≠ .aliasedImport ∧ kind'.isExtra = false := by
    revert hpattern kind'
    decide
  refine ⟨rfl, fun hshaped => ?_, fun hmade => ?_, fun hname => ?_, by simp [Tree.isToken],
    by simp [Tree.isExtra, Tree.kind, hmakes], fun _ => Kind.ne_dottedName_of_isFree hfree.1⟩
  · obtain ⟨hnode, hchildren⟩ := wellShaped_branch.mp hshaped
    refine wellShaped_branch.mpr
      ⟨shaped_of_isFree hfree.1 (fun target hmem => ?_) ?_, fun target hmem => ?_⟩
    · obtain ⟨child, hchild, hkept⟩ := hparts target hmem
      exact hkept.fitsRole (hnode.roles hdefault child hchild)
    · exact fun hbuilds => absurd hbuilds (by simp [hfree])
    · obtain ⟨child, hchild, hkept⟩ := hparts target hmem
      exact hkept.wellShaped (hchildren child hchild)
  · obtain ⟨hnode, hchildren⟩ := wellMade_branch.mp hmade
    refine wellMade_branch.mpr ⟨⟨fun hbody => absurd (hnode.body hbody) hblock, ?_, ?_, ?_⟩,
      fun target hmem => ?_⟩
    · simp [Tree.kind, hmakes]
    · simp [Tree.kind, hmakes]
    · exact fun halias => absurd halias hmakes.2.2.1
    · obtain ⟨child, hchild, hkept⟩ := hparts target hmem
      exact hkept.wellMade (hchildren child hchild)
  · rw [isName_branch, hother] at hname
    simp at hname

/-- A tree that is turned into a pattern is kept. -/
theorem keptBy_asTarget? {tree target : Tree} (h : tree.asTarget? = some target) :
    tree.KeptBy target := by
  induction tree using Tree.parts_induction generalizing target with
  | token field kind line blank text =>
    have hsame : target = .token field kind line blank text := by
      unfold asTarget? at h
      split at h <;> simp_all
    exact hsame ▸ .refl _
  | branch field kind line children ih =>
    have hparts {targets : List Tree} (htargets : asTargets? children = some targets) :
        ∀ target ∈ targets, ∃ child ∈ children, child.KeptBy target := by
      intro target hmem
      obtain ⟨child, hchild, htarget⟩ := exists_of_mem_asTargets? htargets hmem
      exact ⟨child, hchild, ih child hchild htarget⟩
    unfold asTarget? at h
    split at h
    case h_1 | h_2 | h_7 | h_8 | h_9 =>
      cases h
      exact .refl _
    case h_3 =>
      split at h
      · cases h
        exact .branch (fun target hmem => ⟨target, hmem, .refl _⟩) (by decide) (by simp)
      · simp at h
    case h_4 | h_5 | h_6 =>
      obtain ⟨targets, htargets, rfl⟩ := Option.map_eq_some_iff.mp h
      exact .branch (hparts htargets) (by decide) (by simp)
    case h_10 => simp at h

end Tree

/-- A sound row that is turned into patterns is sound. -/
theorem Sound.asTargets? {row targets : List Tree} (h : Sound row)
    (htargets : asTargets? row = some targets) : Sound targets := by
  have hkept : ∀ target ∈ targets, ∃ tree ∈ row, tree.KeptBy target := by
    intro target hmem
    obtain ⟨tree, htree, htarget⟩ := exists_of_mem_asTargets? htargets hmem
    exact ⟨tree, htree, Tree.keptBy_asTarget? htarget⟩
  refine ⟨⟨⟨fun target hmem => ?_, fun target hmem => ?_, fun target hmem hextra => ?_⟩,
    fun target hmem => ?_⟩, fun target hmem => ?_, fun target hmem hnaming => ?_⟩
  all_goals obtain ⟨tree, htree, hkept⟩ := hkept target hmem
  · exact hkept.wellShaped (h.wellShaped tree htree)
  · exact hkept.wellMade (h.wellMade tree htree)
  · exact hkept.field.trans (h.extras tree htree (hkept.isExtra hextra))
  · exact hkept.fitsRole (h.fitsRole tree htree)
  · exact hkept.undotted (h.undotted tree htree)
  · exact hkept.isToken (h.worded tree htree (by rwa [Tree.isNaming, ← hkept.field]))

/-- The left side of an assignment is sound if the expressions were. -/
theorem Sound.leftSide? {row target : List Tree} {commas : Bool} (h : Sound row)
    (htarget : leftSide? row commas = some target) : Sound target := by
  obtain ⟨targets, htargets, rfl⟩ := Option.map_eq_some_iff.mp htarget
  have hsound := h.asTargets? htargets
  split
  · exact hsound.branch rfl
  · exact hsound

namespace Tree

@[simp]
theorem field_numbered (line : Nat) (tree : Tree) : (tree.numbered line).field = tree.field := by
  cases tree <;> rfl

@[simp]
theorem kind_numbered (line : Nat) (tree : Tree) : (tree.numbered line).kind = tree.kind := by
  cases tree <;> rfl

@[simp]
theorem isToken_numbered (line : Nat) (tree : Tree) :
    (tree.numbered line).isToken = tree.isToken := by
  cases tree <;> rfl

/-- A member of a numbered row is a member of the row with its lines counted. -/
theorem exists_of_mem_numberedAll {line : Nat} {row : List Tree} {tree : Tree}
    (h : tree ∈ numberedAll line row) : ∃ old ∈ row, ∃ start, tree = old.numbered start := by
  induction row generalizing line with
  | nil => simp [numberedAll] at h
  | cons first rest ih =>
    rcases List.mem_cons.mp h with rfl | h
    · exact ⟨first, by simp, line, rfl⟩
    · obtain ⟨old, hold, start, rfl⟩ := ih h
      exact ⟨old, List.mem_cons_of_mem _ hold, start, rfl⟩

/-- Counting the lines leaves names as they are. -/
theorem IsName.numbered {tree : Tree} (h : tree.IsName) (line : Nat) :
    (tree.numbered line).IsName := by
  induction tree using Tree.parts_induction generalizing line with
  | token field kind _ blank text => simpa [Tree.numbered] using h
  | branch field kind _ children ih =>
    obtain ⟨hkind, hchildren⟩ := isName_branch.mp h
    refine isName_branch.mpr ⟨hkind, fun tree hmem => ?_⟩
    obtain ⟨old, hold, start, rfl⟩ := exists_of_mem_numberedAll hmem
    exact ih old hold (hchildren old hold) start

/-- Counting the lines leaves what fits its role. -/
theorem FitsRole.numbered {tree : Tree} (h : tree.FitsRole) (line : Nat) :
    (tree.numbered line).FitsRole := by
  refine ⟨fun field hfield hnaming => ?_, fun hmember => ?_⟩
  · exact (h.isName field (by simpa using hfield) hnaming).numbered line
  · obtain ⟨field, start, blank, text, hdot, rfl⟩ := h.isWord (by simpa using hmember)
    exact ⟨field, _, blank, text, hdot, rfl⟩

/-- Counting the lines leaves all shapes. -/
theorem WellShaped.numbered {tree : Tree} (h : tree.WellShaped) (line : Nat) :
    (tree.numbered line).WellShaped := by
  induction tree using Tree.parts_induction generalizing line with
  | token field kind _ blank text => simpa [Tree.numbered] using h
  | branch field kind old children ih =>
    obtain ⟨hnode, hchildren⟩ := wellShaped_branch.mp h
    refine wellShaped_branch.mpr ⟨⟨?_, ?_, ?_, ?_, ?_, ?_⟩, fun tree hmem => ?_⟩
    · intro hkind tree hmem
      obtain ⟨part, hpart, start, rfl⟩ := exists_of_mem_numberedAll hmem
      exact (hnode.roles hkind part hpart).numbered start
    · exact fun hkind => (hnode.dotted hkind).numbered line
    · intro hkind
      have hnil := hnode.leaf hkind
      simp only [Tree.children] at hnil ⊢
      simp [hnil, numberedAll]
    · intro hkind
      obtain ⟨child, rest, hsplit, hstart⟩ := hnode.opening hkind
      simp only [Tree.children] at hsplit ⊢
      exact ⟨_, _, by rw [hsplit, numberedAll], by simpa using hstart⟩
    · intro hkind
      have hnil := hnode.leaf (by simp_all [Tree.kind, Kind.isLeaf])
      simp only [Tree.children] at hnil
      simp [hnil, numberedAll, Tree.text, texts]
    · intro hkind tree hmem
      obtain ⟨part, hpart, start, rfl⟩ := exists_of_mem_numberedAll hmem
      rw [kind_numbered]
      exact hnode.base hkind part hpart
    · obtain ⟨part, hpart, start, rfl⟩ := exists_of_mem_numberedAll hmem
      exact ih part hpart (hchildren part hpart) start

/-- Counting the lines leaves the characters of a tree. -/
@[simp]
theorem spelling_numbered (line : Nat) (tree : Tree) :
    (tree.numbered line).spelling = tree.spelling := by
  induction tree using Tree.parts_induction generalizing line with
  | token field kind old blank text => rfl
  | branch field kind old children ih =>
    simp only [numbered, spelling]
    generalize line = start
    induction children generalizing start with
    | nil => rfl
    | cons first rest ihrest =>
      simp only [numberedAll, spellings, ih first List.mem_cons_self]
      rw [ihrest fun part hpart => ih part (List.mem_cons_of_mem _ hpart)]

/-- Counting the lines leaves the characters of a row. -/
@[simp]
theorem spellings_numberedAll (line : Nat) (row : List Tree) :
    spellings (numberedAll line row) = spellings row :=
  spelling_numbered line (.branch none .script 0 row)

/-- Counting the lines leaves the characters of a tree from its first token on. -/
@[simp]
theorem text_numbered (line : Nat) (tree : Tree) : (tree.numbered line).text = tree.text := by
  induction tree using Tree.parts_induction generalizing line with
  | token field kind old blank text => rfl
  | branch field kind old children ih =>
    cases children with
    | nil => rfl
    | cons first rest =>
      simp [numbered, numberedAll, Tree.text, texts, ih first List.mem_cons_self]

/-- Counting the lines leaves what is well made. -/
theorem WellMade.numbered {tree : Tree} (h : tree.WellMade) (line : Nat) :
    (tree.numbered line).WellMade := by
  induction tree using Tree.parts_induction generalizing line with
  | token field kind _ blank text => simpa [Tree.numbered] using h
  | branch field kind old children ih =>
    obtain ⟨hnode, hchildren⟩ := wellMade_branch.mp h
    refine wellMade_branch.mpr ⟨⟨hnode.body, ?_, ?_, ?_⟩, fun tree hmem => ?_⟩
    · intro hgives hbranch
      have htext := (Tree.branch field kind old children).text_numbered line
      rw [Tree.numbered] at htext
      rw [htext]
      exact hnode.spelled hgives hbranch
    · intro hword tree hmem hnaming
      obtain ⟨part, hpart, start, rfl⟩ := exists_of_mem_numberedAll hmem
      rw [isToken_numbered]
      exact hnode.named hword part hpart (by simpa [isNaming] using hnaming)
    · intro halias tree hmem hfield
      obtain ⟨part, hpart, start, rfl⟩ := exists_of_mem_numberedAll hmem
      rw [isToken_numbered]
      exact hnode.nickname halias part hpart (by simpa using hfield)
    · obtain ⟨part, hpart, start, rfl⟩ := exists_of_mem_numberedAll hmem
      exact ih part hpart (hchildren part hpart) start

end Tree

end UsageAudit.Script

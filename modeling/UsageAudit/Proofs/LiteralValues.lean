import Mathlib
import UsageAudit.Proofs.StatementShape
import UsageAudit.Proofs.TwinWalks

/-!
# The values of literals

Of a literal only its type is to be seen in the elements of a script. Two trees that differ in
nothing but the values of their literals look alike to a walk, with one exception: a starred
parameter, or one with a default, may be a pattern, and a pattern is copied as it is written, with
the literals in it.
-/

namespace UsageAudit

namespace Script

/-- Whether a node of this kind carries the value of a literal. -/
def Kind.holdsValue : Kind → Bool
  | .integer | .float | .stringStart | .stringEnd | .stringContent | .formatSpecifier => true
  | _ => false

/-- Whether two texts of a token differ in nothing but the value of a literal: a number stays
imaginary or not, and a text literal keeps the letters in front of it. -/
def Kind.SameType (kind : Kind) (text other : List Char) : Prop :=
  match kind with
  | .integer | .float => Extraction.isImaginary text = Extraction.isImaginary other
  | .stringStart => text.filter Char.isAlpha = other.filter Char.isAlpha
  | .stringEnd => True
  | _ => text = other

/-- Whether the tree is a piece of the content of a text literal. -/
def Tree.IsPiece (tree : Tree) : Prop :=
  ∃ kind line blank text, kind.isPiece = true ∧ tree = .token none kind line blank text

/-- Whether two rows of trees differ in nothing but the values of literals. `content` says that the
rows are the content of a text literal, so that they may be cut into other pieces. -/
inductive SameButValues : Bool → List Tree → List Tree → Prop
  | nil {content : Bool} : SameButValues content [] []
  | token {content : Bool} {field : Option Field} {kind : Kind} {line : Nat}
      {blank text text' : List Char} {rest rest' : List Tree} :
      kind.SameType text text' → SameButValues content rest rest' →
      SameButValues content (.token field kind line blank text :: rest)
        (.token field kind line blank text' :: rest')
  | branch {content : Bool} {field : Option Field} {kind : Kind} {line : Nat}
      {children children' rest rest' : List Tree} :
      SameButValues (field.isNone && kind.isContent) children children' →
      SameButValues content rest rest' →
      SameButValues content (.branch field kind line children :: rest)
        (.branch field kind line children' :: rest')
  | left {tree : Tree} {rest rest' : List Tree} :
      tree.IsPiece → SameButValues true rest rest' → SameButValues true (tree :: rest) rest'
  | right {tree : Tree} {rest rest' : List Tree} :
      tree.IsPiece → SameButValues true rest rest' → SameButValues true rest (tree :: rest')

/-- Whether two trees differ in nothing but the values of literals. -/
def Tree.SameButValues (tree other : Tree) : Prop := Script.SameButValues false [tree] [other]

/-- Whether there is no literal in a tree. -/
def Tree.HoldsNoValue (tree : Tree) : Prop := ∀ node ∈ tree.nodes, node.kind.holdsValue = false

/-- Whether there is no literal in the patterns by which the parameters in a tree are named. -/
def Tree.NamesHoldNoValue (tree : Tree) : Prop :=
  ∀ node ∈ tree.nodes, ∀ child ∈ node.children,
    Extraction.Around.namesParameter ⟨node.field, node.kind, false⟩ child = true →
      child.HoldsNoValue

instance (tree : Tree) : Decidable tree.HoldsNoValue :=
  inferInstanceAs (Decidable (∀ node ∈ tree.nodes, node.kind.holdsValue = false))

instance (tree : Tree) : Decidable tree.NamesHoldNoValue :=
  inferInstanceAs (Decidable (∀ node ∈ tree.nodes, ∀ child ∈ node.children,
    Extraction.Around.namesParameter ⟨node.field, node.kind, false⟩ child = true →
      child.HoldsNoValue))

variable {content : Bool} {row row' : List Tree} {tree other : Tree} {field : Option Field}
  {kind : Kind} {line : Nat} {blank text text' : List Char} {children : List Tree}

@[simp]
theorem Tree.holdsNoValue_token :
    (Tree.token field kind line blank text).HoldsNoValue ↔ kind.holdsValue = false := by
  simp [HoldsNoValue, nodes, Tree.kind]

@[simp]
theorem Tree.holdsNoValue_branch : (Tree.branch field kind line children).HoldsNoValue ↔
    kind.holdsValue = false ∧ ∀ child ∈ children, child.HoldsNoValue := by
  simp only [HoldsNoValue, nodes, List.forall_mem_cons, mem_nodesOf, Tree.kind]
  grind

/-- What stands in names is no literal. -/
theorem Kind.holdsValue_of_ofName (h : kind.ofName = true) : kind.holdsValue = false := by
  cases kind <;> first | rfl | cases h

/-- The content of a text literal carries its value. -/
theorem Kind.isContent_of_holdsValue (h : kind.holdsValue = false) : kind.isContent = false := by
  cases kind <;> first | rfl | cases h

/-- No name holds a literal. -/
theorem Tree.IsName.holdsNoValue (h : tree.IsName) : tree.HoldsNoValue :=
  fun node hnode => Kind.holdsValue_of_ofName (h node hnode)

/-- A text that holds no value is the same. -/
theorem Kind.SameType.eq (h : kind.SameType text text') (hkind : kind.holdsValue = false) :
    text = text' := by
  cases kind <;> first | exact h | cases hkind

/-- A text has the same type as itself. -/
theorem Kind.SameType.refl (kind : Kind) (text : List Char) : kind.SameType text text := by
  cases kind <;> first | rfl | trivial

/-- Rows may start with the same tree. -/
theorem SameButValues.cons (tree : Tree) {rest rest' : List Tree}
    (h : SameButValues content rest rest') :
    SameButValues content (tree :: rest) (tree :: rest') := by
  induction tree using Tree.parts_induction generalizing content rest rest' with
  | token field kind line blank text => exact .token (.refl kind text) h
  | branch field kind line children ih =>
    refine .branch ?_ h
    induction children with
    | nil => exact .nil
    | cons part parts ihparts =>
      rw [List.forall_mem_cons] at ih
      exact ih.1 (ihparts ih.2)

/-- Rows without literals are the same if they differ in nothing but the values of literals. -/
theorem SameButValues.eq_of_holdsNoValue (h : SameButValues content row row')
    (hcontent : content = false) (hrow : ∀ tree ∈ row, tree.HoldsNoValue) : row = row' := by
  induction h with
  | nil => rfl
  | token hsame _ ih =>
    rw [List.forall_mem_cons, Tree.holdsNoValue_token] at hrow
    rw [hsame.eq hrow.1, ih hcontent hrow.2]
  | @branch content field kind line children children' rest rest' _ _ ihchildren ih =>
    rw [List.forall_mem_cons, Tree.holdsNoValue_branch] at hrow
    obtain ⟨⟨hkind, hchildren⟩, hrest⟩ := hrow
    have hinside : (field.isNone && kind.isContent) = false := by
      rw [Kind.isContent_of_holdsValue hkind, Bool.and_false]
    rw [ihchildren hinside hchildren, ih hcontent hrest]
  | left => cases hcontent
  | right => cases hcontent

/-- Outside the content of text literals, rows that differ in nothing but the values of literals
start with such trees. -/
theorem SameButValues.exists_cons {rest : List Tree}
    (h : SameButValues false (tree :: rest) row') :
    ∃ other others, row' = other :: others ∧ tree.SameButValues other := by
  cases h with
  | token hsame _ => exact ⟨_, _, rfl, .token hsame .nil⟩
  | branch hchildren _ => exact ⟨_, _, rfl, .branch hchildren .nil⟩

/-- The parts of trees that differ in nothing but the values of literals do so as well. -/
theorem Tree.SameButValues.parts (h : tree.SameButValues other) :
    Script.SameButValues (tree.field.isNone && tree.kind.isContent) tree.children
      other.children := by
  cases h with
  | token => exact .nil
  | branch hchildren => exact hchildren

/-- Any content of a text literal is the same as any other but for its value. -/
theorem SameButValues.pieces (hrow : ∀ tree ∈ row, tree.IsPiece)
    (hrow' : ∀ tree ∈ row', tree.IsPiece) : SameButValues true row row' := by
  induction row with
  | nil =>
    induction row' with
    | nil => exact .nil
    | cons tree rest ih =>
      rw [List.forall_mem_cons] at hrow'
      exact .right hrow'.1 (ih hrow'.2)
  | cons tree rest ih =>
    rw [List.forall_mem_cons] at hrow
    exact .left hrow.1 (ih hrow.2)

end Script

namespace Extraction

open Script (Tree Kind Field SameButValues)

variable {sight : Sight} {around : Around} {content watched : Bool} {row row' : List Tree}
  {tree other : Tree} {field : Option Field} {kind : Kind} {line : Nat}
  {blank text text' : List Char} {children children' : List Tree}

/-- Literals with the same letters in front are both bytes or both not. -/
theorem isBytesPrefix_of_sameType (h : Kind.SameType .stringStart text text') :
    isBytesPrefix text = isBytesPrefix text' := by
  have hletters (text : List Char) :
      isBytesPrefix text = isBytesPrefix (text.filter Char.isAlpha) := by
    rw [isBytesPrefix, isBytesPrefix, List.any_filter]
    congr 1
    funext c
    by_cases hc : c = 'b' ∨ c = 'B'
    · rcases hc with rfl | rfl <;> rfl
    · simp_all
  rw [hletters text, hletters text', show text.filter Char.isAlpha = _ from h]

/-- Whether the names of parameters do not matter, or hold no literal. -/
def NamesHidden (sight : Sight) (around : Around) (row : List Tree) : Prop :=
  (∀ name name', sight.parameter name = sight.parameter name') ∨
    ∀ tree ∈ row, (around.namesParameter tree = true → tree.HoldsNoValue) ∧ tree.NamesHoldNoValue

/-- Whatever may get into an element is a name. -/
theorem isName_of_copies (hcopies : around.copies tree = true) (hshaped : tree.Shaped)
    (hfits : around.kind ≠ .defaultParameter → tree.FitsRole) : tree.IsName := by
  simp only [Around.copies, Bool.or_eq_true, beq_iff_eq, Bool.and_eq_true] at hcopies
  obtain (hidentifier | hdotted) | ⟨⟨hnaming, hkind⟩, _⟩ := hcopies
  · have hleaf := hshaped.leaf (by simp [hidentifier, Kind.isLeaf])
    cases tree <;> simp_all [Tree.children, Tree.kind, Kind.ofName]
  · exact hshaped.dotted hdotted
  · obtain ⟨field, hfield, hnaming⟩ : ∃ field, tree.field = some field ∧ field.isNaming = true := by
      simpa [Option.any_eq_true] using hnaming
    exact (hfits (by simpa using hkind)).isName field hfield hnaming

/-- A token keeps its type. -/
theorem sameType_of_isLeaf (h : tree.SameButValues other) (hshaped : tree.Shaped)
    (hleaf : tree.kind.isLeaf = true) : tree.kind.SameType tree.text other.text := by
  cases h with
  | token hsame => exact hsame
  | @branch _ field kind line children children' _ _ hchildren =>
    have hempty : children = [] := hshaped.leaf hleaf
    have hcontent : (field.isNone && kind.isContent) = false := by
      obtain hkind : kind.isLeaf = true := hleaf
      cases kind <;> simp_all [Kind.isLeaf, Kind.isContent]
    subst hempty
    obtain rfl := hchildren.eq_of_holdsNoValue hcontent (by simp)
    exact .refl _ _

/-- Trees that differ in nothing but the values of literals look alike at their tops. -/
theorem alike_of_sameButValues (h : tree.SameButValues other) (hshaped : tree.WellShaped)
    (hfits : around.kind ≠ .defaultParameter → tree.FitsRole)
    (hhidden : NamesHidden sight around [tree]) : Alike sight.view around tree other := by
  have hnode : tree.Shaped := hshaped tree tree.self_mem_nodes
  have htext (hnone : tree.HoldsNoValue) : tree.text = other.text := by
    obtain ⟨rfl⟩ : tree = other := by simpa using h.eq_of_holdsNoValue rfl (by simpa using hnone)
    rfl
  have htop : tree.field = other.field ∧ tree.kind = other.kind ∧ tree.isToken = other.isToken ∧
      tree.line = other.line := by
    cases h <;> exact ⟨rfl, rfl, rfl, rfl⟩
  obtain ⟨hfield, hkind, htoken, hline⟩ := htop
  have hcopied (hcopies : around.copies tree = true) : tree.text = other.text :=
    htext (isName_of_copies hcopies hnode hfits).holdsNoValue
  refine ⟨hfield, hkind, htoken, congrArg _ hline, ?_, ?_, ?_, ?_, ?_, ?_⟩
  · exact fun hkeeps => hcopied (Around.copies_of_keeps hkeeps)
  · exact fun himports =>
      congrArg String.ofList (hcopied (Around.copies_of_imports himports))
  · intro hnames
    rcases hhidden with hconst | hnone
    · exact hconst _ _
    · rw [textOf, textOf, htext ((hnone tree (by simp)).1 hnames)]
  · intro _ hsign
    have hsame := sameType_of_isLeaf h hnode (by simp [hsign, Kind.isLeaf])
    exact hsame.eq (by simp [hsign, Kind.holdsValue])
  · intro hnumber
    have hleaf : tree.kind.isLeaf = true := by
      rcases hnumber with hnumber | hnumber <;> simp [hnumber, Kind.isLeaf]
    have hsame := sameType_of_isLeaf h hnode hleaf
    rcases hnumber with hnumber | hnumber <;> rw [hnumber] at hsame <;> exact hsame
  · intro hstring
    obtain ⟨first, rest, hchildren, hopening⟩ := hnode.opening hstring
    obtain ⟨first', rest', hchildren', hfirst⟩ : ∃ first' rest',
        other.children = first' :: rest' ∧ first.SameButValues first' := by
      have hparts := h.parts
      have hcontent : Kind.isContent .string = false := rfl
      rw [hchildren, hstring, hcontent, Bool.and_false] at hparts
      exact hparts.exists_cons
    have hshaped' : first.Shaped :=
      hshaped first (Tree.mem_nodes_of_mem_children (by simp [hchildren]))
    have hsame := sameType_of_isLeaf hfirst hshaped' (by simp [hopening, Kind.isLeaf])
    rw [hopening] at hsame
    simpa [firstText, hchildren, hchildren'] using isBytesPrefix_of_sameType hsame

/-- What holds of the names in a row holds of those in its first member. -/
theorem NamesHidden.head {rest : List Tree} (h : NamesHidden sight around (tree :: rest)) :
    NamesHidden sight around [tree] :=
  h.imp_right fun hnone => by simpa using hnone tree (by simp)

/-- What holds of the names in a row holds of those in its other members. -/
theorem NamesHidden.tail {rest : List Tree} (h : NamesHidden sight around (tree :: rest)) :
    NamesHidden sight around rest :=
  h.imp_right fun hnone part hpart => hnone part (List.mem_cons_of_mem _ hpart)

/-- What holds of the names in a tree holds of those in its parts. -/
theorem NamesHidden.inside (h : NamesHidden sight around [tree]) :
    NamesHidden sight (around.inside tree) tree.children := by
  refine h.imp_right fun hnone part hpart => ?_
  obtain ⟨-, hnames⟩ := hnone tree (by simp)
  refine ⟨hnames tree tree.self_mem_nodes part hpart, fun node hnode => ?_⟩
  exact hnames node (Tree.mem_nodes_trans (Tree.mem_nodes_of_mem_children hpart) hnode)

/-- A piece of the content of a text literal is idle there. -/
theorem idle_of_isPiece (h : tree.IsPiece)
    (hcontent : around.kind.isContent = true ∧ around.field = none) :
    around.Idle watched tree := by
  obtain ⟨kind, line, blank, text, hkind, rfl⟩ := h
  exact ⟨kind, line, blank, text, rfl, .inr ⟨hkind, hcontent⟩⟩

/-- Rows that differ in nothing but the values of literals look alike. -/
theorem twins_of_sameButValues (h : SameButValues content row row')
    (hcontent : content = true → around.kind.isContent = true ∧ around.field = none)
    (hshaped : ∀ tree ∈ row, tree.WellShaped)
    (hfits : around.kind ≠ .defaultParameter → ∀ tree ∈ row, tree.FitsRole)
    (hhidden : NamesHidden sight around row) : Twins sight.view around watched row row' := by
  induction h generalizing around watched with
  | nil => exact .nil
  | @token content field kind line blank text text' rest rest' hsame hrest ih =>
    rw [List.forall_mem_cons] at hshaped
    have hfits' (hkind : around.kind ≠ .defaultParameter) := List.forall_mem_cons.mp (hfits hkind)
    refine .node (alike_of_sameButValues (.token hsame .nil) hshaped.1
      (fun hkind => (hfits' hkind).1) hhidden.head) .nil ?_
    exact ih hcontent hshaped.2 (fun hkind => (hfits' hkind).2) hhidden.tail
  | @branch content field kind line children children' rest rest' hchildren hrest ihchildren ih =>
    rw [List.forall_mem_cons] at hshaped
    have hfits' (hkind : around.kind ≠ .defaultParameter) := List.forall_mem_cons.mp (hfits hkind)
    obtain ⟨hnode, hparts⟩ := Tree.wellShaped_branch.mp hshaped.1
    refine .node (alike_of_sameButValues (.branch hchildren .nil) hshaped.1
      (fun hkind => (hfits' hkind).1) hhidden.head) ?_ ?_
    · refine ihchildren (fun hinside => ?_) hparts (fun hkind => hnode.roles hkind)
        hhidden.head.inside
      simpa [Around.inside, Tree.kind, Tree.field, and_comm] using hinside
    · exact ih hcontent hshaped.2 (fun hkind => (hfits' hkind).2) hhidden.tail
  | left hpiece _ ih =>
    rw [List.forall_mem_cons] at hshaped
    refine .left (idle_of_isPiece hpiece (hcontent rfl)) (ih hcontent hshaped.2 ?_ hhidden.tail)
    exact fun hkind part hpart => hfits hkind part (List.mem_cons_of_mem _ hpart)
  | right hpiece _ ih =>
    exact .right (idle_of_isPiece hpiece (hcontent rfl)) (ih hcontent hshaped hfits hhidden)

/-- Trees that differ in nothing but the values of literals look alike. -/
theorem twinTrees_of_sameButValues (h : tree.SameButValues other) (hshaped : tree.WellShaped)
    (hfits : tree.FitsRole) (hhidden : NamesHidden sight around [tree]) :
    TwinTrees sight.view around tree other := by
  refine ⟨alike_of_sameButValues h hshaped (fun _ => hfits) hhidden, ?_⟩
  refine twins_of_sameButValues h.parts (fun hinside => ?_) ?_ ?_ hhidden.inside
  · simpa [Around.inside, and_comm] using hinside
  · exact fun part hpart node hnode =>
      hshaped node (Tree.mem_nodes_trans (Tree.mem_nodes_of_mem_children hpart) hnode)
  · exact fun hkind => (hshaped tree tree.self_mem_nodes).roles hkind

/-- Of the values of its literals nothing is to be seen in the elements of a tree that has its shape
all through but in the names of parameters, and not there either where no pattern of a parameter
holds a literal. -/
theorem elements_of_sameButValues (hshaped : tree.WellShaped) (hroot : tree.field = none)
    (hsame : tree.SameButValues other) :
    LookSame Sight.namesAside.findings (extract tree) (extract other) ∧
      (tree.NamesHoldNoValue → LookSame Findings.elements (extract tree) (extract other)) := by
  have hfits := Tree.fitsRole_of_field_eq_none hroot
  have htop : Around.namesParameter .top tree = false := by
    simp [Around.namesParameter, Around.top]
  refine ⟨?_, fun hnames => ?_⟩
  · have hhidden : NamesHidden .namesAside .top [tree] := .inl fun _ _ => rfl
    simpa using (twinTrees_of_sameButValues hsame hshaped hfits hhidden).extract
  · have hhidden : NamesHidden .full .top [tree] := .inr (by simp [htop, hnames])
    simpa using (twinTrees_of_sameButValues hsame hshaped hfits hhidden).extract

/-- The tree of a function with a starred parameter and one with a default, the body of which is a
call with a text and a number. -/
def literalsTree (default mark : List Char) (piece : Tree) (number : List Char) : Tree :=
  .branch none .script 1 [
    .branch none .functionDefinition 1 [
      .token none .sign 1 [] ['d', 'e', 'f'],
      .token (some .name) .identifier 1 [' '] ['f'],
      .branch (some .parameters) .parameterList 1 [
        .token none .sign 1 [] ['('],
        .branch none .listSplatPattern 1 [
          .token none .sign 1 [] ['*'],
          .token none .identifier 1 [] ['a']],
        .token none .sign 1 [] [','],
        .branch none .defaultParameter 1 [
          .token (some .name) .identifier 1 [' '] ['b'],
          .token none .sign 1 [] ['='],
          .token none .integer 1 [] default],
        .token none .sign 1 [] [')']],
      .token none .sign 1 [] [':'],
      .branch (some .body) .block 1 [
        .branch none .expressionStatement 1 [
          .branch none .call 1 [
            .token (some .function) .identifier 1 [' '] ['g'],
            .branch (some .arguments) .argumentList 1 [
              .token none .sign 1 [] ['('],
              .branch none .string 1 [
                .token none .stringStart 1 [] ('b' :: mark),
                .branch none .stringContent 1 [piece],
                .token none .stringEnd 1 [] mark],
              .token none .sign 1 [] [','],
              .token none .integer 1 [' '] number,
              .token none .sign 1 [] [')']]]]]]]

/-- A script with other literals in the places of its own has the same elements. -/
theorem elements_literalsTree :
    let tree := literalsTree ['1'] ['"'] (.token none .sign 1 [] ['k']) ['2', 'j']
    let other := literalsTree ['2', '3'] ['\''] (.token none .escapeSequence 1 [] ['\\', 't'])
      ['4', '.', 'J']
    Script.parse "def f(*a, b=1): g(b\"k\", 2j)".toList = .ok tree ∧ tree.WellShaped ∧
      tree.field = none ∧ tree.SameButValues other ∧ tree.NamesHoldNoValue ∧
        LookSame Sight.namesAside.findings (extract tree) (extract other) ∧
          LookSame Findings.elements (extract tree) (extract other) := by
  intro tree other
  have hparse : Script.parse "def f(*a, b=1): g(b\"k\", 2j)".toList = .ok tree := by cbv
  have hcontent : SameButValues true [.token none .sign 1 [] ['k']]
      [.token none .escapeSequence 1 [] ['\\', 't']] :=
    .pieces (by simp [Tree.IsPiece, Kind.isPiece]) (by simp [Tree.IsPiece, Kind.isPiece])
  have hdefault : SameButValues false [.token none .integer 1 [] ['1']]
      [.token none .integer 1 [] ['2', '3']] := .token rfl .nil
  have hsame : tree.SameButValues other :=
    .branch (.branch (.cons _ (.cons _ (.branch
      (.cons _ (.cons _ (.cons _ (.branch (.cons _ (.cons _ hdefault)) (.cons _ .nil)))))
      (.cons _ (.branch (.branch (.branch (.cons _ (.branch
        (.cons _ (.branch (.token rfl (.branch hcontent (.token trivial .nil)))
          (.cons _ (.token rfl (.cons _ .nil))))) .nil)) .nil) .nil) .nil))))) .nil) .nil
  have hnames : tree.NamesHoldNoValue := by decide
  have hshaped := Script.wellShaped_of_parse hparse
  have hroot := Script.field_of_parse hparse
  obtain ⟨hshape, hall⟩ := elements_of_sameButValues hshaped hroot hsame
  exact ⟨hparse, hshaped, hroot, hsame, hnames, hshape, hall hnames⟩

/-- The tree of a function whose parameter is a starred item. -/
def starredItemTree (key : Char) : Tree :=
  .branch none .script 1 [
    .branch none .functionDefinition 1 [
      .token none .sign 1 [] ['d', 'e', 'f'],
      .token (some .name) .identifier 1 [' '] ['f'],
      .branch (some .parameters) .parameterList 1 [
        .token none .sign 1 [] ['('],
        .branch none .listSplatPattern 1 [
          .token none .sign 1 [] ['*'],
          .branch none .subscript 1 [
            .token (some .value) .identifier 1 [] ['a'],
            .token none .sign 1 [] ['['],
            .branch none .string 1 [
              .token none .stringStart 1 [] ['"'],
              .branch none .stringContent 1 [.token none .sign 1 [] [key]],
              .token none .stringEnd 1 [] ['"']],
            .token none .sign 1 [] [']']]],
        .token none .sign 1 [] [')']],
      .token none .sign 1 [] [':'],
      .branch (some .body) .block 2 [
        .branch none .passStatement 2 [
          .token none .sign 2 ['\n', ' ', ' ', ' ', ' '] ['p', 'a', 's', 's']]]]]

/-- The key of a starred item gets into the name of the parameter: the values of literals do not
stay out of the elements. -/
theorem starred_item_copied :
    Script.parse "def f(*a[\"k\"]):\n    pass\n".toList = .ok (starredItemTree 'k') ∧
      (starredItemTree 'k').SameButValues (starredItemTree 'l') ∧
        ¬LookSame Findings.elements (extract (starredItemTree 'k'))
          (extract (starredItemTree 'l')) := by
  have hcontent : SameButValues true [.token none .sign 1 [] ['k']]
      [.token none .sign 1 [] ['l']] :=
    .pieces (by simp [Tree.IsPiece, Kind.isPiece]) (by simp [Tree.IsPiece, Kind.isPiece])
  refine ⟨by cbv, ?_, by unfold LookSame; decide +kernel⟩
  exact .branch (.branch (.cons _ (.cons _ (.branch (.cons _ (.branch (.cons _ (.branch
    (.cons _ (.cons _ (.branch (.cons _ (.branch hcontent (.cons _ .nil))) (.cons _ .nil)))) .nil))
    (.cons _ .nil))) (.cons _ (.cons _ .nil))))) .nil) .nil

end Extraction

end UsageAudit

import Mathlib
import UsageAudit.Proofs.StatementShape
import UsageAudit.Proofs.TwinWalks

/-!
# Blank space between tokens

Two trees that differ in nothing but the blank space between their tokens look alike to a walk, with
two exceptions: the paths and names that are imported, and the patterns that name parameters, are
copied as they are written. There the blank space is copied with them.
-/

namespace UsageAudit

namespace Script

/-- A text without its blank space. -/
def squeeze (text : List Char) : List Char := text.filter fun c => !isLayout c

/-- The squeezed text of two pieces. -/
@[simp]
theorem squeeze_append (front back : List Char) :
    squeeze (front ++ back) = squeeze front ++ squeeze back := by
  simp [squeeze]

mutual

/-- The characters of the tokens of a tree, without what stands between them. -/
def Tree.solid : Tree → List Char
  | .token _ _ _ _ text => text
  | .branch _ _ _ children => solids children

/-- The characters of the tokens of a row of trees. -/
def solids : List Tree → List Char
  | [] => []
  | tree :: rest => tree.solid ++ solids rest

end

/-- Whether a tree is written without blank space between its tokens. -/
def Tree.IsTight (tree : Tree) : Prop := tree.text = tree.solid

/-- Whether what gets into the elements as it is written is written without blank space. -/
def Tree.CopiesTightly (tree : Tree) : Prop :=
  ∀ node ∈ tree.nodes, ∀ child ∈ node.children,
    Extraction.Around.spreads ⟨node.field, node.kind, false⟩ child = true → child.IsTight

instance (tree : Tree) : Decidable tree.IsTight :=
  inferInstanceAs (Decidable (tree.text = tree.solid))

instance (tree : Tree) : Decidable tree.CopiesTightly :=
  inferInstanceAs (Decidable (∀ node ∈ tree.nodes, ∀ child ∈ node.children,
    Extraction.Around.spreads ⟨node.field, node.kind, false⟩ child = true → child.IsTight))

/-- Whether two rows of trees differ in nothing but the blank space in front of their tokens. -/
inductive SameButBlanks : List Tree → List Tree → Prop
  | nil : SameButBlanks [] []
  | token {field : Option Field} {kind : Kind} {line : Nat} {blank blank' text : List Char}
      {rest rest' : List Tree} :
      squeeze blank = squeeze blank' → SameButBlanks rest rest' →
      SameButBlanks (.token field kind line blank text :: rest)
        (.token field kind line blank' text :: rest')
  | branch {field : Option Field} {kind : Kind} {line : Nat}
      {children children' rest rest' : List Tree} :
      SameButBlanks children children' → SameButBlanks rest rest' →
      SameButBlanks (.branch field kind line children :: rest)
        (.branch field kind line children' :: rest')

/-- Whether two trees differ in nothing but the blank space between their tokens. -/
def Tree.SameButBlanks (tree other : Tree) : Prop := Script.SameButBlanks [tree] [other]

variable {row row' : List Tree} {tree other : Tree}

/-- But for their blank space, rows that differ in nothing else are spelled in the same way. -/
theorem SameButBlanks.squeeze_eq (h : SameButBlanks row row') :
    squeeze (Tree.spellings row) = squeeze (Tree.spellings row') ∧
      squeeze (Tree.texts row) = squeeze (Tree.texts row') := by
  induction h with
  | nil => exact ⟨rfl, rfl⟩
  | token hblank _ ih => simp [Tree.spellings, Tree.spelling, Tree.texts, Tree.text, hblank, ih.1]
  | branch _ _ ihchildren ih =>
    simp [Tree.spellings, Tree.spelling, Tree.texts, Tree.text, ihchildren.1, ihchildren.2, ih.1]

/-- Rows that differ in nothing but blank space have the same tokens. -/
theorem SameButBlanks.solids_eq (h : SameButBlanks row row') : solids row = solids row' := by
  induction h with
  | nil => rfl
  | token _ _ ih => simp [solids, Tree.solid, ih]
  | branch _ _ ihchildren ih => simp [solids, Tree.solid, ihchildren, ih]

namespace Tree.SameButBlanks

/-- The parts of trees that differ in nothing but blank space do so as well. -/
theorem parts (h : tree.SameButBlanks other) :
    Script.SameButBlanks tree.children other.children := by
  cases h with
  | token => exact .nil
  | branch hchildren => exact hchildren

/-- But for their blank space, trees that differ in nothing else have the same text. -/
theorem squeeze_text (h : tree.SameButBlanks other) : squeeze tree.text = squeeze other.text := by
  simpa [texts, spellings] using h.squeeze_eq.2

/-- Written without blank space, trees that differ in nothing else have the same text. -/
theorem text_eq_of_isTight (h : tree.SameButBlanks other) (htight : tree.IsTight)
    (htight' : other.IsTight) : tree.text = other.text := by
  have hsolid : tree.solid = other.solid := by simpa [solids] using h.solids_eq
  rw [htight, htight', hsolid]

/-- There is no blank space inside what has no parts. -/
theorem text_eq_of_children (h : tree.SameButBlanks other) (hleaf : tree.children = []) :
    tree.text = other.text := by
  cases h with
  | token => rfl
  | branch hchildren =>
    obtain rfl : _ = [] := hleaf
    cases hchildren
    rfl

end Tree.SameButBlanks

end Script

namespace Extraction

open Script (Tree Kind Field SameButBlanks squeeze)

/-- All is to be seen but the blank space in the paths and names of imports and in the names of
parameters. -/
def View.blanksAside : View where
  line := id
  parameter name := String.ofList (squeeze name.toList)
  imported name := String.ofList (squeeze name.toList)

variable {view : View} {around : Around} {watched : Bool} {row row' rest rest' : List Tree}
  {tree other : Tree}

/-- Whether blank space in what is imported and in the names of parameters is not to be seen. -/
def View.SkipsBlanks (view : View) : Prop :=
  ∀ text text', squeeze text = squeeze text' →
    view.imported (String.ofList text) = view.imported (String.ofList text') ∧
      view.parameter (String.ofList text) = view.parameter (String.ofList text')

/-- Whether what gets into the elements as it is written is written without blank space in a row. -/
def CopiedTightly (around : Around) (row : List Tree) : Prop :=
  ∀ tree ∈ row, (around.spreads tree = true → tree.IsTight) ∧ tree.CopiesTightly

/-- Whether blank space in what is copied is not to be seen, or there is none in either row. -/
def BlanksHidden (view : View) (around : Around) (row row' : List Tree) : Prop :=
  view.SkipsBlanks ∨ CopiedTightly around row ∧ CopiedTightly around row'

/-- Whether a part is what the node around it asks for: no expression is built on a dotted name, and
what is called by a single name has a token for it. -/
structure Around.Suits (around : Around) (tree : Tree) : Prop where
  base : around.kind.buildsOn = true → tree.kind ≠ .dottedName
  named : around.kind.hasWordName = true → tree.isNaming = true → tree.isToken = true
  nickname : around.kind = .aliasedImport → tree.field = some .nickname → tree.isToken = true

/-- The parts of a node are what it asks for. -/
theorem Around.suits_inside (hshaped : tree.WellShaped) (hmade : tree.WellMade) {part : Tree}
    (hpart : part ∈ tree.children) : (around.inside tree).Suits part where
  base hkind := (hshaped tree tree.self_mem_nodes).base hkind part hpart
  named hkind := (hmade tree tree.self_mem_nodes).named hkind part hpart
  nickname hkind := (hmade tree tree.self_mem_nodes).nickname hkind part hpart

/-- What is kept of a part has no parts of its own. -/
theorem children_of_keeps (hkeeps : around.keeps tree = true) (hshaped : tree.Shaped)
    (hsuits : around.Suits tree) : tree.children = [] := by
  have htoken (h : tree.isToken = true) : tree.children = [] := by
    cases tree with
    | token => rfl
    | branch => cases h
  simp only [Around.keeps, Bool.or_eq_true, Bool.and_eq_true, beq_iff_eq] at hkeeps
  rcases hkeeps with ((hname | ⟨hkind, hdotted⟩) | ⟨hkind, hnaming⟩) | ⟨hkind, hnickname⟩
  · exact hshaped.leaf (by simp [hname, Kind.isLeaf])
  · exact absurd hdotted (hsuits.base hkind)
  · exact htoken (hsuits.named hkind hnaming)
  · exact htoken (hsuits.nickname hkind hnickname)

namespace BlanksHidden

/-- What is hidden in two rows is hidden in their first members. -/
theorem head (h : BlanksHidden view around (tree :: rest) (other :: rest')) :
    BlanksHidden view around [tree] [other] :=
  h.imp_right fun ⟨htight, htight'⟩ =>
    ⟨by simpa [CopiedTightly] using htight tree (by simp),
      by simpa [CopiedTightly] using htight' other (by simp)⟩

/-- What is hidden in two rows is hidden in their other members. -/
theorem tail (h : BlanksHidden view around (tree :: rest) (other :: rest')) :
    BlanksHidden view around rest rest' :=
  h.imp_right fun ⟨htight, htight'⟩ =>
    ⟨fun part hpart => htight part (List.mem_cons_of_mem _ hpart),
      fun part hpart => htight' part (List.mem_cons_of_mem _ hpart)⟩

/-- What is hidden in trees of one kind is hidden in their parts. -/
theorem inside (h : BlanksHidden view around [tree] [other]) (hfield : tree.field = other.field)
    (hkind : tree.kind = other.kind) :
    BlanksHidden view (around.inside tree) tree.children other.children := by
  have hparts {node : Tree} (htight : CopiedTightly around [node]) :
      CopiedTightly ⟨node.field, node.kind, around.reads node.field⟩ node.children := by
    intro part hpart
    obtain ⟨-, hnode⟩ := htight node (by simp)
    refine ⟨hnode node node.self_mem_nodes part hpart, fun inner hinner => ?_⟩
    exact hnode inner (Tree.mem_nodes_trans (Tree.mem_nodes_of_mem_children hpart) hinner)
  refine h.imp_right fun ⟨htight, htight'⟩ => ⟨hparts htight, ?_⟩
  rw [Around.inside, hfield, hkind]
  exact hparts htight'

/-- What is imported by two trees that differ in nothing but blank space is the same as far as it is
to be seen, and so are the parameters that they name. -/
theorem spread_eq (h : BlanksHidden view around [tree] [other]) (hsame : tree.SameButBlanks other)
    (hspreads : around.spreads tree = true) (hspreads' : around.spreads other = true) :
    view.imported (textOf tree) = view.imported (textOf other) ∧
      view.parameter (textOf tree) = view.parameter (textOf other) := by
  rcases h with hskips | ⟨htight, htight'⟩
  · exact hskips _ _ hsame.squeeze_text
  · have htext : tree.text = other.text :=
      hsame.text_eq_of_isTight ((htight tree (by simp)).1 hspreads)
        ((htight' other (by simp)).1 hspreads')
    simp [textOf, htext]

end BlanksHidden

/-- Trees that differ in nothing but blank space look alike at their tops. -/
theorem alike_of_sameButBlanks (h : tree.SameButBlanks other) (hshaped : tree.WellShaped)
    (hsuits : around.Suits tree) (hhidden : BlanksHidden view around [tree] [other]) :
    Alike view around tree other := by
  have hnode : tree.Shaped := hshaped tree tree.self_mem_nodes
  have htop : tree.field = other.field ∧ tree.kind = other.kind ∧ tree.isToken = other.isToken ∧
      tree.line = other.line := by
    cases h <;> exact ⟨rfl, rfl, rfl, rfl⟩
  obtain ⟨hfield, hkind, htoken, hline⟩ := htop
  have hleaf (hkind : tree.kind.isLeaf = true) : tree.text = other.text :=
    h.text_eq_of_children (hnode.leaf hkind)
  have hspread (hspreads : around.spreads tree = true) :=
    hhidden.spread_eq h hspreads (by
      simpa [Around.spreads, Around.imports, Around.namesParameter, hfield, hkind] using hspreads)
  refine ⟨hfield, hkind, htoken, congrArg _ hline, ?_, ?_, ?_, ?_, ?_, ?_⟩
  · exact fun hkeeps => h.text_eq_of_children (children_of_keeps hkeeps hnode hsuits)
  · exact fun himports => (hspread (by simp [Around.spreads, himports])).1
  · exact fun hnames => (hspread (by simp [Around.spreads, hnames])).2
  · exact fun _ hsign => hleaf (by simp [hsign, Kind.isLeaf])
  · intro hnumber
    rcases hnumber with hnumber | hnumber <;> rw [hleaf (by simp [hnumber, Kind.isLeaf])]
  · intro hstring
    obtain ⟨first, rest, hchildren, hopening⟩ := hnode.opening hstring
    have hparts := h.parts
    rw [hchildren] at hparts
    obtain ⟨first', rest', hchildren', hfirst⟩ : ∃ first' rest',
        other.children = first' :: rest' ∧ first.SameButBlanks first' := by
      generalize other.children = others at hparts
      cases hparts with
      | token hblank _ => exact ⟨_, _, rfl, .token hblank .nil⟩
      | branch hinner _ => exact ⟨_, _, rfl, .branch hinner .nil⟩
    have hshaped' : first.Shaped :=
      hshaped first (Tree.mem_nodes_of_mem_children (by simp [hchildren]))
    have hsame := hfirst.text_eq_of_children
      (hshaped'.leaf (by simp [hopening, Kind.isLeaf]))
    simp [firstText, hchildren, hchildren', hsame]

/-- Rows that differ in nothing but blank space look alike. -/
theorem twins_of_sameButBlanks (h : SameButBlanks row row')
    (hshaped : ∀ tree ∈ row, tree.WellShaped) (hmade : ∀ tree ∈ row, tree.WellMade)
    (hsuits : ∀ tree ∈ row, around.Suits tree) (hhidden : BlanksHidden view around row row') :
    Twins view around watched row row' := by
  induction h generalizing around watched with
  | nil => exact .nil
  | token hblank _ ih =>
    rw [List.forall_mem_cons] at hshaped hmade hsuits
    refine .node (alike_of_sameButBlanks (.token hblank .nil) hshaped.1 hsuits.1 hhidden.head)
      .nil ?_
    exact ih hshaped.2 hmade.2 hsuits.2 hhidden.tail
  | @branch field kind line children children' rest rest' hchildren _ ihchildren ih =>
    rw [List.forall_mem_cons] at hshaped hmade hsuits
    refine .node (alike_of_sameButBlanks (.branch hchildren .nil) hshaped.1 hsuits.1 hhidden.head)
      ?_ (ih hshaped.2 hmade.2 hsuits.2 hhidden.tail)
    exact ihchildren (fun part hpart => hshaped.1.part hpart) (fun part hpart => hmade.1.part hpart)
      (fun part hpart => Around.suits_inside hshaped.1 hmade.1 hpart) (hhidden.head.inside rfl rfl)

/-- Trees that differ in nothing but blank space look alike. -/
theorem twinTrees_of_sameButBlanks (h : tree.SameButBlanks other) (hshaped : tree.WellShaped)
    (hmade : tree.WellMade) (hsuits : around.Suits tree)
    (hhidden : BlanksHidden view around [tree] [other]) : TwinTrees view around tree other := by
  have halike := alike_of_sameButBlanks h hshaped hsuits hhidden
  refine ⟨halike, ?_⟩
  exact twins_of_sameButBlanks h.parts (fun part hpart => hshaped.part hpart)
    (fun part hpart => hmade.part hpart)
    (fun part hpart => Around.suits_inside hshaped hmade hpart)
    (hhidden.inside halike.field halike.kind)

/-- Of the blank space between its tokens nothing is to be seen in the elements of a tree that is
well made and has its shape all through but in what is imported and in the names of parameters, and
not there either where they are written without any. -/
theorem elements_of_sameButBlanks (hshaped : tree.WellShaped) (hmade : tree.WellMade)
    (hsame : tree.SameButBlanks other) :
    LookSame View.blanksAside.findings (extract tree) (extract other) ∧
      (tree.CopiesTightly → other.CopiesTightly →
        LookSame Findings.elements (extract tree) (extract other)) := by
  have hsuits : Around.top.Suits tree :=
    ⟨by simp [Around.top, Kind.buildsOn], by simp [Around.top, Kind.hasWordName],
      by simp [Around.top]⟩
  have htop (node : Tree) : Around.top.spreads node = false := by
    simp [Around.spreads, Around.imports, Around.namesParameter, Around.top, Kind.importsNames]
  refine ⟨?_, fun htight htight' => ?_⟩
  · have hskips : View.blanksAside.SkipsBlanks := fun text text' htext => by
      simp [View.blanksAside, htext]
    exact (twinTrees_of_sameButBlanks hsame hshaped hmade hsuits (.inl hskips)).extract
  · have hhidden : BlanksHidden Sight.full.view .top [tree] [other] :=
      .inr (by simp [CopiedTightly, htop, htight, htight'])
    simpa using (twinTrees_of_sameButBlanks hsame hshaped hmade hsuits hhidden).extract

/-- The tree of a renamed import and a call, with the given blank space between words, and between
other tokens outside the path of the import. -/
def spacedTree (wide narrow : List Char) : Tree :=
  .branch none .script 1 [
    .branch none .importStatement 1 [
      .token none .sign 1 [] ['i', 'm', 'p', 'o', 'r', 't'],
      .branch (some .name) .aliasedImport 1 [
        .branch (some .name) .dottedName 1 [
          .token none .identifier 1 wide ['a', 'c', 'm', 'e'],
          .token none .sign 1 [] ['.'],
          .token none .identifier 1 [] ['u', 'i']],
        .token none .sign 1 wide ['a', 's'],
        .token (some .nickname) .identifier 1 wide ['u', 'i']]],
    .branch none .expressionStatement 2 [
      .branch none .call 2 [
        .branch (some .function) .member 2 [
          .token (some .object) .identifier 2 ['\n'] ['u', 'i'],
          .token none .sign 2 narrow ['.'],
          .token (some .memberName) .identifier 2 narrow ['r', 'u', 'n']],
        .branch (some .arguments) .argumentList 2 [
          .token none .sign 2 narrow ['('],
          .token none .integer 2 narrow ['1'],
          .token none .sign 2 narrow [')']]]]]

/-- A script written with more blank space between its tokens has the same elements. -/
theorem elements_spacedTree :
    let tree := spacedTree [' '] []
    let other := spacedTree [' ', ' '] [' ']
    Script.parse "import acme.ui as ui\nui.run(1)\n".toList = .ok tree ∧ tree.WellShaped ∧
      tree.WellMade ∧ tree.SameButBlanks other ∧ tree.CopiesTightly ∧ other.CopiesTightly ∧
        LookSame View.blanksAside.findings (extract tree) (extract other) ∧
          LookSame Findings.elements (extract tree) (extract other) := by
  intro tree other
  have hparse : Script.parse "import acme.ui as ui\nui.run(1)\n".toList = .ok tree := by cbv
  have hwide : squeeze [' '] = squeeze [' ', ' '] := by decide
  have hnarrow : squeeze [] = squeeze [' '] := by decide
  have hsame : tree.SameButBlanks other := by
    refine .branch (.branch (.token rfl (.branch ?path .nil)) (.branch ?call .nil)) .nil
    case path =>
      exact .branch (.token hwide (.token rfl (.token rfl .nil)))
        (.token hwide (.token hwide .nil))
    case call =>
      exact .branch (.branch (.token rfl (.token hnarrow (.token hnarrow .nil)))
        (.branch (.token hnarrow (.token hnarrow (.token hnarrow .nil))) .nil)) .nil
  have htight : tree.CopiesTightly := by decide
  have htight' : other.CopiesTightly := by decide
  have hshaped := Script.wellShaped_of_parse hparse
  have hmade := Script.wellMade_of_parse hparse
  obtain ⟨hshape, hall⟩ := elements_of_sameButBlanks hshaped hmade hsame
  exact ⟨hparse, hshaped, hmade, hsame, htight, htight', hshape, hall htight htight'⟩

/-- The tree of an import of a submodule, with the given blank space around the dot. -/
def spacedImportTree (blank : List Char) : Tree :=
  .branch none .script 1 [
    .branch none .importStatement 1 [
      .token none .sign 1 [] ['i', 'm', 'p', 'o', 'r', 't'],
      .branch (some .name) .dottedName 1 [
        .token none .identifier 1 [' '] ['a', 'c', 'm', 'e'],
        .token none .sign 1 blank ['.'],
        .token none .identifier 1 blank ['w', 'i', 'd', 'g', 'e', 't', 's']]]]

/-- The blank space in the path of an import gets into the element: what is imported is not put
together from the tokens alone. -/
theorem spaced_path_copied :
    Script.parse "import acme.widgets\n".toList = .ok (spacedImportTree []) ∧
      Script.parse "import acme . widgets\n".toList = .ok (spacedImportTree [' ']) ∧
        (spacedImportTree []).SameButBlanks (spacedImportTree [' ']) ∧
          ¬LookSame Findings.elements (extract (spacedImportTree []))
            (extract (spacedImportTree [' '])) := by
  have hblank : squeeze [] = squeeze [' '] := by decide
  refine ⟨by cbv, by cbv, ?_, by unfold LookSame; decide +kernel⟩
  exact .branch (.branch (.token rfl (.branch
    (.token rfl (.token hblank (.token hblank .nil))) .nil)) .nil) .nil

end Extraction

end UsageAudit

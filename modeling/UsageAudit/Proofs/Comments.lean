import Mathlib
import UsageAudit.Proofs.TwinWalks

/-!
# Comments

A comment is a node like any other, and it may stand between any two tokens. A walk passes over it
but for two places: what is read off parentheses is read off the first node in them, even if that
is a comment, and a comment inside a pattern that names a parameter is copied with it. Where no
comment stands in such a place, a script has the same elements with its comments as without them,
up to the lines.
-/

namespace UsageAudit

namespace Script

/-- Whether the second row is the first one with comments put in between. The lines are free, and so
is the blank space between a new comment and the token behind it: `fresh` says that a new comment
stands right in front of the row, and the last index that one stands right behind it. -/
inductive Commented : Bool → List Tree → List Tree → Bool → Prop
  | nil {fresh : Bool} : Commented fresh [] [] fresh
  | comment {fresh after : Bool} {line : Nat} {blank text : List Char} {row row' : List Tree} :
      Commented true row row' after →
      Commented fresh row (.token none .comment line blank text :: row') after
  | token {fresh after : Bool} {field : Option Field} {kind : Kind} {line line' : Nat}
      {blank blank' text : List Char} {rest rest' : List Tree} :
      (fresh = false → blank = blank') → Commented false rest rest' after →
      Commented fresh (.token field kind line blank text :: rest)
        (.token field kind line' blank' text :: rest') after
  | branch {fresh inner after : Bool} {field : Option Field} {kind : Kind} {line line' : Nat}
      {children children' rest rest' : List Tree} :
      Commented fresh children children' inner →
      Commented (inner && !children'.isEmpty) rest rest' after →
      Commented fresh (.branch field kind line children :: rest)
        (.branch field kind line' children' :: rest') after

/-- Whether the second tree is the first one with comments put in between. -/
def Tree.Commented (tree other : Tree) : Prop :=
  ∃ after, Script.Commented false [tree] [other] after

/-- Whether there is no comment in a tree. -/
def Tree.CommentFree (tree : Tree) : Prop := ∀ node ∈ tree.nodes, node.kind ≠ .comment

instance (tree : Tree) : Decidable tree.CommentFree :=
  inferInstanceAs (Decidable (∀ node ∈ tree.nodes, node.kind ≠ .comment))

variable {fresh after : Bool} {row row' : List Tree} {tree other : Tree} {field : Option Field}
  {kind : Kind} {line : Nat} {blank text : List Char} {children : List Tree}

@[simp]
theorem Tree.commentFree_token :
    (Tree.token field kind line blank text).CommentFree ↔ kind ≠ .comment := by
  simp [CommentFree, nodes, Tree.kind]

@[simp]
theorem Tree.commentFree_branch : (Tree.branch field kind line children).CommentFree ↔
    kind ≠ .comment ∧ ∀ child ∈ children, child.CommentFree := by
  simp only [CommentFree, nodes, List.forall_mem_cons, mem_nodesOf, Tree.kind]
  grind

/-- What is spelled by a row in which no comment stands. -/
structure SameSpelling (fresh : Bool) (row row' : List Tree) (after : Bool) : Prop where
  texts : Tree.texts row = Tree.texts row'
  spellings : fresh = false → Tree.spellings row = Tree.spellings row'
  /-- Nothing new stands behind a row if nothing new stands in front of it or it is not empty. -/
  after : fresh = false ∨ row' ≠ [] → after = false

/-- A row in which no comment was put spells the same as before, up to the blank space in front. -/
theorem Commented.sameSpelling (h : Commented fresh row row' after)
    (hfree : ∀ tree ∈ row', tree.CommentFree) : SameSpelling fresh row row' after := by
  induction h with
  | nil => exact ⟨rfl, fun _ => rfl, by simp⟩
  | comment => simp at hfree
  | token hblank _ ih =>
    rw [List.forall_mem_cons] at hfree
    have hrest := ih hfree.2
    refine ⟨?_, fun hfresh => ?_, fun _ => hrest.after (.inl rfl)⟩
    · simp [Tree.texts, Tree.text, hrest.spellings rfl]
    · simp [Tree.spellings, Tree.spelling, hblank hfresh, hrest.spellings rfl]
  | @branch fresh inner after field kind line line' children children' rest rest' _ _ ihin ih =>
    rw [List.forall_mem_cons, Tree.commentFree_branch] at hfree
    have hin := ihin hfree.1.2
    have hrest := ih hfree.2
    have hinner : (inner && !children'.isEmpty) = false := by
      cases children' with
      | nil => simp
      | cons first others => simp [hin.after (.inr (by simp))]
    refine ⟨?_, fun hfresh => ?_, fun _ => hrest.after (.inl hinner)⟩
    · simp [Tree.texts, Tree.text, hin.texts, hrest.spellings hinner]
    · simp [Tree.spellings, Tree.spelling, hin.spellings hfresh, hrest.spellings hinner]

end Script

namespace Extraction

open Script (Tree Kind Field Commented)

/-- A node with what is around it. -/
structure Site where
  around : Around
  node : Tree

mutual

/-- The nodes of a tree with what is around them. -/
def sites (around : Around) : Tree → List Site
  | .token field kind line blank text => [⟨around, .token field kind line blank text⟩]
  | .branch field kind line children =>
    ⟨around, .branch field kind line children⟩ ::
      sitesOf (around.inside (.branch field kind line children)) children

/-- The nodes of a row of trees with what is around them. -/
def sitesOf (around : Around) : List Tree → List Site
  | [] => []
  | tree :: rest => sites around tree ++ sitesOf around rest

end

/-- Whether a walk looks at the text of a node. -/
def Site.isSpelled (site : Site) : Bool :=
  site.around.copies site.node || site.around.namesParameter site.node || site.node.kind.isLeaf

/-- Whether no comment stands where a walk would stumble over it: in a text that is looked at, at
the start of a text literal, or as the first construct in parentheses that something is read off. -/
structure Site.IsClear (site : Site) : Prop where
  spelled : site.isSpelled = true → site.node.CommentFree
  opening : site.node.kind = .string → ∀ first ∈ site.node.children.head?, first.CommentFree
  first : (site.around.inside site.node).watches = true →
    ∀ first ∈ site.node.children.find? Tree.isNamed, first.kind ≠ .comment

instance (site : Site) : Decidable site.IsClear :=
  decidable_of_iff
    ((site.isSpelled = true → site.node.CommentFree) ∧
      (site.node.kind = .string → ∀ first ∈ site.node.children.head?, first.CommentFree) ∧
        ((site.around.inside site.node).watches = true →
          ∀ first ∈ site.node.children.find? Tree.isNamed, first.kind ≠ .comment))
    ⟨fun ⟨hspelled, hopening, hfirst⟩ => ⟨hspelled, hopening, hfirst⟩,
      fun h => ⟨h.spelled, h.opening, h.first⟩⟩

/-- Whether no comment in a tree stands where a walk would stumble over it. -/
def IsClear (around : Around) (tree : Tree) : Prop := ∀ site ∈ sites around tree, site.IsClear

instance (around : Around) (tree : Tree) : Decidable (IsClear around tree) :=
  inferInstanceAs (Decidable (∀ site ∈ sites around tree, site.IsClear))

variable {around : Around} {fresh after watched : Bool} {row row' : List Tree} {tree other : Tree}
  {field : Option Field} {kind : Kind} {line line' : Nat} {blank text : List Char}
  {children children' : List Tree}

/-- A site is in a row if it is in one of its members. -/
theorem mem_sitesOf {site : Site} :
    site ∈ sitesOf around row ↔ ∃ tree ∈ row, site ∈ sites around tree := by
  induction row with
  | nil => simp [sitesOf]
  | cons tree rest ih => simp [sitesOf, ih]

/-- A tree is clear if its top and its parts are. -/
theorem isClear_branch : IsClear around (.branch field kind line children) ↔
    Site.IsClear ⟨around, .branch field kind line children⟩ ∧
      ∀ child ∈ children, IsClear (around.inside (.branch field kind line children)) child := by
  simp only [IsClear, sites, List.forall_mem_cons, mem_sitesOf]
  grind

/-- Nodes look alike but for their lines if all that was put into the one are comments, none of them
in the way. -/
theorem alike_of_commented (h : Commented fresh children children' after)
    (hclear : Site.IsClear ⟨around, .branch field kind line' children'⟩) :
    Alike Sight.linesAside.view around (.branch field kind line children)
      (.branch field kind line' children') := by
  have htext (hspelled : Site.isSpelled ⟨around, .branch field kind line' children'⟩ = true) :
      (Tree.branch field kind line children).text =
        (Tree.branch field kind line' children').text := by
    have hfree := Tree.commentFree_branch.mp (hclear.spelled hspelled)
    exact (h.sameSpelling hfree.2).texts
  have hleaf (hleaf : kind.isLeaf = true) := htext (by simp [Site.isSpelled, Tree.kind, hleaf])
  have hcopied (hcopies : around.copies (.branch field kind line' children') = true) :=
    htext (Bool.or_eq_true_iff.mpr (.inl (Bool.or_eq_true_iff.mpr (.inl hcopies))))
  refine ⟨rfl, rfl, rfl, rfl, fun hkeeps => ?_, fun himports => ?_, fun hnames => ?_,
    fun _ hsign => ?_, fun hnumber => ?_, fun hstring => ?_⟩
  · exact hcopied (Around.copies_of_keeps hkeeps)
  · exact congrArg String.ofList (hcopied (Around.copies_of_imports himports))
  · have hsame := htext (Bool.or_eq_true_iff.mpr (.inl (Bool.or_eq_true_iff.mpr (.inr hnames))))
    exact congrArg String.ofList hsame
  · obtain rfl : kind = .sign := hsign
    exact hleaf rfl
  · rw [hleaf (by rcases hnumber with rfl | rfl <;> rfl)]
  · have hopening := hclear.opening hstring
    simp only [firstText, Tree.children]
    cases h with
    | nil => rfl
    | comment => exact absurd (hopening _ rfl) (by simp)
    | token => rfl
    | branch hfirst _ =>
      have hfree := Tree.commentFree_branch.mp (hopening _ rfl)
      exact congrArg isBytesPrefix (hfirst.sameSpelling hfree.2).texts

/-- Where the first construct of a row matters and is no comment, that of the rest is none as long
as it matters. -/
theorem first_of_cons
    (hfirst : watched = true → ∀ first ∈ (tree :: row).find? Tree.isNamed, first.kind ≠ .comment)
    (hwatched : (watched && !tree.isNamed) = true) :
    ∀ first ∈ row.find? Tree.isNamed, first.kind ≠ .comment := by
  obtain ⟨hwatched, hnamed⟩ : watched = true ∧ tree.isNamed = false := by simpa using hwatched
  have hrow := hfirst hwatched
  rwa [List.find?_cons_of_neg (by simp [hnamed])] at hrow

/-- Rows look alike but for their lines if all that was put into the one are comments, none of them
in the way. -/
theorem twins_of_commented (h : Commented fresh row row' after)
    (hclear : ∀ tree ∈ row', IsClear around tree)
    (hfirst : watched = true → ∀ first ∈ row'.find? Tree.isNamed, first.kind ≠ .comment) :
    Twins Sight.linesAside.view around watched row row' := by
  induction h generalizing around watched with
  | nil => exact .nil
  | @comment fresh after line blank text row row' _ ih =>
    have hwatched : watched = false := by
      cases watched with
      | false => rfl
      | true => exact absurd rfl (hfirst rfl (.token none .comment line blank text) rfl)
    rw [List.forall_mem_cons] at hclear
    refine .right ⟨.comment, line, blank, text, rfl, .inl ⟨rfl, hwatched⟩⟩ (ih hclear.2 ?_)
    exact fun htrue => by simp [hwatched] at htrue
  | @token fresh after field kind line line' blank blank' text rest rest' _ _ ih =>
    rw [List.forall_mem_cons] at hclear
    refine .node ⟨rfl, rfl, rfl, rfl, fun _ => rfl, fun _ => rfl, fun _ => rfl, fun _ _ => rfl,
      fun _ => rfl, fun _ => rfl⟩ .nil (ih hclear.2 fun hnamed => ?_)
    exact first_of_cons hfirst hnamed
  | @branch fresh inner after field kind line line' children children' rest rest' hin _ ihin ih =>
    rw [List.forall_mem_cons, isClear_branch] at hclear
    refine .node (alike_of_commented hin hclear.1.1) ?_ (ih hclear.2 fun hnamed => ?_)
    · exact ihin hclear.1.2 hclear.1.1.first
    · exact first_of_cons hfirst hnamed

/-- Trees look alike but for their lines if all that was put into the one are comments, none of them
in the way. -/
theorem twinTrees_of_commented (h : tree.Commented other) (hclear : IsClear around other) :
    TwinTrees Sight.linesAside.view around tree other := by
  obtain ⟨after, h⟩ := h
  cases h with
  | comment h => cases h
  | token =>
    exact ⟨⟨rfl, rfl, rfl, rfl, fun _ => rfl, fun _ => rfl, fun _ => rfl, fun _ _ => rfl,
      fun _ => rfl, fun _ => rfl⟩, .nil⟩
  | branch hin _ =>
    rw [isClear_branch] at hclear
    exact ⟨alike_of_commented hin hclear.1, twins_of_commented hin hclear.2 hclear.1.first⟩

/-- Comments do not change the elements of a script but for their lines, if none of them stands in a
text that is copied, at the start of a text literal, or first in parentheses that something is read
off. -/
theorem elements_of_commented (h : tree.Commented other) (hclear : IsClear .top other) :
    LookSame Sight.linesAside.findings (extract tree) (extract other) := by
  simpa using (twinTrees_of_commented h hclear).extract

/-- The tree of an assignment whose right side is a call in parentheses. -/
def assignedCallTree : Tree :=
  .branch none .script 1 [
    .branch none .expressionStatement 1 [
      .branch none .assignment 1 [
        .token (some .left) .identifier 1 [] ['x'],
        .token none .sign 1 [' '] ['='],
        .branch (some .right) .parenthesized 1 [
          .token none .sign 1 [' '] ['('],
          .branch none .call 1 [
            .token (some .function) .identifier 1 [] ['f'],
            .branch (some .arguments) .argumentList 1 [
              .token none .sign 1 [] ['('],
              .token none .integer 1 [] ['1'],
              .token none .sign 1 [] [')']]],
          .token none .sign 1 [] [')']]]]]

theorem parse_assignedCall : Script.parse "x = (f(1))".toList = .ok assignedCallTree := by cbv

/-- The same assignment with comments around the argument of the call. -/
def commentedArgumentTree : Tree :=
  .branch none .script 1 [
    .branch none .expressionStatement 1 [
      .branch none .assignment 1 [
        .token (some .left) .identifier 1 [] ['x'],
        .token none .sign 1 [' '] ['='],
        .branch (some .right) .parenthesized 1 [
          .token none .sign 1 [' '] ['('],
          .branch none .call 1 [
            .token (some .function) .identifier 1 [] ['f'],
            .branch (some .arguments) .argumentList 1 [
              .token none .sign 1 [] ['('],
              .token none .comment 1 [] ['#', ' ', 'c'],
              .token none .integer 2 ['\n', ' '] ['1'],
              .token none .comment 2 [' '] ['#', ' ', 'd'],
              .token none .sign 3 ['\n'] [')']]],
          .token none .sign 3 [] [')']]]]]

/-- Comments around an argument do not change the elements. -/
theorem elements_commentedArgumentTree :
    Script.parse "x = (f(1))".toList = .ok assignedCallTree ∧
      Script.parse "x = (f(# c\n 1 # d\n))".toList = .ok commentedArgumentTree ∧
        assignedCallTree.Commented commentedArgumentTree ∧ IsClear .top commentedArgumentTree ∧
          LookSame Sight.linesAside.findings (extract assignedCallTree)
            (extract commentedArgumentTree) := by
  have harguments : Commented false
      [.token none .sign 1 [] ['('], .token none .integer 1 [] ['1'], .token none .sign 1 [] [')']]
      [.token none .sign 1 [] ['('], .token none .comment 1 [] ['#', ' ', 'c'],
        .token none .integer 2 ['\n', ' '] ['1'], .token none .comment 2 [' '] ['#', ' ', 'd'],
        .token none .sign 3 ['\n'] [')']] false :=
    .token (by simp) (.comment (.token (by simp) (.comment (.token (by simp) .nil))))
  have hcommented : assignedCallTree.Commented commentedArgumentTree :=
    ⟨false, .branch (.branch (.branch (.token (by simp) (.token (by simp) (.branch
      (.token (by simp) (.branch (.token (by simp) (.branch harguments .nil))
        (.token (by simp) .nil))) .nil))) .nil) .nil) .nil⟩
  have hclear : IsClear .top commentedArgumentTree := by decide
  exact ⟨parse_assignedCall, by cbv, hcommented, hclear, elements_of_commented hcommented hclear⟩

/-- Parentheses and an awaited expression that start with a comment are taken for the comment: what
is called in them is not found, and they are rendered with its name. -/
theorem taken_for_comment {first : Tree}
    (hkind : tree.kind = .parenthesized ∨ tree.kind = .awaitExpression)
    (hfirst : tree.children.find? Tree.isNamed = some first) (hcomment : first.kind = .comment) :
    assignedCallee tree = .ok none ∧ render tree = .ok "<comment>" ∧
      literalKind tree = .unknown := by
  have hcallee : assignedCallee first = .ok none := by simp [assignedCallee_eq, hcomment]
  have hliteral : literalKind first = .unknown := by
    simp [literalKind_eq, hcomment, literalKindOf]
  have hrender : render first = .ok "<comment>" := by
    rw [render_of_other (by simp [hcomment, isRendered]), tagOf, hliteral, hcomment]
    rfl
  refine ⟨?_, ?_, ?_⟩
  · rw [assignedCallee_eq]
    rcases hkind with hkind | hkind <;> simp [hkind, hfirst, hcallee]
  · simp [render_of_parenthesized hkind, hfirst, hrender]
  · rw [literalKind_eq]
    rcases hkind with hkind | hkind <;> simp [literalKindOf, hkind, hfirst, hliteral]

/-- The same assignment with a comment at the start of the parentheses. -/
def commentedCallTree : Tree :=
  .branch none .script 1 [
    .branch none .expressionStatement 1 [
      .branch none .assignment 1 [
        .token (some .left) .identifier 1 [] ['x'],
        .token none .sign 1 [' '] ['='],
        .branch (some .right) .parenthesized 1 [
          .token none .sign 1 [' '] ['('],
          .token none .comment 1 [] ['#', ' ', 'c'],
          .branch none .call 2 [
            .token (some .function) .identifier 2 ['\n', ' '] ['f'],
            .branch (some .arguments) .argumentList 2 [
              .token none .sign 2 [] ['('],
              .token none .integer 2 [] ['1'],
              .token none .sign 2 [] [')']]],
          .token none .sign 2 [] [')']]]]]

/-- Behind a comment at the start of parentheses the call is lost: it is no longer known what was
assigned. -/
theorem commented_call_lost :
    Script.parse "x = (f(1))".toList = .ok assignedCallTree ∧
      Script.parse "x = (# c\n f(1))".toList = .ok commentedCallTree ∧
        assignedCallTree.Commented commentedCallTree ∧
          ¬LookSame Sight.linesAside.findings (extract assignedCallTree)
            (extract commentedCallTree) := by
  have hcall : Commented true
      [.branch none .call 1 [
        .token (some .function) .identifier 1 [] ['f'],
        .branch (some .arguments) .argumentList 1 [
          .token none .sign 1 [] ['('], .token none .integer 1 [] ['1'],
          .token none .sign 1 [] [')']]], .token none .sign 1 [] [')']]
      [.branch none .call 2 [
        .token (some .function) .identifier 2 ['\n', ' '] ['f'],
        .branch (some .arguments) .argumentList 2 [
          .token none .sign 2 [] ['('], .token none .integer 2 [] ['1'],
          .token none .sign 2 [] [')']]], .token none .sign 2 [] [')']] false :=
    .branch (.token (by simp) (.branch
      (.token (by simp) (.token (by simp) (.token (by simp) .nil))) .nil)) (.token (by simp) .nil)
  refine ⟨parse_assignedCall, by cbv, ⟨false, ?_⟩, by unfold LookSame; decide +kernel⟩
  exact .branch (.branch (.branch (.token (by simp) (.token (by simp) (.branch
    (.token (by simp) (.comment hcall)) .nil))) .nil) .nil) .nil

end Extraction

end UsageAudit

import UsageAudit.Analysis
import UsageAudit.Proofs.StatementShape

/-!
# Elements in line order

A syntax tree tells where its nodes stand in the script: no part starts in front of its node, a part
starts behind everything in the parts before it, and a construct is spelled by characters of the
script that start on its line. A walk goes through the nodes in that order, and what it finds at a
node is on the line of the node. So the elements of every tree that stands in a script come in line
order, on lines that the script has. The tree that is read from a script stands in it, since its
lines are counted along its spelling.
-/

namespace UsageAudit

namespace Script

namespace Tree

/-- Whether the nodes of a tree are in the order of the source, by the lines on which they start: no
part starts on an earlier line than its node, and of two parts of a node the second starts on no
earlier line than anything in the first. -/
structure InSourceOrder (tree : Tree) : Prop where
  parts : ∀ node ∈ tree.nodes, ∀ part ∈ node.children, node.line ≤ part.line
  siblings : ∀ node ∈ tree.nodes, node.children.Pairwise fun first second =>
    ∀ part ∈ first.nodes, part.line ≤ second.line

/-- Whether the nodes of a tree stand in a script, in the order of the source: every node is spelled
by characters of the script that start on its line, and a construct that gives rise to elements is
spelled by at least one. -/
structure StandsIn (tree : Tree) (script : List Char) : Prop extends tree.InSourceOrder where
  line : ∀ node ∈ tree.nodes, ∃ front back, script = front ++ node.text ++ back ∧
    node.line = lineFeeds front + 1
  spelled : ∀ node ∈ tree.nodes, node.kind.givesElements = true → node.isToken = false →
    node.text ≠ []

variable {tree node : Tree} {row : List Tree} {start : Nat}

/-- The line feeds of one text after the other. -/
@[simp]
theorem lineFeeds_append (first second : List Char) :
    lineFeeds (first ++ second) = lineFeeds first + lineFeeds second :=
  List.count_append

/-- The characters of one row after the other. -/
@[simp]
theorem spellings_append (first second : List Tree) :
    spellings (first ++ second) = spellings first ++ spellings second := by
  induction first with
  | nil => rfl
  | cons tree rest ih => simp [spellings, ih]

/-- The nodes of a tree are the tree itself and those of its parts. -/
theorem nodes_eq_cons (tree : Tree) : tree.nodes = tree :: nodesOf tree.children := by
  cases tree <;> simp [nodes, children, nodesOf]

/-- The nodes of a row are those of its members, one after the other. -/
theorem nodesOf_eq_flatMap (row : List Tree) : nodesOf row = row.flatMap nodes := by
  induction row with
  | nil => rfl
  | cons tree rest ih => rw [nodesOf, ih, List.flatMap_cons]

/-- The nodes of a node come in the tree in the same order. -/
theorem nodes_sublist (h : node ∈ tree.nodes) : node.nodes.Sublist tree.nodes := by
  induction tree using Tree.parts_induction with
  | token field kind line blank text =>
    obtain rfl := List.mem_singleton.mp h
    exact List.Sublist.refl _
  | branch field kind line children ih =>
    rw [nodes_eq_cons, List.mem_cons, mem_nodesOf] at h
    rcases h with rfl | ⟨child, hchild, hnode⟩
    · exact List.Sublist.refl _
    · have hinside : child.nodes.Sublist (nodesOf children) := by
        rw [nodesOf_eq_flatMap]
        exact List.sublist_flatten_of_mem (List.mem_map_of_mem hchild)
      exact ((ih child hchild hnode).trans hinside).trans (List.sublist_cons_self _ _)

/-- The nodes of a part of a tree in source order are in source order. -/
theorem InSourceOrder.inside (h : tree.InSourceOrder) (hnode : node ∈ tree.nodes) :
    node.InSourceOrder :=
  ⟨fun _ hpart => h.parts _ (mem_nodes_trans hnode hpart),
    fun _ hpart => h.siblings _ (mem_nodes_trans hnode hpart)⟩

/-- The nodes of a tree are in source order if and only if they come in line order. -/
theorem inSourceOrder_iff : tree.InSourceOrder ↔
    tree.nodes.Pairwise fun first second => first.line ≤ second.line := by
  constructor
  · intro h
    induction tree using Tree.parts_induction with
    | token field kind line blank text => exact List.pairwise_singleton _ _
    | branch field kind line children ih =>
      have hpart (part : Tree) (hmem : part ∈ children) :
          part.nodes.Pairwise fun first second => first.line ≤ second.line :=
        ih part hmem (h.inside (mem_nodes_of_mem_children hmem))
      have hfrom (part : Tree) (hmem : part ∈ children) (node : Tree) (hnode : node ∈ part.nodes) :
          part.line ≤ node.line := by
        have hnodes := hpart part hmem
        rw [nodes_eq_cons] at hnodes hnode
        rcases List.mem_cons.mp hnode with rfl | hnode
        · exact Nat.le_refl _
        · exact (List.pairwise_cons.mp hnodes).1 node hnode
      have hself := h.parts _ (self_mem_nodes _)
      have hsiblings := h.siblings _ (self_mem_nodes _)
      rw [nodes, List.pairwise_cons]
      refine ⟨fun node hnode => ?_, ?_⟩
      · obtain ⟨part, hmem, hnode⟩ := mem_nodesOf.mp hnode
        exact (hself part hmem).trans (hfrom part hmem node hnode)
      · rw [nodesOf_eq_flatMap, List.pairwise_flatMap]
        refine ⟨hpart, hsiblings.imp_of_mem fun _ hsecond hbefore node hnode other hother => ?_⟩
        exact (hbefore node hnode).trans (hfrom _ hsecond other hother)
  · intro h
    have hsub (node : Tree) (hnode : node ∈ tree.nodes) :
        (node :: nodesOf node.children).Pairwise fun first second => first.line ≤ second.line := by
      rw [← nodes_eq_cons]
      exact h.sublist (nodes_sublist hnode)
    refine ⟨fun node hnode part hpart => ?_, fun node hnode => ?_⟩
    · exact (List.pairwise_cons.mp (hsub node hnode)).1 part
        (mem_nodesOf.mpr ⟨part, hpart, part.self_mem_nodes⟩)
    · have hrow := (List.pairwise_cons.mp (hsub node hnode)).2
      rw [nodesOf_eq_flatMap, List.pairwise_flatMap] at hrow
      exact hrow.2.imp fun hbefore part hpart => hbefore part hpart _ (self_mem_nodes _)

/-- The lines of a member of a row are counted from the end of what stands in front of it. -/
theorem exists_split_of_mem_numberedAll (h : tree ∈ numberedAll start row) :
    ∃ before part behind, row = before ++ part :: behind ∧
      tree = part.numbered (start + lineFeeds (spellings before)) := by
  induction row generalizing start with
  | nil => simp [numberedAll] at h
  | cons first rest ih =>
    rcases List.mem_cons.mp h with rfl | h
    · exact ⟨[], first, rest, rfl, rfl⟩
    · obtain ⟨before, part, behind, rfl, rfl⟩ := ih h
      exact ⟨first :: before, part, behind, rfl, by simp [spellings, Nat.add_assoc]⟩

/-- Every node of a tree with counted lines is spelled by a part of the spelling, and is on the line
on which that part starts. -/
theorem exists_front (h : node ∈ (tree.numbered start).nodes) :
    ∃ front back, tree.spelling = front ++ node.text ++ back ∧
      node.line = start + lineFeeds front := by
  induction tree using Tree.parts_induction generalizing start with
  | token field kind line blank text =>
    obtain rfl := List.mem_singleton.mp h
    exact ⟨blank, [], by simp [spelling, Tree.text], rfl⟩
  | branch field kind line children ih =>
    rw [nodes_eq_cons, List.mem_cons, mem_nodesOf] at h
    rcases h with rfl | ⟨child, hchild, hnode⟩
    · obtain ⟨lead, hlead, hline⟩ := (Tree.branch field kind line children).exists_lead
      exact ⟨lead, [], by rw [text_numbered, List.append_nil, hlead], hline start⟩
    · obtain ⟨before, part, behind, rfl, rfl⟩ := exists_split_of_mem_numberedAll hchild
      obtain ⟨front, back, hspelling, hline⟩ := ih part (by simp) hnode
      refine ⟨spellings before ++ front, back ++ spellings behind, ?_, ?_⟩
      · simp [spelling, spellings, hspelling]
      · rw [hline, lineFeeds_append, Nat.add_assoc]

/-- The nodes of a row with counted lines, in the same way. -/
theorem exists_front_row (h : node ∈ nodesOf (numberedAll start row)) :
    ∃ front back, spellings row = front ++ node.text ++ back ∧
      node.line = start + lineFeeds front := by
  have hinside : node ∈ ((Tree.branch none .script 0 row).numbered start).nodes :=
    List.mem_cons_of_mem _ h
  exact exists_front hinside

/-- The nodes of a tree with counted lines come in line order. -/
theorem pairwise_line_numbered (tree : Tree) (start : Nat) :
    (tree.numbered start).nodes.Pairwise fun first second => first.line ≤ second.line := by
  induction tree using Tree.parts_induction generalizing start with
  | token field kind line blank text => exact List.pairwise_singleton _ _
  | branch field kind line children ih =>
    have hrow : (nodesOf (numberedAll start children)).Pairwise
        fun first second => first.line ≤ second.line := by
      generalize start = begin
      induction children generalizing begin with
      | nil => exact .nil
      | cons first rest ihrest =>
        refine List.pairwise_append.mpr ⟨ih first List.mem_cons_self begin,
          ihrest (fun part hpart => ih part (List.mem_cons_of_mem _ hpart)) _, ?_⟩
        intro node hnode other hother
        obtain ⟨front, back, hspelling, hline⟩ := exists_front hnode
        obtain ⟨front', _, -, hline'⟩ := exists_front_row hother
        simp only [hline, hline', hspelling, lineFeeds_append]
        omega
    refine List.pairwise_cons.mpr ⟨fun node hnode => ?_, hrow⟩
    cases children with
    | nil => cases hnode
    | cons first rest =>
      rw [numberedAll, nodesOf, nodes_eq_cons, List.cons_append] at hnode hrow
      change (first.numbered start).line ≤ node.line
      rcases List.mem_cons.mp hnode with rfl | hnode
      · exact Nat.le_refl _
      · exact (List.pairwise_cons.mp hrow).1 node hnode

end Tree

/-- The syntax tree of a script spells the script up to what stands behind the last token. -/
theorem exists_append_of_parse {script : List Char} {tree : Tree} (h : parse script = .ok tree) :
    ∃ rest, script = tree.spelling ++ rest := by
  simp only [parse] at h
  split at h
  · split at h
    · rename_i hread
      cases h
      obtain ⟨-, hprefix⟩ := Bool.and_eq_true_iff.mp hread
      obtain ⟨rest, hrest⟩ := List.isPrefixOf_iff_prefix.mp hprefix
      exact ⟨rest, by rw [Tree.spelling_numbered, hrest]⟩
    · simp at h
  · simp at h

/-- The syntax tree of a script stands in it. -/
theorem standsIn_of_parse {script : List Char} {tree : Tree} (h : parse script = .ok tree) :
    tree.StandsIn script := by
  have hmade := wellMade_of_parse h
  obtain ⟨rest, hrest⟩ := exists_append_of_parse h
  obtain ⟨depth, whole, _, -, rfl⟩ := exists_of_parse h
  refine ⟨Tree.inSourceOrder_iff.mpr (whole.pairwise_line_numbered 1), fun node hnode => ?_,
    fun node hnode => (hmade node hnode).spelled⟩
  obtain ⟨front, back, hspelling, hline⟩ := Tree.exists_front hnode
  refine ⟨front, back ++ rest, ?_, by rw [hline, Nat.add_comm]⟩
  rw [hrest, Tree.spelling_numbered, hspelling, List.append_assoc]

/-- A text that goes on behind a line feed has one more line than it has line feeds in front. -/
theorem lineFeeds_lt_lineCount {front more : List Char} (h : more ≠ []) :
    Tree.lineFeeds front < lineCount (front ++ more) := by
  have hlast : (front ++ more).getLast? = more.getLast? := by
    rw [List.getLast?_append_of_ne_nil front h]
  have hempty : (front ++ more).isEmpty = false := by simp [h]
  simp only [lineCount, hlast, hempty, Bool.false_or, Tree.lineFeeds_append]
  split
  · rename_i hfeed
    have hmem : '\n' ∈ more := List.mem_of_getLast? (by simpa using hfeed)
    have hpos : 0 < Tree.lineFeeds more := List.count_pos_iff.mpr hmem
    omega
  · omega

/-- A node that is spelled by something is on a line of the script in which it stands. -/
theorem Tree.StandsIn.line_le {script : List Char} {tree node : Tree} (h : tree.StandsIn script)
    (hnode : node ∈ tree.nodes) (htext : node.text ≠ []) :
    1 ≤ node.line ∧ node.line ≤ lineCount script := by
  obtain ⟨front, back, rfl, hline⟩ := h.line node hnode
  have hlt : lineFeeds front < lineCount (front ++ (node.text ++ back)) :=
    lineFeeds_lt_lineCount (by simp [htext])
  rw [List.append_assoc]
  omega

end Script

namespace Extraction

open Script (Tree)

variable {scope : Scope} {role : Role} {node : Tree} {elements : List Element}

/-- Tokens give rise to no elements. -/
theorem elements_of_token (h : ownElements scope role node = .ok elements)
    (htoken : node.isToken = true) : elements = [] := by
  cases node with
  | branch => simp [Tree.isToken] at htoken
  | token role' kind line blank text =>
    have hnone (field : Script.Field) :
        (Tree.token role' kind line blank text).child? field = none := rfl
    unfold ownElements at h
    split at h
    case h_1 | h_2 | h_3 | h_8 | h_9 =>
      cases h
      rfl
    case h_4 => simp [classElement, fieldText, hnone, Except.map] at h
    case h_5 => simp [functionElement, fieldText, hnone, Except.map] at h
    case h_6 => simp [callElement, hnone, Except.map] at h
    case h_7 =>
      split at h
      · simp [attributeElement, hnone, Except.map] at h
      · cases h
        rfl

/-- Only constructs of some kinds give rise to elements. -/
theorem givesElements_of_ownElements (h : ownElements scope role node = .ok elements)
    {element : Element} (hmem : element ∈ elements) : node.kind.givesElements = true := by
  unfold ownElements at h
  split at h
  case h_9 =>
    cases h
    cases hmem
  all_goals
    rename_i hkind
    simp [hkind, Script.Kind.givesElements]

/-- A node that gives rise to elements is spelled by something, if it stands in a script. -/
theorem text_ne_nil_of_ownElements {script : List Char} {tree : Tree} (htree : tree.StandsIn script)
    (hnode : node ∈ tree.nodes) (h : ownElements scope role node = .ok elements) {element : Element}
    (hmem : element ∈ elements) : node.text ≠ [] := by
  refine htree.spelled node hnode (givesElements_of_ownElements h hmem) ?_
  cases htoken : node.isToken with
  | false => rfl
  | true => simp [elements_of_token h htoken] at hmem

/-- What a walk finds comes in line order if the nodes do. -/
theorem Findings.Of.pairwise_line {found : Findings} {places : List Place} (h : found.Of places)
    (hnodes : (places.map Place.node).Pairwise fun first second => first.line ≤ second.line) :
    (found.elements.map Element.line).Pairwise (· ≤ ·) := by
  obtain ⟨⟨parts, hparts, helements⟩, -⟩ := h
  rw [helements, List.pairwise_map]
  clear helements
  induction hparts with
  | nil => exact .nil
  | @cons place own places parts hown hrest ih =>
    obtain ⟨hfirst, hnodes⟩ := List.pairwise_cons.mp hnodes
    rw [List.flatten_cons]
    refine List.pairwise_append.mpr ⟨?_, ih hnodes, fun element hmem other hother => ?_⟩
    · refine List.pairwise_of_forall_mem_list fun element hmem other hother => ?_
      rw [hown.lines element hmem, hown.lines other hother]
    · obtain ⟨part, hpart, hother⟩ := List.mem_flatten.mp hother
      obtain ⟨later, hlater, hrise⟩ := exists_of_mem_right hrest hpart
      rw [hown.lines element hmem, hrise.lines other hother]
      exact hfirst later.node (List.mem_map_of_mem hlater)

/-- The elements of a tree that stands in a script come in line order. -/
theorem pairwise_line_of_extract {script : List Char} {tree : Tree} {found : Findings}
    (h : extract tree = .ok found) (htree : tree.StandsIn script) :
    (found.elements.map Element.line).Pairwise (· ≤ ·) := by
  refine (findings_of_visit h).pairwise_line ?_
  rw [map_node_places]
  exact Tree.inSourceOrder_iff.mp htree.toInSourceOrder

/-- The elements of a tree that stands in a script are on lines of the script. -/
theorem line_of_extract {script : List Char} {tree : Tree} {found : Findings}
    (h : extract tree = .ok found) (htree : tree.StandsIn script) {element : Element}
    (hmem : element ∈ found.elements) : 1 ≤ element.line ∧ element.line ≤ lineCount script := by
  obtain ⟨node, hnode, scope, role, own, hown, hmem⟩ := exists_node_of_mem_visit h hmem
  rw [(givesRise_of_ownElements hown).lines element hmem]
  exact htree.line_le hnode (text_ne_nil_of_ownElements htree hnode hown hmem)

end Extraction

namespace Analysis

open Script (Tree)

/-- Whether the elements come in line order, no element on an earlier line than one before it in the
list, and every element is on one of the lines that the script has. -/
structure InLineOrder (analysis : Analysis) : Prop where
  pairwise : (analysis.elements.map Element.line).Pairwise (· ≤ ·)
  line : ∀ element ∈ analysis.elements,
    1 ≤ element.line ∧ element.line ≤ analysis.metadata.totalLines

/-- What a syntax tree that stands in a script is analysed as is in line order. -/
theorem inLineOrder_ofTree {script : List Char} {tree : Tree} (htree : tree.StandsIn script)
    {metadata : Metadata} (hlines : metadata.totalLines = lineCount script) :
    (ofTree metadata tree).InLineOrder := by
  rw [ofTree]
  cases h : Extraction.extract tree with
  | error fault => exact ⟨.nil, by simp⟩
  | ok found =>
    refine ⟨Extraction.pairwise_line_of_extract h htree, fun element hmem => ?_⟩
    rw [show metadata.totalLines = lineCount script from hlines]
    exact Extraction.line_of_extract h htree hmem

/-- The elements of a script come in line order, on lines that the script has, whatever syntax tree
is read from it, as long as the nodes of the tree stand in the script in the order of the source. So
they do in the analysis of every script that can be read. -/
theorem elements_in_line_order (script path : String) :
    (∀ tree : Tree, tree.StandsIn script.toList →
      ∀ metadata : Metadata, metadata.totalLines = lineCount script.toList →
        (ofTree metadata tree).InLineOrder) ∧
      ∀ analysis, ofScript script path = .ok analysis → analysis.InLineOrder := by
  refine ⟨fun tree htree metadata hlines => inLineOrder_ofTree htree hlines, ?_⟩
  intro analysis h
  simp only [ofScript] at h
  split at h
  · rename_i tree htree
    cases h
    exact inLineOrder_ofTree (Script.standsIn_of_parse htree) rfl
  · cases h

/-- A script with an import, an empty line, and a function over two lines that makes a call. -/
def spacedSource : String := "import os\n\ndef here():\n    return os.getcwd()\n"

/-- The three elements of the script are on three of its four lines, in order, whether the script is
analysed or its syntax tree with any other metadata that tell its lines. -/
theorem elements_in_line_order_spacedSource :
    ∃ tree analysis, Script.parse spacedSource.toList = .ok tree ∧
      ofScript spacedSource "here.py" = .ok analysis ∧
      analysis.elements.map Element.line = [1, 3, 4] ∧ analysis.metadata.totalLines = 4 ∧
      tree.StandsIn spacedSource.toList ∧ (ofTree ⟨"", 4, 0, "", none⟩ tree).InLineOrder ∧
      analysis.InLineOrder := by
  have hread : (ofScript spacedSource "here.py").toOption.map (fun analysis =>
      (analysis.elements.map Element.line, analysis.metadata.totalLines)) =
        some ([1, 3, 4], 4) := by decide +kernel
  obtain ⟨htrees, hscripts⟩ := elements_in_line_order spacedSource "here.py"
  cases hanalysis : ofScript spacedSource "here.py" with
  | error fault => simp [hanalysis, Except.toOption] at hread
  | ok analysis =>
    obtain ⟨hlines, htotal⟩ : analysis.elements.map Element.line = [1, 3, 4] ∧
        analysis.metadata.totalLines = 4 := by simpa [hanalysis, Except.toOption] using hread
    cases htree : Script.parse spacedSource.toList with
    | error stuck => simp [ofScript, htree] at hanalysis
    | ok tree =>
      have hstands := Script.standsIn_of_parse htree
      exact ⟨tree, analysis, rfl, rfl, hlines, htotal, hstands,
        htrees tree hstands _ (by decide), hscripts analysis hanalysis⟩

end Analysis

end UsageAudit

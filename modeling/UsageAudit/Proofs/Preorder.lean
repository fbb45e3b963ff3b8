import UsageAudit.Proofs.Rows
import UsageAudit.Proofs.Walk

/-!
# The nodes of a tree in order

A walk visits every node of a tree once, each before its parts. This file lists the nodes in that
order and says what a walk finds at each of them, so that the elements of a script can be told off
against the nodes of its tree: none is lost, none is counted twice, and they come in the order of
the nodes.
-/

namespace UsageAudit

namespace Script

mutual

/-- The nodes of a tree, each before its parts. -/
def Tree.nodes : Tree → List Tree
  | .token field kind line blank text => [.token field kind line blank text]
  | .branch field kind line children => .branch field kind line children :: nodesOf children

/-- The nodes of a row of trees. -/
def nodesOf : List Tree → List Tree
  | [] => []
  | tree :: rest => tree.nodes ++ nodesOf rest

end

/-- A node is in a row of trees if it is in one of them. -/
theorem mem_nodesOf {node : Tree} {row : List Tree} :
    node ∈ nodesOf row ↔ ∃ tree ∈ row, node ∈ tree.nodes := by
  induction row with
  | nil => simp [nodesOf]
  | cons tree rest ih => simp [nodesOf, ih]

/-- A node in a part of a tree is in the tree. -/
theorem Tree.mem_nodes_trans {tree node part : Tree} (hnode : node ∈ tree.nodes)
    (hpart : part ∈ node.nodes) : part ∈ tree.nodes := by
  induction tree using Tree.parts_induction with
  | token field kind line blank text =>
    obtain rfl : node = .token field kind line blank text := by simpa [Tree.nodes] using hnode
    exact hpart
  | branch field kind line children ih =>
    simp only [Tree.nodes, List.mem_cons, mem_nodesOf] at hnode
    rcases hnode with rfl | ⟨child, hchild, hnode⟩
    · exact hpart
    · simp only [Tree.nodes, List.mem_cons, mem_nodesOf]
      exact .inr ⟨child, hchild, ih child hchild hnode⟩

/-- A tree is one of its own nodes. -/
theorem Tree.self_mem_nodes (tree : Tree) : tree ∈ tree.nodes := by
  cases tree <;> simp [Tree.nodes]

/-- The parts of a tree are among its nodes. -/
theorem Tree.mem_nodes_of_mem_children {tree part : Tree} (h : part ∈ tree.children) :
    part ∈ tree.nodes := by
  cases tree with
  | token => simp [Tree.children] at h
  | branch field kind line children =>
    simp only [Tree.nodes, List.mem_cons, mem_nodesOf]
    exact .inr ⟨part, h, part.self_mem_nodes⟩

/-- The part in a role is one of the parts, and plays the role. -/
theorem Tree.of_child? {tree part : Tree} {field : Field} (h : tree.child? field = some part) :
    part ∈ tree.children ∧ part.field = some field :=
  ⟨List.mem_of_find?_eq_some h, by simpa using List.find?_some h⟩

end Script

namespace Extraction

open Script (Tree Kind Field nodesOf)

/-- A node, and how the node above uses it. -/
structure Place where
  role : Role
  node : Tree

mutual

/-- The nodes of a tree, each before its parts, with how the node above uses them. -/
def places (role : Role) : Tree → List Place
  | .token field kind line blank text => [⟨role, .token field kind line blank text⟩]
  | .branch field kind line children =>
    ⟨role, .branch field kind line children⟩ :: placesOf (kind == .call) children

/-- The nodes of a row of trees. `ofCall` says whether the row is what a call is made of, so that
the first part in the role of a function is its callee. -/
def placesOf (ofCall : Bool) : List Tree → List Place
  | [] => []
  | tree :: rest =>
    if ofCall && tree.field == some .function then places .callee tree ++ placesOf false rest
    else places .plain tree ++ placesOf ofCall rest

end

/-- The places of a tree are those of its nodes, in the same order. -/
theorem map_node_places (role : Role) (tree : Tree) :
    (places role tree).map Place.node = tree.nodes := by
  induction tree using Tree.parts_induction generalizing role with
  | token field kind line blank text => rfl
  | branch field kind line children ih =>
    have hrow : ∀ (trees : List Tree) (ofCall : Bool), (∀ part ∈ trees, part ∈ children) →
        (placesOf ofCall trees).map Place.node = nodesOf trees := by
      intro trees
      induction trees with
      | nil => intro _ _; rfl
      | cons part rest ihrest =>
        intro ofCall hmem
        have hpart := ih part (hmem part (by simp))
        have hrest := fun ofCall => ihrest ofCall fun other hother =>
          hmem other (List.mem_cons_of_mem _ hother)
        simp only [placesOf, nodesOf]
        split <;> simp [hpart, hrest]
    simp [places, Tree.nodes, hrow children _ fun _ hmem => hmem]

/-- Whether the node is a call of a member of something. -/
def callsMember (node : Tree) : Bool :=
  node.kind == .call && (node.child? .function).any fun callee => callee.kind == .member

/-- Whether the node is a call of anything else. -/
def callsOther (node : Tree) : Bool :=
  node.kind == .call && !(node.child? .function).any fun callee => callee.kind == .member

/-- Whether the node is a member that is not called. -/
def Place.isAccess (place : Place) : Bool :=
  place.node.kind == .member && place.role == .plain

/-- Whether the node assigns something to a plain name. -/
def assignsName (node : Tree) : Bool :=
  node.kind == .assignment && (node.child? .left).any (fun left => left.kind == .identifier) &&
    (node.child? .right).isSome

/-- Only an assignment assigns something to a name. -/
theorem assignsName_eq_false {node : Tree} (h : node.kind ≠ .assignment) :
    assignsName node = false := by
  simp [assignsName, h]

/-- The names that a statement imports. -/
def importedNames (node : Tree) : List Tree :=
  match node.kind with
  | .importStatement | .importFrom | .futureImport => partsAt node .name
  | _ => []

/-- The parts of a statement that stand for all names of a module. -/
def wildcards (node : Tree) : List Tree :=
  match node.kind with
  | .importFrom | .futureImport => node.children.filter fun child => child.kind == .wildcardImport
  | _ => []

/-- Whether a statement imports all names of a module. -/
def importsAll (node : Tree) : Bool := !(wildcards node).isEmpty

/-- The number of imports that a statement makes: one for each name, and one more if it imports all
names. -/
def importCount (node : Tree) : Nat := (importedNames node).length + (importsAll node).toNat

/-- What a node gives rise to, by the kinds of its elements. -/
def Place.kinds (place : Place) : List ElementKind :=
  match place.node.kind with
  | .importStatement | .importFrom | .futureImport =>
    List.replicate (importCount place.node) .ofImport
  | .classDefinition => [.classDef]
  | .functionDefinition => [.functionDef]
  | .call => [if callsMember place.node then .methodCall else .functionCall]
  | .member => if place.role = .plain then [.attributeAccess] else []
  | .assignment => if assignsName place.node then [.variableAssign] else []
  | _ => []

/-- Whether the elements are what the walk makes of a node: as many of each kind as the node gives
rise to, on the line of the node. -/
structure Place.GivesRise (place : Place) (elements : List Element) : Prop where
  own : ∃ scope, ownElements scope place.role place.node = .ok elements
  kinds : elements.map Element.kind = place.kinds
  lines : ∀ element ∈ elements, element.line = place.node.line

/-- What a step gives for each member of a list is given by the step for that member. -/
theorem forall₂_of_mapM {α β : Type} {step : α → Except Fault β} {members : List α}
    {values : List β} (h : members.mapM step = .ok values) :
    List.Forall₂ (fun member value => step member = .ok value) members values := by
  induction members generalizing values with
  | nil =>
    cases h
    exact .nil
  | cons member rest ih =>
    simp only [List.mapM_cons, bind_eq_ok_iff] at h
    obtain ⟨value, hvalue, others, hothers, ⟨⟩⟩ := h
    exact .cons hvalue (ih hothers)

/-- Elements that all are imports on one line, as many as a number says. -/
theorem imports_of_forall₂ {parts : List Tree} {elements : List Element} {line : Nat}
    (h : List.Forall₂ (fun _ element => ∃ e : Import, element = .ofImport e ∧ e.line = line)
      parts elements) :
    elements.map Element.kind = List.replicate parts.length .ofImport ∧
      ∀ element ∈ elements, element.line = line := by
  induction h with
  | nil => simp
  | cons hfirst _ ih =>
    obtain ⟨e, rfl, hline⟩ := hfirst
    refine ⟨by simp [ih.1, List.replicate_succ, Element.kind], ?_⟩
    intro element hmem
    rcases List.mem_cons.mp hmem with rfl | hmem
    · exact hline
    · exact ih.2 element hmem

/-- A statement that imports modules gives rise to one import for each name. -/
theorem imports_of_moduleImports {node : Tree} {elements : List Element}
    (hkind : node.kind = .importStatement) (h : moduleImports node = .ok elements) :
    elements.map Element.kind = List.replicate (importCount node) .ofImport ∧
      ∀ element ∈ elements, element.line = node.line := by
  have hcount : importCount node = (partsAt node .name).length := by
    simp [importCount, importsAll, importedNames, wildcards, hkind]
  rw [hcount]
  refine imports_of_forall₂ ((forall₂_of_mapM h).imp ?_)
  intro part element hstep
  simp only [bind_eq_ok_iff] at hstep
  obtain ⟨⟨path, nickname⟩, _, ⟨⟩⟩ := hstep
  exact ⟨_, rfl, rfl⟩

/-- A statement that imports names gives rise to one import for each name, and to one more if it
imports all names. -/
theorem imports_of_nameImports {node : Tree} {elements : List Element}
    (hkind : node.kind = .importFrom ∨ node.kind = .futureImport)
    (h : nameImports node = .ok elements) :
    elements.map Element.kind = List.replicate (importCount node) .ofImport ∧
      ∀ element ∈ elements, element.line = node.line := by
  simp only [nameImports, bind_eq_ok_iff] at h
  obtain ⟨named, hnamed, hrest⟩ := h
  have himports : named.map Element.kind =
      List.replicate (partsAt node .name).length .ofImport ∧
        ∀ element ∈ named, element.line = node.line := by
    refine imports_of_forall₂ ((forall₂_of_mapM hnamed).imp ?_)
    intro part element hstep
    simp only [bind_eq_ok_iff] at hstep
    obtain ⟨⟨name, nickname⟩, _, ⟨⟩⟩ := hstep
    exact ⟨_, rfl, rfl⟩
  have hnames : importedNames node = partsAt node .name := by
    rcases hkind with hkind | hkind <;> simp [importedNames, hkind]
  have hwildcards : wildcards node =
      node.children.filter fun child => child.kind == .wildcardImport := by
    rcases hkind with hkind | hkind <;> simp [wildcards, hkind]
  cases hrest
  cases hall : node.children.any fun child => child.kind == .wildcardImport with
  | false =>
    have hnone : wildcards node = [] := by
      simpa [hwildcards, List.filter_eq_nil_iff] using hall
    simpa [importCount, importsAll, hnames, hnone] using himports
  | true =>
    have hsome : 0 < (wildcards node).length := by
      obtain ⟨child, hchild, hkind⟩ := List.any_eq_true.mp hall
      exact List.length_pos_of_mem (hwildcards ▸ List.mem_filter.mpr ⟨hchild, hkind⟩)
    have hcount : importCount node = (partsAt node .name).length + 1 := by
      have hall : importsAll node = true := by simpa [importsAll] using List.length_pos_iff.mp hsome
      simp [importCount, hnames, hall]
    refine ⟨by simp [hcount, himports.1, List.replicate_succ', Element.kind], ?_⟩
    intro element hmem
    rcases List.mem_append.mp hmem with hmem | hmem
    · exact himports.2 element hmem
    · obtain rfl := List.mem_singleton.mp hmem
      rfl

/-- The definition of a class gives rise to a class. -/
theorem class_of_classElement {node : Tree} {element : Element}
    (h : classElement node = .ok element) :
    element.kind = .classDef ∧ element.line = node.line := by
  simp only [classElement, bind_eq_ok_iff] at h
  obtain ⟨name, _, bases, _, methods, _, ⟨⟩⟩ := h
  exact ⟨rfl, rfl⟩

/-- The definition of a function gives rise to a function. -/
theorem function_of_functionElement {scope : Scope} {node : Tree} {element : Element}
    (h : functionElement scope node = .ok element) :
    element.kind = .functionDef ∧ element.line = node.line := by
  simp only [functionElement, bind_eq_ok_iff] at h
  obtain ⟨name, _, args, _, ⟨⟩⟩ := h
  exact ⟨rfl, rfl⟩

/-- A call of a member gives rise to a call of a method, any other to a call of a function. -/
theorem call_of_callElement {node : Tree} {element : Element} (hkind : node.kind = .call)
    (h : callElement node = .ok element) :
    element.kind = (if callsMember node then .methodCall else .functionCall) ∧
      element.line = node.line := by
  cases hcallee : node.child? .function with
  | none => simp [callElement, hcallee] at h
  | some callee =>
    simp only [callElement, hcallee, bind_eq_ok_iff] at h
    obtain ⟨⟨arguments, argCount, keywordCount⟩, _, h⟩ := h
    split at h
    · rename_i hmember
      have hcalls : callsMember node = true := by simp [callsMember, hkind, hcallee, hmember]
      split at h
      · cases h
      · simp only [bind_eq_ok_iff] at h
        obtain ⟨object, _, method, _, ⟨⟩⟩ := h
        simp [hcalls, Element.kind, Element.line]
    · rename_i hother
      have hcalls : callsMember node = false := by simp [callsMember, hcallee, hother]
      simp only [bind_eq_ok_iff] at h
      obtain ⟨name, _, ⟨⟩⟩ := h
      simp [hcalls, Element.kind, Element.line]

/-- A member gives rise to an access. -/
theorem access_of_attributeElement {node : Tree} {element : Element}
    (h : attributeElement node = .ok element) :
    element.kind = .attributeAccess ∧ element.line = node.line := by
  simp only [attributeElement] at h
  split at h
  · cases h
  · simp only [bind_eq_ok_iff] at h
    obtain ⟨object, _, member, _, ⟨⟩⟩ := h
    exact ⟨rfl, rfl⟩

/-- An assignment gives rise to one if it assigns something to a plain name. -/
theorem assignment_of_assignmentElements {node : Tree} {elements : List Element}
    (hkind : node.kind = .assignment) (h : assignmentElements node = .ok elements) :
    elements.map Element.kind = (if assignsName node then [.variableAssign] else []) ∧
      ∀ element ∈ elements, element.line = node.line := by
  simp only [assignmentElements] at h
  split at h
  · rename_i left right hleft hright
    split at h
    · rename_i hname
      simp only [bind_eq_ok_iff] at h
      obtain ⟨callee, _, ⟨⟩⟩ := h
      simp [assignsName, hkind, hleft, hright, hname, Element.kind, Element.line]
    · rename_i hother
      cases h
      simp [assignsName, hleft, hother]
  · rename_i hmissing
    cases h
    have hnot : assignsName node = false := by
      cases hleft : node.child? .left with
      | none => simp [assignsName, hleft]
      | some left =>
        cases hright : node.child? .right with
        | none => simp [assignsName, hright]
        | some right => exact absurd hright (hmissing left right hleft)
    simp [hnot]

/-- A single element of the right kind on the right line. -/
theorem kinds_of_map_singleton {step : Except Fault Element} {elements : List Element}
    {kind : ElementKind} {line : Nat}
    (hstep : ∀ element, step = .ok element → element.kind = kind ∧ element.line = line)
    (h : (step.map fun e => [e]) = .ok elements) :
    elements.map Element.kind = [kind] ∧ ∀ element ∈ elements, element.line = line := by
  cases step with
  | error fault => cases h
  | ok element =>
    cases h
    simpa using hstep element rfl

/-- What a walk makes of a node are the elements that the node gives rise to. -/
theorem givesRise_of_ownElements {scope : Scope} {role : Role} {node : Tree}
    {elements : List Element} (h : ownElements scope role node = .ok elements) :
    Place.GivesRise ⟨role, node⟩ elements := by
  have hboth : elements.map Element.kind = Place.kinds ⟨role, node⟩ ∧
      ∀ element ∈ elements, element.line = node.line := by
    have hown := h
    unfold ownElements at hown
    split at hown
    · rename_i hkind
      simpa only [Place.kinds, hkind] using imports_of_moduleImports hkind hown
    · rename_i hkind
      simpa only [Place.kinds, hkind] using imports_of_nameImports (.inl hkind) hown
    · rename_i hkind
      simpa only [Place.kinds, hkind] using imports_of_nameImports (.inr hkind) hown
    · rename_i hkind
      simpa only [Place.kinds, hkind] using
        kinds_of_map_singleton (fun _ => class_of_classElement) hown
    · rename_i hkind
      simpa only [Place.kinds, hkind] using
        kinds_of_map_singleton (fun _ => function_of_functionElement) hown
    · rename_i hkind
      simpa only [Place.kinds, hkind] using
        kinds_of_map_singleton (fun _ => call_of_callElement hkind) hown
    · rename_i hkind
      split at hown
      · rename_i hplain
        simpa only [Place.kinds, hkind, if_pos hplain] using
          kinds_of_map_singleton (fun _ => access_of_attributeElement) hown
      · rename_i hcalled
        cases hown
        simp [Place.kinds, hkind, hcalled]
    · rename_i hkind
      simpa only [Place.kinds, hkind] using assignment_of_assignmentElements hkind hown
    · cases hown
      simp [Place.kinds]
  exact ⟨⟨scope, h⟩, hboth.1, hboth.2⟩

/-- Whether a walk has found, place by place, what the nodes at the places give rise to, and has
counted those of them that are constructs. -/
structure Findings.Of (found : Findings) (places : List Place) : Prop where
  parts : ∃ parts, List.Forall₂ Place.GivesRise places parts ∧ found.elements = parts.flatten
  nodes : found.nodes = places.countP fun place => place.node.isNamed

/-- Nothing is found where there are no nodes. -/
theorem Findings.Of.nil : Findings.Of ⟨[], 0⟩ [] := ⟨⟨[], .nil, rfl⟩, rfl⟩

/-- What is found in a node itself comes before what is found in its parts. -/
theorem Findings.Of.cons {place : Place} {own : List Element} {found : Findings}
    {places : List Place} (hown : place.GivesRise own) (hfound : found.Of places) :
    Findings.Of ⟨own ++ found.elements, place.node.isNamed.toNat + found.nodes⟩
      (place :: places) := by
  obtain ⟨⟨parts, hparts, helements⟩, hnodes⟩ := hfound
  refine ⟨⟨own :: parts, .cons hown hparts, by simp [helements]⟩, ?_⟩
  cases hnamed : place.node.isNamed <;> simp [hnamed, hnodes, Nat.add_comm]

/-- What is found in one place after the other. -/
theorem Findings.Of.append {found more : Findings} {places others : List Place}
    (hfound : found.Of places) (hmore : more.Of others) :
    Findings.Of ⟨found.elements ++ more.elements, found.nodes + more.nodes⟩
      (places ++ others) := by
  obtain ⟨⟨parts, hparts, helements⟩, hnodes⟩ := hfound
  obtain ⟨⟨rest, hrest, helements'⟩, hnodes'⟩ := hmore
  refine ⟨⟨parts ++ rest, List.rel_append hparts hrest, ?_⟩, ?_⟩
  · simp [helements, helements']
  · simp [hnodes, hnodes']

/-- The part of a row that is visited in a way of its own is a callee just in the row of a call. -/
inductive Inside.Marks : Option Inside → Bool → Prop where
  | none : Marks .none false
  | body (part : Inside) (plain : part.role = .plain) : Marks (some part) false
  | callee (scope : Scope) : Marks (some ⟨.function, scope, .callee⟩) true

/-- The callee is marked in the row of a call, and in no other. -/
theorem Inside.marks_inside? (scope : Scope) (tree : Tree) :
    Inside.Marks (inside? scope tree) (tree.kind == .call) := by
  unfold inside?
  dsimp only
  split
  · rename_i hkind
    rw [hkind]
    exact .body _ rfl
  · rename_i hkind
    rw [hkind]
    exact .body _ rfl
  · rename_i hkind
    rw [hkind]
    exact .callee scope
  · rename_i hcall
    rw [beq_eq_false_iff_ne.mpr hcall]
    exact .none

/-- A walk over a row finds what the nodes in the row give rise to, if the walks over its members
do. -/
theorem findings_of_visitAll {scope : Scope} {inside : Option Inside} {ofCall : Bool}
    (hmarks : Inside.Marks inside ofCall) {trees : List Tree}
    (htrees : ∀ tree ∈ trees, ∀ scope role found, visit scope role tree = .ok found →
      found.Of (places role tree))
    {found : Findings} (h : visitAll scope inside trees = .ok found) :
    found.Of (placesOf ofCall trees) := by
  induction trees generalizing inside ofCall found with
  | nil =>
    cases h
    exact .nil
  | cons tree rest ih =>
    have htree := htrees tree List.mem_cons_self
    have hrest := fun other hother => htrees other (List.mem_cons_of_mem tree hother)
    cases hmarks with
    | none =>
      simp only [visitAll, bind_eq_ok_iff] at h
      obtain ⟨first, hfirst, more, hmore, ⟨⟩⟩ := h
      exact (htree _ _ _ hfirst).append (ih .none hrest hmore)
    | body part hplain =>
      simp only [visitAll, hplain] at h
      split at h <;> simp only [bind_eq_ok_iff] at h <;>
        obtain ⟨first, hfirst, more, hmore, ⟨⟩⟩ := h
      · exact (htree _ _ _ hfirst).append (ih .none hrest hmore)
      · exact (htree _ _ _ hfirst).append (ih (.body part hplain) hrest hmore)
    | callee scope' =>
      simp only [visitAll] at h
      split at h
      · rename_i hfunction
        simp only [bind_eq_ok_iff] at h
        obtain ⟨first, hfirst, more, hmore, ⟨⟩⟩ := h
        simpa [placesOf, hfunction] using
          (htree _ _ _ hfirst).append (ih .none hrest hmore)
      · rename_i hother
        simp only [bind_eq_ok_iff] at h
        obtain ⟨first, hfirst, more, hmore, ⟨⟩⟩ := h
        simpa [placesOf, hother] using
          (htree _ _ _ hfirst).append (ih (.callee scope') hrest hmore)

/-- A walk over a tree finds what its nodes give rise to. -/
theorem findings_of_visit {scope : Scope} {role : Role} {tree : Tree} {found : Findings}
    (h : visit scope role tree = .ok found) : found.Of (places role tree) := by
  induction tree using Tree.parts_induction generalizing scope role found with
  | token field kind line blank text =>
    simp only [visit, bind_eq_ok_iff] at h
    obtain ⟨own, hown, ⟨⟩⟩ := h
    have hfound := Findings.Of.cons (givesRise_of_ownElements hown) .nil
    simpa [places, Tree.isNamed, Tree.kind] using hfound
  | branch field kind line children ih =>
    simp only [visit, bind_eq_ok_iff] at h
    obtain ⟨own, hown, more, hmore, ⟨⟩⟩ := h
    have hparts := findings_of_visitAll (Inside.marks_inside? scope _)
      (fun part hpart _ _ _ => ih part hpart) hmore
    exact Findings.Of.cons (givesRise_of_ownElements hown) hparts

/-- What a walk has found was found in a node of the tree. -/
theorem exists_node_of_mem_visit {tree : Tree} {scope : Scope} {role : Role} {found : Findings}
    (h : visit scope role tree = .ok found) {element : Element} (hmem : element ∈ found.elements) :
    ∃ node ∈ tree.nodes, ∃ scope role elements,
      ownElements scope role node = .ok elements ∧ element ∈ elements := by
  obtain ⟨⟨parts, hparts, helements⟩, -⟩ := findings_of_visit h
  rw [helements, List.mem_flatten] at hmem
  obtain ⟨part, hpart, hmem⟩ := hmem
  obtain ⟨place, hplace, hrise⟩ := exists_of_mem_right hparts hpart
  obtain ⟨scope', hown⟩ := hrise.own
  refine ⟨place.node, ?_, scope', place.role, part, hown, hmem⟩
  rw [← map_node_places role tree]
  exact List.mem_map_of_mem hplace

/-- How many elements of a kind a node gives rise to. -/
def Place.yield (place : Place) : ElementKind → Nat
  | .ofImport => importCount place.node
  | .classDef => (place.node.kind == .classDefinition).toNat
  | .functionDef => (place.node.kind == .functionDefinition).toNat
  | .methodCall => (callsMember place.node).toNat
  | .functionCall => (callsOther place.node).toNat
  | .attributeAccess => place.isAccess.toNat
  | .variableAssign => (assignsName place.node).toNat

/-- The elements of a node, kind by kind. -/
theorem Place.count_kinds (place : Place) (kind : ElementKind) :
    place.kinds.count kind = place.yield kind := by
  obtain ⟨role, node⟩ := place
  unfold Place.kinds
  dsimp only
  split <;> (try split) <;> cases kind <;>
    simp_all [Place.yield, Place.isAccess, callsMember, callsOther, assignsName_eq_false,
      importCount, importsAll, importedNames, wildcards, List.count_replicate, beq_eq_decide]

/-- The number of elements of a kind. -/
def countOf (kind : ElementKind) (elements : List Element) : Nat :=
  elements.countP fun element => element.kind == kind

/-- The elements that a walk finds are of the kinds that the nodes give rise to, node by node. -/
theorem Findings.Of.map_kind {found : Findings} {places : List Place} (h : found.Of places) :
    found.elements.map Element.kind = places.flatMap Place.kinds := by
  obtain ⟨⟨parts, hparts, helements⟩, -⟩ := h
  rw [helements]
  clear helements
  induction hparts with
  | nil => rfl
  | cons hfirst _ ih =>
    rw [List.flatten_cons, List.map_append, List.flatMap_cons, hfirst.kinds, ih]

/-- A walk finds as many elements of a kind as the nodes give rise to. -/
theorem Findings.Of.countOf_eq {found : Findings} {places : List Place} (h : found.Of places)
    (kind : ElementKind) :
    countOf kind found.elements = (places.flatMap Place.kinds).count kind := by
  rw [← h.map_kind, List.count, List.countP_map]
  rfl

/-- Where a node gives rise to at most one element of a kind, the elements of the kind are counted
by the nodes that do. -/
theorem Findings.Of.countOf_eq_countP {found : Findings} {places : List Place}
    (h : found.Of places) {kind : ElementKind} {test : Place → Bool}
    (htest : ∀ place, place.yield kind = (test place).toNat) :
    countOf kind found.elements = places.countP test := by
  rw [h.countOf_eq kind]
  clear h
  induction places with
  | nil => rfl
  | cons place rest ih =>
    rw [List.flatMap_cons, List.count_append, Place.count_kinds, htest, ih]
    cases hplace : test place <;> simp [hplace, Nat.add_comm]

/-- A test of nodes counts the places of the nodes that pass it. -/
theorem countP_places (test : Tree → Bool) (role : Role) (tree : Tree) :
    ((places role tree).countP fun place => test place.node) = tree.nodes.countP test := by
  rw [← map_node_places role tree, List.countP_map]
  rfl

/-- Whether the node is a member that is called. -/
def Place.isCallee (place : Place) : Bool :=
  place.node.kind == .member && place.role == .callee

/-- A part in a role of its own is not called. -/
@[simp]
theorem Place.isCallee_plain (node : Tree) : Place.isCallee ⟨.plain, node⟩ = false := by
  simp [isCallee]

/-- A member in the role of a callee is called. -/
@[simp]
theorem Place.isCallee_callee (node : Tree) :
    Place.isCallee ⟨.callee, node⟩ = (node.kind == .member) := by
  simp [isCallee]

/-- The members that are called are told off against the calls of members. -/
theorem countP_isCallee (role : Role) (tree : Tree) :
    (places role tree).countP Place.isCallee =
      (Place.isCallee ⟨role, tree⟩).toNat + tree.nodes.countP callsMember := by
  induction tree using Tree.parts_induction generalizing role with
  | token field kind line blank text =>
    have hnone : callsMember (.token field kind line blank text) = false := by
      simp [callsMember, Tree.child?, Tree.children]
    cases hcallee : Place.isCallee ⟨role, .token field kind line blank text⟩ <;>
      simp [places, Tree.nodes, hcallee, hnone]
  | branch field kind line children ih =>
    have hrow : ∀ (trees : List Tree) (ofCall : Bool), (∀ part ∈ trees, part ∈ children) →
        (placesOf ofCall trees).countP Place.isCallee =
          (ofCall && (trees.find? fun part => part.field == some .function).any
            fun callee => callee.kind == .member).toNat + (nodesOf trees).countP callsMember := by
      intro trees
      induction trees with
      | nil => intro ofCall _; simp [placesOf, nodesOf]
      | cons part rest ihrest =>
        intro ofCall hmem
        have hpart := fun role => ih part (hmem part (by simp)) role
        have hrest := fun ofCall => ihrest ofCall fun other hother =>
          hmem other (List.mem_cons_of_mem _ hother)
        simp only [placesOf, nodesOf]
        split
        · rename_i hcallee
          simp only [Bool.and_eq_true] at hcallee
          simp [hpart, hrest, hcallee, Nat.add_assoc]
        · rename_i hother
          have hfind : ofCall = true → part.field ≠ some .function := by simpa using hother
          cases ofCall with
          | false => simp [hpart, hrest]
          | true => simp [hpart, hrest, hfind, Nat.add_left_comm]
    have hchildren := hrow children (kind == .call) fun _ hmem => hmem
    have hnode : callsMember (.branch field kind line children) =
        (kind == .call && (children.find? fun part => part.field == some .function).any
          fun callee => callee.kind == .member) := rfl
    rw [← hnode] at hchildren
    cases hcallee : Place.isCallee ⟨role, .branch field kind line children⟩ <;>
      cases hcalls : callsMember (.branch field kind line children) <;>
      simp [places, Tree.nodes, hchildren, hcallee, hcalls, Nat.add_comm]

/-- A member is called or it is an access. -/
theorem countP_isAccess (tree : Tree) :
    (places .plain tree).countP Place.isAccess + tree.nodes.countP callsMember =
      tree.nodes.countP fun node => node.kind == .member := by
  have hcallees : (places .plain tree).countP Place.isCallee = tree.nodes.countP callsMember := by
    simpa using countP_isCallee .plain tree
  rw [← hcallees, ← countP_places _ .plain]
  induction places .plain tree with
  | nil => rfl
  | cons place rest ih =>
    obtain ⟨role, node⟩ := place
    cases role <;> cases hmember : node.kind == .member <;>
      simp [Place.isAccess, hmember] <;> omega

/-- The imports of a walk are told off against names and statements that import all names. -/
theorem Findings.Of.countOf_ofImport {found : Findings} {tree : Tree}
    (h : found.Of (places .plain tree)) :
    countOf .ofImport found.elements =
      (tree.nodes.flatMap importedNames).length + tree.nodes.countP importsAll := by
  rw [h.countOf_eq, ← map_node_places .plain tree]
  clear h
  induction places .plain tree with
  | nil => rfl
  | cons place rest ih =>
    simp only [List.map_cons, List.flatMap_cons, List.count_append, Place.count_kinds,
      List.length_append, List.countP_cons, ih]
    cases hall : importsAll place.node <;> simp [Place.yield, importCount, hall] <;> omega

/-- Where no statement imports all names more than once, the parts that stand for all names are as
many as the statements with such a part. -/
theorem length_wildcards {nodes : List Tree} (h : ∀ node ∈ nodes, (wildcards node).length ≤ 1) :
    (nodes.flatMap wildcards).length = nodes.countP importsAll := by
  induction nodes with
  | nil => rfl
  | cons node rest ih =>
    have hrest := ih fun other hother => h other (List.mem_cons_of_mem _ hother)
    have hnode := h node List.mem_cons_self
    cases hwildcards : wildcards node with
    | nil => simpa [importsAll, hwildcards] using hrest
    | cons part others =>
      have hothers : others = [] := by simpa [hwildcards] using hnode
      simp [importsAll, hwildcards, hothers, ← hrest, Nat.add_comm]

/-- A walk that meets no fault comes to every node once. The elements that it finds are, node by
node and each node before its parts, what the nodes give rise to, so that they can be told off
against the nodes of every kind; and it counts the constructs. An import of all names of a module is
written with a single part, and where that is so the imports are as many as the names and such
parts. -/
theorem each_node_once {tree : Tree} {found : Findings} (h : extract tree = .ok found) :
    ((places .plain tree).map Place.node = tree.nodes ∧
      ∃ parts, List.Forall₂ Place.GivesRise (places .plain tree) parts ∧
        found.elements = parts.flatten) ∧
    found.nodes = tree.nodes.countP Tree.isNamed ∧
    countOf .methodCall found.elements = tree.nodes.countP callsMember ∧
    countOf .functionCall found.elements = tree.nodes.countP callsOther ∧
    (countOf .attributeAccess found.elements = (places .plain tree).countP Place.isAccess ∧
      countOf .attributeAccess found.elements + tree.nodes.countP callsMember =
        tree.nodes.countP fun node => node.kind == .member) ∧
    countOf .classDef found.elements =
      (tree.nodes.countP fun node => node.kind == .classDefinition) ∧
    countOf .functionDef found.elements =
      (tree.nodes.countP fun node => node.kind == .functionDefinition) ∧
    countOf .variableAssign found.elements = tree.nodes.countP assignsName ∧
    countOf .ofImport found.elements =
      (tree.nodes.flatMap importedNames).length + tree.nodes.countP importsAll ∧
    ((∀ node ∈ tree.nodes, (wildcards node).length ≤ 1) →
      countOf .ofImport found.elements =
        (tree.nodes.flatMap importedNames).length + (tree.nodes.flatMap wildcards).length) := by
  have hfound : found.Of (places .plain tree) := findings_of_visit h
  have haccess : countOf .attributeAccess found.elements =
      (places .plain tree).countP Place.isAccess := hfound.countOf_eq_countP fun _ => rfl
  have hnodes : ∀ {kind : ElementKind} (test : Tree → Bool),
      (∀ place : Place, place.yield kind = (test place.node).toNat) →
        countOf kind found.elements = tree.nodes.countP test := by
    intro kind test htest
    rw [← countP_places test .plain tree]
    exact hfound.countOf_eq_countP htest
  have hplaces := map_node_places .plain tree
  refine ⟨⟨hplaces, hfound.parts⟩, ?_, ?_, ?_, ⟨haccess, ?_⟩, ?_, ?_, ?_, ?_, ?_⟩
  · rw [hfound.nodes, countP_places Tree.isNamed]
  · exact hnodes callsMember fun _ => rfl
  · exact hnodes callsOther fun _ => rfl
  · rw [haccess, countP_isAccess]
  · exact hnodes (fun node => node.kind == .classDefinition) fun _ => rfl
  · exact hnodes (fun node => node.kind == .functionDefinition) fun _ => rfl
  · exact hnodes assignsName fun _ => rfl
  · exact hfound.countOf_ofImport
  · intro hsingle
    rw [hfound.countOf_ofImport, length_wildcards hsingle]

/-- The tree of `from os import *`. -/
def importAllTree : Tree :=
  .branch none .script 1 [
    .branch none .importFrom 1 [
      .token none .sign 1 [] "from".toList,
      .branch (some .moduleName) .dottedName 1 [.token none .identifier 1 [' '] "os".toList],
      .token none .sign 1 [' '] "import".toList,
      .branch none .wildcardImport 1 [.token none .sign 1 [' '] ['*']]]]

/-- The walk over a statement that imports all names of a module finds the one import. -/
theorem each_node_once_importAllTree :
    ∃ found, extract importAllTree = .ok found ∧ countOf .ofImport found.elements = 1 ∧
      found.nodes = 5 := by
  have hextract : extract importAllTree = .ok ⟨[.ofImport ⟨"os", some "*", none, 1⟩], 5⟩ := rfl
  obtain ⟨-, hnodes, -, -, -, -, -, -, -, himports⟩ := each_node_once hextract
  refine ⟨_, hextract, ?_, ?_⟩
  · rw [himports (by decide)]
    decide
  · rw [hnodes]
    decide

end Extraction

end UsageAudit

import UsageAudit.Proofs.StatementShape

/-!
# The owners of methods

A function is a method if the innermost definition whose body holds it is that of a class. What
holds what can be read off the way down a tree: this file lists the nodes of a tree with the ways to
them, and shows that the scopes a walk keeps are the definitions on the way whose bodies it goes
into. So the functions of a script are told off against the nodes that define them, each with the
dotted path of all definitions around it, and the methods that a class lists are found again, in
their order, among the functions under the path of the class.
-/

namespace UsageAudit

/-- The definition of a function, if the element is one. -/
def Element.functionDef? : Element → Option FunctionDef
  | .functionDef e => some e
  | _ => none

/-- The definition of a class, if the element is one. -/
def Element.classDef? : Element → Option ClassDef
  | .classDef e => some e
  | _ => none

/-- The functions among the elements of a script. -/
def functionDefs (elements : List Element) : List FunctionDef :=
  elements.filterMap Element.functionDef?

/-- The classes among the elements of a script. -/
def classDefs (elements : List Element) : List ClassDef := elements.filterMap Element.classDef?

/-- Whether a construct of this kind defines a class or a function. -/
def Script.Kind.isDefinition : Script.Kind → Bool
  | .classDefinition | .functionDefinition => true
  | _ => false

namespace Extraction

open Script (Tree Kind Field nodesOf)

/-- A step down a tree: from a node to the part of it at some position. -/
structure Step where
  above : Tree
  index : Nat

/-- A node, and the way down to it, the last step first. -/
structure Spot where
  trail : List Step
  node : Tree

mutual

/-- The nodes of a tree, each before its parts, with the ways down to them behind a given one. -/
def spotsFrom (trail : List Step) : Tree → List Spot
  | .token field kind line blank text => [⟨trail, .token field kind line blank text⟩]
  | .branch field kind line children =>
    ⟨trail, .branch field kind line children⟩ ::
      spotsOf trail (.branch field kind line children) 0 children

/-- The nodes of the parts of a node from some position on, with the ways down to them. -/
def spotsOf (trail : List Step) (above : Tree) (index : Nat) : List Tree → List Spot
  | [] => []
  | tree :: rest =>
    spotsFrom (⟨above, index⟩ :: trail) tree ++ spotsOf trail above (index + 1) rest

end

/-- The nodes of a tree, each before its parts, with the ways down to them. -/
def spots (tree : Tree) : List Spot := spotsFrom [] tree

/-- The position of the body of a definition among its parts. -/
def bodyIndex? (tree : Tree) : Option Nat :=
  tree.children.findIdx? fun part => part.field == some .body

/-- The definition whose body a step goes into, if it goes into one. -/
def Step.definition? (step : Step) : Option Tree :=
  if step.above.kind.isDefinition = true ∧ bodyIndex? step.above = some step.index then
    some step.above
  else none

/-- The definitions whose bodies a way goes into, the innermost first. -/
def enclosing (trail : List Step) : List Tree := trail.filterMap Step.definition?

/-- The definitions whose bodies hold a node, the innermost first. -/
def Spot.enclosing (spot : Spot) : List Tree := Extraction.enclosing spot.trail

/-- Whether the node defines a function. -/
def Spot.isFunction (spot : Spot) : Bool := spot.node.kind == .functionDefinition

/-- Whether the node defines a class. -/
def Spot.isClass (spot : Spot) : Bool := spot.node.kind == .classDefinition

/-- Whether a dotted path is made of the names of definitions, one after the other. -/
def IsPath (definitions : List Tree) (path : String) : Prop :=
  ∃ names, List.Forall₂ (fun definition name => fieldText definition .name = .ok name)
    definitions names ∧ path = ".".intercalate names

/-- Whether the element is what a node that defines a function should give rise to: it is a method
just if the innermost definition around the node is that of a class, and then it belongs to the path
of all definitions around the node, the outermost first. -/
structure Spot.Owns (spot : Spot) (e : FunctionDef) : Prop where
  name : fieldText spot.node .name = .ok e.name
  line : e.line = spot.node.line
  isMethod : e.className.isSome = true ↔
    ∃ inner, spot.enclosing.head? = some inner ∧ inner.kind = .classDefinition
  owner : ∀ owner, e.className = some owner → IsPath spot.enclosing.reverse owner

/-- Whether a statement defines a function, with or without decorators. -/
inductive Defines : Tree → Tree → Prop where
  | plain {definition : Tree} (kind : definition.kind = .functionDefinition) :
    Defines definition definition
  | decorated {statement definition : Tree} (kind : statement.kind = .decoratedDefinition)
    (part : statement.child? .definition = some definition)
    (defines : definition.kind = .functionDefinition) : Defines statement definition

/-- The functions that a row of statements defines, one after the other. -/
inductive DefinesAll : List Tree → List Tree → Prop where
  | nil : DefinesAll [] []
  | take {statement definition : Tree} {rest definitions : List Tree}
    (first : Defines statement definition) (more : DefinesAll rest definitions) :
    DefinesAll (statement :: rest) (definition :: definitions)
  | skip {statement : Tree} {rest definitions : List Tree}
    (first : ∀ definition, ¬Defines statement definition) (more : DefinesAll rest definitions) :
    DefinesAll (statement :: rest) definitions

/-- The statements in the body of a definition. -/
def statementsIn (definition : Tree) : List Tree :=
  ((definition.child? .body).map Tree.children).getD []

/-- Whether the element is what a node that defines a class should give rise to, among the given
functions of the script. Its methods are found in their order among the functions that belong to the
path of the class, which is that of the definitions around it with its own name behind; and they are
the functions that the statements of its body define. -/
structure Spot.Lists (functions : List FunctionDef) (spot : Spot) (e : ClassDef) : Prop where
  name : fieldText spot.node .name = .ok e.name
  line : e.line = spot.node.line
  methods : ∃ path, IsPath (spot.enclosing.reverse ++ [spot.node]) path ∧
    e.methods.Sublist ((functions.filter fun function => function.className == some path).map
      FunctionDef.name)
  covers : ∃ definitions, DefinesAll (statementsIn spot.node) definitions ∧
    List.Forall₂ (fun definition name => fieldText definition .name = .ok name) definitions
      e.methods

/-- Whether the bodies in a tree are blocks. -/
def HasBlocks (tree : Tree) : Prop :=
  ∀ node ∈ tree.nodes, node.field = some .body → node.kind = .block

/-! ## Ways down a tree -/

section Spots

variable {trail : List Step} {tree above : Tree} {index : Nat}

/-- The spots of a tree are those of its nodes, in the same order. -/
theorem map_node_spotsFrom (trail : List Step) (tree : Tree) :
    (spotsFrom trail tree).map Spot.node = tree.nodes := by
  induction tree using Tree.parts_induction generalizing trail with
  | token field kind line blank text => rfl
  | branch field kind line children ih =>
    have hrow (above : Tree) (index : Nat) :
        (spotsOf trail above index children).map Spot.node = nodesOf children := by
      induction children generalizing index with
      | nil => rfl
      | cons first rest ihrest =>
        have hrest := ihrest (fun part hpart => ih part (List.mem_cons_of_mem _ hpart)) (index + 1)
        simp [spotsOf, nodesOf, ih first List.mem_cons_self, hrest]
    simp [spotsFrom, Tree.nodes, hrow]

/-- The spots of a tree are the tree itself and those of its parts. -/
theorem spotsFrom_eq_cons (trail : List Step) (tree : Tree) :
    spotsFrom trail tree = ⟨trail, tree⟩ :: spotsOf trail tree 0 tree.children := by
  cases tree <;> simp [spotsFrom, Tree.children, spotsOf]

/-- The spots of one row after the other. -/
theorem spotsOf_append (first second : List Tree) :
    spotsOf trail above index (first ++ second) =
      spotsOf trail above index first ++ spotsOf trail above (index + first.length) second := by
  induction first generalizing index with
  | nil => simp [spotsOf]
  | cons tree rest ih =>
    simp only [List.cons_append, spotsOf, ih, List.append_assoc, List.length_cons]
    rw [Nat.add_right_comm, Nat.add_assoc]

/-- The spots of a part come one after the other among those of the whole. -/
theorem spotsFrom_part_sublist {front behind : List Tree} {part : Tree}
    (h : tree.children = front ++ part :: behind) :
    (spotsFrom (⟨tree, front.length⟩ :: trail) part).Sublist (spotsFrom trail tree) := by
  rw [spotsFrom_eq_cons trail tree, h, spotsOf_append, spotsOf, Nat.zero_add]
  refine List.Sublist.cons _ ?_
  exact (List.sublist_append_left _ _).trans (List.sublist_append_right _ _)

/-- A spot in a row is a spot of one of its members. -/
theorem exists_of_mem_spotsOf {row : List Tree} {spot : Spot}
    (h : spot ∈ spotsOf trail above index row) : ∃ front part behind,
      row = front ++ part :: behind ∧
        spot ∈ spotsFrom (⟨above, index + front.length⟩ :: trail) part := by
  induction row generalizing index with
  | nil => simp [spotsOf] at h
  | cons first rest ih =>
    rcases List.mem_append.mp h with h | h
    · exact ⟨[], first, rest, rfl, h⟩
    · obtain ⟨front, part, behind, rfl, h⟩ := ih h
      refine ⟨first :: front, part, behind, rfl, ?_⟩
      rwa [List.length_cons, Nat.add_comm front.length, ← Nat.add_assoc]

/-- The spots below a spot come one after the other among those of the whole. -/
theorem spotsFrom_sublist {spot : Spot} (h : spot ∈ spotsFrom trail tree) :
    (spotsFrom spot.trail spot.node).Sublist (spotsFrom trail tree) := by
  induction tree using Tree.children_induction generalizing trail with
  | node tree ih =>
    rw [spotsFrom_eq_cons, List.mem_cons] at h
    rcases h with rfl | h
    · exact .refl _
    · obtain ⟨front, part, behind, hchildren, h⟩ := exists_of_mem_spotsOf h
      rw [Nat.zero_add] at h
      exact (ih part (by simp [hchildren]) h).trans (spotsFrom_part_sublist hchildren)

/-- The steps of a way down from a node start at nodes of its tree. -/
theorem above_mem_nodes {spot : Spot} (h : spot ∈ spotsFrom trail tree) {step : Step}
    (hstep : step ∈ spot.trail) : step ∈ trail ∨ step.above ∈ tree.nodes := by
  induction tree using Tree.children_induction generalizing trail with
  | node tree ih =>
    rw [spotsFrom_eq_cons, List.mem_cons] at h
    rcases h with rfl | h
    · exact .inl hstep
    · obtain ⟨front, part, behind, hchildren, h⟩ := exists_of_mem_spotsOf h
      have hpart : part ∈ tree.children := by simp [hchildren]
      rcases ih part hpart h with hstep | habove
      · rcases List.mem_cons.mp hstep with rfl | hstep
        · exact .inr tree.self_mem_nodes
        · exact .inl hstep
      · exact .inr (Tree.mem_nodes_trans (Tree.mem_nodes_of_mem_children hpart) habove)

/-- The definitions around a node of a tree are nodes of the tree. -/
theorem mem_nodes_of_mem_enclosing {spot : Spot} (h : spot ∈ spots tree) {definition : Tree}
    (hmem : definition ∈ spot.enclosing) :
    definition ∈ tree.nodes ∧ definition.kind.isDefinition = true := by
  obtain ⟨step, hstep, hdefinition⟩ := List.mem_filterMap.mp hmem
  simp only [Step.definition?] at hdefinition
  split at hdefinition
  · rename_i hbody
    cases hdefinition
    exact ⟨(above_mem_nodes h hstep).resolve_left (by simp), hbody.1⟩
  · simp at hdefinition

end Spots

/-! ## The scopes of a walk -/

section Scopes

variable {trail : List Step} {role : Role} {tree above : Tree} {index : Nat}

/-- The scope that a definition opens. -/
def frameOf (definition : Tree) : Frame :=
  ⟨definition.kind == .classDefinition, ((definition.child? .name).map textOf).getD ""⟩

/-- The scopes that the definitions on a way open. -/
def scopeAt (trail : List Step) : Scope := (enclosing trail).map frameOf

/-- The scopes behind one more step. -/
theorem scopeAt_cons (trail : List Step) (above : Tree) (index : Nat) :
    scopeAt (⟨above, index⟩ :: trail) =
      if above.kind.isDefinition = true ∧ bodyIndex? above = some index then
        frameOf above :: scopeAt trail
      else scopeAt trail := by
  by_cases hbody : above.kind.isDefinition = true ∧ bodyIndex? above = some index <;>
    simp [scopeAt, enclosing, Step.definition?, hbody]

/-- The scopes in which a walk visits the members of a row. -/
def scopeIn (scope : Scope) (inside : Option Inside) (row : List Tree) (index : Nat) : Scope :=
  match inside with
  | some part =>
    if row.findIdx? (fun tree => tree.field == some part.field) = some index then part.scope
    else scope
  | none => scope

/-- A walk visits the parts of a node in the scopes on the ways to them. -/
theorem scopeIn_inside? (trail : List Step) (tree : Tree) (index : Nat) :
    scopeIn (scopeAt trail) (inside? (scopeAt trail) tree) tree.children index =
      scopeAt (⟨tree, index⟩ :: trail) := by
  rw [scopeAt_cons]
  unfold inside?
  dsimp only
  split
  · rename_i hkind
    simp [scopeIn, hkind, Kind.isDefinition, bodyIndex?, frameOf]
  · rename_i hkind
    have hframe : frameOf tree = ⟨false, ((tree.child? .name).map textOf).getD ""⟩ := by
      simp [frameOf, hkind]
    simp [scopeIn, hkind, Kind.isDefinition, bodyIndex?, hframe]
  · rename_i hkind
    simp [scopeIn, hkind, Kind.isDefinition]
  · rename_i hclass hfunction _
    have hnone : tree.kind.isDefinition = false := by
      cases hkind : tree.kind <;> first | rfl | contradiction
    simp [scopeIn, hnone]

/-- Whether the elements are what a walk makes of a node, visited in the scopes on the way to it. -/
def Spot.Yields (spot : Spot) (own : List Element) : Prop :=
  ∃ role, ownElements (scopeAt spot.trail) role spot.node = .ok own

/-- What is found in one row after the other. -/
theorem exists_parts_append {first second : List Spot} {found more : Findings}
    (hfirst : ∃ parts, List.Forall₂ Spot.Yields first parts ∧ found.elements = parts.flatten)
    (hsecond : ∃ parts, List.Forall₂ Spot.Yields second parts ∧ more.elements = parts.flatten) :
    ∃ parts, List.Forall₂ Spot.Yields (first ++ second) parts ∧
      found.elements ++ more.elements = parts.flatten := by
  obtain ⟨parts, hparts, helements⟩ := hfirst
  obtain ⟨others, hothers, hmore⟩ := hsecond
  exact ⟨parts ++ others, List.rel_append hparts hothers, by simp [helements, hmore]⟩

/-- A walk over a row finds what its nodes yield, if the walks over its members do. -/
theorem parts_of_visitAll {scope : Scope} {inside : Option Inside} {row : List Tree}
    (hscope : ∀ place, scopeIn scope inside row place =
      scopeAt (⟨above, index + place⟩ :: trail))
    (hrow : ∀ part ∈ row, ∀ trail role found, visit (scopeAt trail) role part = .ok found →
      ∃ parts, List.Forall₂ Spot.Yields (spotsFrom trail part) parts ∧
        found.elements = parts.flatten)
    {found : Findings} (h : visitAll scope inside row = .ok found) :
    ∃ parts, List.Forall₂ Spot.Yields (spotsOf trail above index row) parts ∧
      found.elements = parts.flatten := by
  induction row generalizing inside index found with
  | nil =>
    cases h
    exact ⟨[], .nil, rfl⟩
  | cons tree rest ih =>
    have hjoin {inside' : Option Inside} {scope' : Scope} {role : Role} {first more : Findings}
        (hfirst : scopeIn scope inside (tree :: rest) 0 = scope')
        (hrest : ∀ place, scopeIn scope inside (tree :: rest) (place + 1) =
          scopeIn scope inside' rest place)
        (hvisit : visit scope' role tree = .ok first)
        (hmore : visitAll scope inside' rest = .ok more) :
        ∃ parts, List.Forall₂ Spot.Yields (spotsOf trail above index (tree :: rest)) parts ∧
          first.elements ++ more.elements = parts.flatten := by
      refine exists_parts_append (hrow tree List.mem_cons_self _ role first ?_)
        (ih (fun place => ?_) (fun part hpart => hrow part (List.mem_cons_of_mem _ hpart)) hmore)
      · rw [← hvisit, ← hfirst, hscope 0, Nat.add_zero]
      · rw [← hrest place, hscope (place + 1), Nat.add_assoc, Nat.add_comm 1]
    cases inside with
    | none =>
      simp only [visitAll, bind_eq_ok_iff] at h
      obtain ⟨first, hfirst, more, hmore, ⟨⟩⟩ := h
      exact hjoin rfl (fun _ => rfl) hfirst hmore
    | some part =>
      simp only [visitAll] at h
      split at h
      · rename_i hfield
        simp only [bind_eq_ok_iff] at h
        obtain ⟨first, hfirst, more, hmore, ⟨⟩⟩ := h
        refine hjoin ?_ (fun place => ?_) hfirst hmore <;>
          simp [scopeIn, List.findIdx?_cons, hfield]
      · rename_i hfield
        simp only [bind_eq_ok_iff] at h
        obtain ⟨first, hfirst, more, hmore, ⟨⟩⟩ := h
        refine hjoin ?_ (fun place => ?_) hfirst hmore <;>
          simp [scopeIn, List.findIdx?_cons, hfield]

/-- A walk finds what the nodes of a tree yield, each visited in the scopes on the way to it. -/
theorem parts_of_visit {found : Findings} (h : visit (scopeAt trail) role tree = .ok found) :
    ∃ parts, List.Forall₂ Spot.Yields (spotsFrom trail tree) parts ∧
      found.elements = parts.flatten := by
  induction tree using Tree.parts_induction generalizing trail role found with
  | token field kind line blank text =>
    simp only [visit, bind_eq_ok_iff] at h
    obtain ⟨own, hown, ⟨⟩⟩ := h
    exact ⟨[own], .cons ⟨role, hown⟩ .nil, by simp⟩
  | branch field kind line children ih =>
    simp only [visit, bind_eq_ok_iff] at h
    obtain ⟨own, hown, more, hmore, ⟨⟩⟩ := h
    have hscope (place : Nat) : scopeIn (scopeAt trail)
        (inside? (scopeAt trail) (.branch field kind line children)) children place =
          scopeAt (⟨.branch field kind line children, 0 + place⟩ :: trail) := by
      rw [Nat.zero_add]
      exact scopeIn_inside? trail (.branch field kind line children) place
    obtain ⟨parts, hparts, helements⟩ :=
      parts_of_visitAll hscope (fun part hpart _ _ _ => ih part hpart) hmore
    exact ⟨own :: parts, .cons ⟨role, hown⟩ hparts, by simp [helements]⟩

/-- The elements of a script are what the nodes of its tree yield. -/
theorem parts_of_extract {found : Findings} (h : extract tree = .ok found) :
    ∃ parts, List.Forall₂ Spot.Yields (spots tree) parts ∧ found.elements = parts.flatten := by
  have hvisit : visit (scopeAt []) .plain tree = .ok found := h
  exact parts_of_visit hvisit

end Scopes

/-! ## What definitions yield -/

section Definitions

variable {spot : Spot} {own : List Element}

/-- A node that defines a function yields one function, in the scopes on the way to it. -/
theorem functionDefs_of_function (hown : spot.Yields own) (hspot : spot.isFunction = true) :
    ∃ e, functionDefs own = [e] ∧ fieldText spot.node .name = .ok e.name ∧
      e.line = spot.node.line ∧ e.className = (scopeAt spot.trail).methodOwner := by
  obtain ⟨role, hown⟩ := hown
  have hkind : spot.node.kind = .functionDefinition := by simpa [Spot.isFunction] using hspot
  simp only [ownElements, hkind] at hown
  cases helement : functionElement (scopeAt spot.trail) spot.node with
  | error fault => simp [helement, Except.map] at hown
  | ok element =>
    simp only [helement, Except.map, Except.ok.injEq] at hown
    simp only [functionElement, bind_eq_ok_iff] at helement
    obtain ⟨name, hname, args, -, ⟨⟩⟩ := helement
    subst hown
    exact ⟨_, rfl, hname, rfl, rfl⟩

/-- A walk takes for the function of a statement the one that the statement defines. -/
theorem definedFunction?_eq_some {statement definition : Tree} :
    definedFunction? statement = some definition ↔ Defines statement definition := by
  simp only [definedFunction?, Option.filter_eq_some_iff, beq_iff_eq]
  constructor
  · rintro ⟨hpart, hkind⟩
    split at hpart
    · rename_i hdecorated
      exact .decorated hdecorated hpart hkind
    · cases hpart
      exact .plain hkind
  · rintro (⟨hkind⟩ | ⟨hkind, hpart, hdefines⟩)
    · simp [hkind]
    · simp [hkind, hpart, hdefines]

/-- The functions that statements define are found one by one. -/
theorem definesAll_filterMap (row : List Tree) :
    DefinesAll row (row.filterMap definedFunction?) := by
  induction row with
  | nil => exact .nil
  | cons statement rest ih =>
    cases hdefined : definedFunction? statement with
    | none =>
      rw [List.filterMap_cons_none hdefined]
      exact .skip (fun definition h => by simp [definedFunction?_eq_some.mpr h] at hdefined) ih
    | some definition =>
      rw [List.filterMap_cons_some hdefined]
      exact .take (definedFunction?_eq_some.mp hdefined) ih

/-- Every statement that defines a function is a construct. -/
theorem isNamed_of_defines {statement definition : Tree} (h : Defines statement definition) :
    statement.isNamed = true := by
  cases h with
  | plain hkind => simp [Tree.isNamed, hkind, Kind.isNamed]
  | decorated hkind => simp [Tree.isNamed, hkind, Kind.isNamed]

/-- What a statement defines is the definition of a function. -/
theorem kind_of_defines {statement definition : Tree} (h : Defines statement definition) :
    definition.kind = .functionDefinition := by
  cases h with
  | plain hkind => exact hkind
  | decorated _ _ hdefines => exact hdefines

/-- The functions that the constructs of a row define are those that its members define. -/
theorem filterMap_namedChildren (body : Tree) :
    body.namedChildren.filterMap definedFunction? = body.children.filterMap definedFunction? := by
  rw [Tree.namedChildren, List.filterMap_filter]
  refine List.filterMap_congr fun statement _ => ?_
  cases hdefined : definedFunction? statement with
  | none => simp
  | some definition => simp [isNamed_of_defines (definedFunction?_eq_some.mp hdefined)]

/-- A node that defines a class yields one class, whose methods are the functions that the
statements in its body define. -/
theorem classDefs_of_class (hown : spot.Yields own) (hspot : spot.isClass = true) :
    ∃ e, classDefs own = [e] ∧ fieldText spot.node .name = .ok e.name ∧
      e.line = spot.node.line ∧
      List.Forall₂ (fun definition name => fieldText definition .name = .ok name)
        ((statementsIn spot.node).filterMap definedFunction?) e.methods := by
  obtain ⟨role, hown⟩ := hown
  have hkind : spot.node.kind = .classDefinition := by simpa [Spot.isClass] using hspot
  simp only [ownElements, hkind] at hown
  cases helement : classElement spot.node with
  | error fault => simp [helement, Except.map] at hown
  | ok element =>
    simp only [helement, Except.map, Except.ok.injEq] at hown
    simp only [classElement, bind_eq_ok_iff] at helement
    obtain ⟨name, hname, bases, -, methods, hmethods, ⟨⟩⟩ := helement
    subst hown
    refine ⟨_, rfl, hname, rfl, ?_⟩
    have hstatements : ((spot.node.child? .body).map Tree.namedChildren |>.getD []).filterMap
        definedFunction? = (statementsIn spot.node).filterMap definedFunction? := by
      cases hbody : spot.node.child? .body with
      | none => simp [statementsIn, hbody]
      | some body => simpa [statementsIn, hbody] using filterMap_namedChildren body
    rw [← hstatements]
    exact forall₂_of_mapM hmethods

/-- A node yields elements of a kind only if it counts for the kind. -/
theorem kind_not_mem (hown : spot.Yields own) (kind : ElementKind)
    (hkind : ∀ role, Place.yield ⟨role, spot.node⟩ kind = 0) :
    ∀ element ∈ own, element.kind ≠ kind := by
  obtain ⟨role, hown⟩ := hown
  intro element hmem helement
  have hkinds := (givesRise_of_ownElements hown).kinds
  have hcount := Place.count_kinds ⟨role, spot.node⟩ kind
  rw [hkind role, ← hkinds, List.count_eq_zero] at hcount
  exact hcount (List.mem_map.mpr ⟨element, hmem, helement⟩)

/-- A node that defines no function yields none. -/
theorem functionDefs_of_other (hown : spot.Yields own) (hspot : spot.isFunction = false) :
    functionDefs own = [] := by
  refine List.filterMap_eq_nil_iff.mpr fun element hmem => ?_
  have hkind := kind_not_mem hown .functionDef
    (fun _ => by simpa [Place.yield, Spot.isFunction] using hspot) element hmem
  cases element <;> first | rfl | exact absurd rfl hkind

/-- A node that defines no class yields none. -/
theorem classDefs_of_other (hown : spot.Yields own) (hspot : spot.isClass = false) :
    classDefs own = [] := by
  refine List.filterMap_eq_nil_iff.mpr fun element hmem => ?_
  have hkind := kind_not_mem hown .classDef
    (fun _ => by simpa [Place.yield, Spot.isClass] using hspot) element hmem
  cases element <;> first | rfl | exact absurd rfl hkind

end Definitions

/-! ## Paths of definitions -/

section Paths

variable {definitions : List Tree}

/-- The name of a definition is that of the scope that it opens. -/
theorem name_frameOf {definition : Tree} {name : String}
    (h : fieldText definition .name = .ok name) : (frameOf definition).name = name := by
  simp only [fieldText] at h
  split at h
  · rename_i part hpart
    cases h
    simp [frameOf, hpart]
  · simp at h

/-- Definitions with names make a path. -/
theorem isPath_of_names
    (h : ∀ definition ∈ definitions, ∃ name, fieldText definition .name = .ok name) :
    IsPath definitions (".".intercalate (definitions.map fun definition =>
      (frameOf definition).name)) := by
  refine ⟨_, ?_, rfl⟩
  rw [List.forall₂_map_right_iff, List.forall₂_same]
  intro definition hmem
  obtain ⟨name, hname⟩ := h definition hmem
  rw [hname, name_frameOf hname]

/-- Definitions make one path only. -/
theorem IsPath.unique {path other : String} (h : IsPath definitions path)
    (hother : IsPath definitions other) : path = other := by
  obtain ⟨names, hnames, rfl⟩ := h
  obtain ⟨others, hothers, rfl⟩ := hother
  congr 1
  induction hnames generalizing others with
  | nil =>
    cases hothers
    rfl
  | cons hname _ ih =>
    cases hothers with
    | cons hother hothers =>
      obtain rfl := Except.ok.inj (hname.symm.trans hother)
      rw [ih _ hothers]

/-- The owner of a function, read off the definitions whose scopes are around it. -/
theorem methodOwner_map_frameOf (definitions : List Tree) :
    Scope.methodOwner (definitions.map frameOf) =
      if (definitions.head?.any fun inner => inner.kind == .classDefinition) = true then
        some (".".intercalate (definitions.reverse.map fun definition =>
          (frameOf definition).name))
      else none := by
  cases definitions with
  | nil => rfl
  | cons inner outer =>
    cases hclass : inner.kind == .classDefinition with
    | true => simp [Scope.methodOwner, Scope.path, frameOf, hclass, Function.comp_def]
    | false => simp [Scope.methodOwner, frameOf, hclass]

/-- A function that a node yields belongs to the path of the definitions around the node, if these
have names. -/
theorem owns_of_yields {spot : Spot} {own : List Element} (hown : spot.Yields own)
    (hnames : ∀ definition ∈ spot.enclosing, ∃ name, fieldText definition .name = .ok name)
    (hspot : spot.isFunction = true) : ∃ e, functionDefs own = [e] ∧ spot.Owns e := by
  obtain ⟨e, he, hname, hline, howner⟩ := functionDefs_of_function hown hspot
  have hclass : (spot.enclosing.head?.any fun inner => inner.kind == .classDefinition) = true ↔
      ∃ inner, spot.enclosing.head? = some inner ∧ inner.kind = .classDefinition := by
    simp [Option.any_eq_true]
  rw [scopeAt, methodOwner_map_frameOf] at howner
  refine ⟨e, he, hname, hline, ?_, fun owner hpath => ?_⟩
  · rw [← hclass, howner]
    split <;> simp_all [Spot.enclosing]
  · rw [howner] at hpath
    split at hpath
    · cases hpath
      exact isPath_of_names fun definition hmem => hnames definition (List.mem_reverse.mp hmem)
    · simp at hpath

end Paths

/-! ## Methods and classes -/

/-- Where each member of a row has its own list of values, and just the members that pass a test
have one value of a sort, the values of the sort are told off against these members. -/
theorem forall₂_filter {α β γ : Type} {related : α → List β → Prop} {test : α → Bool}
    {pick : β → Option γ} {holds : α → γ → Prop} {members : List α} {values : List (List β)}
    (h : List.Forall₂ related members values)
    (hyes : ∀ member ∈ members, ∀ own, related member own → test member = true →
      ∃ value, own.filterMap pick = [value] ∧ holds member value)
    (hno : ∀ member ∈ members, ∀ own, related member own → test member = false →
      own.filterMap pick = []) :
    List.Forall₂ holds (members.filter test) (values.flatten.filterMap pick) := by
  induction h with
  | nil => exact .nil
  | @cons member own members values hfirst _ ih =>
    have hrest := ih (fun other hother => hyes other (List.mem_cons_of_mem _ hother))
      fun other hother => hno other (List.mem_cons_of_mem _ hother)
    rw [List.flatten_cons, List.filterMap_append]
    cases htest : test member with
    | false =>
      rw [List.filter_cons_of_neg (by simp [htest]), hno member List.mem_cons_self own hfirst htest]
      exact hrest
    | true =>
      obtain ⟨value, hvalue, hholds⟩ := hyes member List.mem_cons_self own hfirst htest
      rw [List.filter_cons_of_pos htest, hvalue]
      exact .cons hholds hrest

/-- Some of the members of a row that is told off against another are told off against some of the
members of that one. -/
theorem exists_sublist_of_forall₂ {α β : Type} {related : α → β → Prop} {members some' : List α}
    {values : List β} (h : List.Forall₂ related members values) (hsome : some'.Sublist members) :
    ∃ picked, picked.Sublist values ∧ List.Forall₂ related some' picked := by
  induction hsome generalizing values with
  | slnil =>
    cases h
    exact ⟨[], .slnil, .nil⟩
  | cons member _ ih =>
    cases h with
    | cons _ hrest =>
      obtain ⟨picked, hpicked, hrelated⟩ := ih hrest
      exact ⟨picked, hpicked.cons _, hrelated⟩
  | cons_cons member _ ih =>
    cases h with
    | cons hfirst hrest =>
      obtain ⟨picked, hpicked, hrelated⟩ := ih hrest
      exact ⟨_ :: picked, hpicked.cons_cons _, .cons hfirst hrelated⟩

section Classes

variable {trail : List Step} {tree node : Tree} {found : Findings}

/-- A function that a statement defines is found below the statement, and no definition stands
between them. -/
theorem exists_spot_of_defines {statement definition : Tree} (h : Defines statement definition)
    (trail : List Step) : ∃ spot, [spot].Sublist (spotsFrom trail statement) ∧
      spot.node = definition ∧ spot.enclosing = enclosing trail := by
  cases h with
  | plain hkind =>
    refine ⟨⟨trail, statement⟩, ?_, rfl, rfl⟩
    rw [spotsFrom_eq_cons]
    simp
  | decorated hkind hpart hdefines =>
    obtain ⟨front, behind, hchildren⟩ := List.append_of_mem (Tree.of_child? hpart).1
    refine ⟨⟨⟨statement, front.length⟩ :: trail, definition⟩, ?_, rfl, ?_⟩
    · refine .trans ?_ (spotsFrom_part_sublist hchildren)
      rw [spotsFrom_eq_cons]
      simp
    · simp [Spot.enclosing, enclosing, Step.definition?, hkind, Kind.isDefinition]

/-- The functions that the statements of a block define are found below the block one after the
other, and no definition stands between them and the block. -/
theorem exists_spots_of_definesAll {block : Tree} (hblock : block.kind.isDefinition = false)
    {row definitions : List Tree} (h : DefinesAll row definitions) (trail : List Step)
    (index : Nat) : ∃ below : List Spot, below.Sublist (spotsOf trail block index row) ∧
      below.map Spot.node = definitions ∧ ∀ spot ∈ below, spot.enclosing = enclosing trail := by
  have hstep (place : Nat) : enclosing (⟨block, place⟩ :: trail) = enclosing trail := by
    simp [enclosing, Step.definition?, hblock]
  induction h generalizing index with
  | nil => exact ⟨[], .slnil, rfl, by simp⟩
  | take hfirst _ ih =>
    obtain ⟨below, hbelow, hnodes, henclosing⟩ := ih (index + 1)
    obtain ⟨spot, hspot, hnode, hspot'⟩ := exists_spot_of_defines hfirst (⟨block, index⟩ :: trail)
    refine ⟨spot :: below, hspot.append hbelow, by simp [hnode, hnodes], ?_⟩
    exact List.forall_mem_cons.mpr ⟨hspot'.trans (hstep index), henclosing⟩
  | skip _ _ ih =>
    obtain ⟨below, hbelow, hnodes, henclosing⟩ := ih (index + 1)
    exact ⟨below, hbelow.trans (List.sublist_append_right _ _), hnodes, henclosing⟩

/-- The body of a definition is at the position of its body. -/
theorem exists_split_of_body {body : Tree} (h : node.child? .body = some body) :
    ∃ front behind, node.children = front ++ body :: behind ∧
      bodyIndex? node = some front.length := by
  obtain ⟨hbody, front, behind, hchildren, hfront⟩ := List.find?_eq_some_iff_append.mp h
  refine ⟨front, behind, hchildren, ?_⟩
  have hnone : front.findIdx? (fun part => part.field == some .body) = none :=
    List.findIdx?_eq_none_iff.mpr fun part hpart => by simpa using hfront part hpart
  simp [bodyIndex?, hchildren, List.findIdx?_append, hnone, List.findIdx?_cons, hbody]

/-- The functions that the statements in the body of a class define are found below the class one
after the other, and the class is the innermost definition around them. -/
theorem exists_spots_of_body (hnode : node.kind.isDefinition = true)
    (hbody : ∀ body, node.child? .body = some body → body.kind = .block)
    {definitions : List Tree} (h : DefinesAll (statementsIn node) definitions)
    (trail : List Step) : ∃ below : List Spot, below.Sublist (spotsFrom trail node) ∧
      below.map Spot.node = definitions ∧
        ∀ spot ∈ below, spot.enclosing = node :: enclosing trail := by
  cases hchild : node.child? .body with
  | none =>
    rw [statementsIn, hchild] at h
    cases h
    exact ⟨[], List.nil_sublist _, rfl, by simp⟩
  | some body =>
    obtain ⟨front, behind, hchildren, hindex⟩ := exists_split_of_body hchild
    have hblock : body.kind.isDefinition = false := by
      simp [hbody body hchild, Kind.isDefinition]
    rw [statementsIn, hchild] at h
    obtain ⟨below, hbelow, hnodes, henclosing⟩ :=
      exists_spots_of_definesAll hblock h (⟨node, front.length⟩ :: trail) 0
    refine ⟨below, ?_, hnodes, fun spot hspot => ?_⟩
    · refine .trans ?_ (spotsFrom_part_sublist hchildren)
      rw [spotsFrom_eq_cons]
      exact hbelow.cons _
    · rw [henclosing spot hspot]
      simp [enclosing, Step.definition?, hnode, hindex]

/-- Where a walk meets no fault, every definition in the tree has a name. -/
theorem exists_name_of_extract (h : extract tree = .ok found) {definition : Tree}
    (hmem : definition ∈ tree.nodes) (hkind : definition.kind.isDefinition = true) :
    ∃ name, fieldText definition .name = .ok name := by
  obtain ⟨parts, hparts, -⟩ := parts_of_extract h
  rw [← map_node_spotsFrom []] at hmem
  obtain ⟨spot, hspot, rfl⟩ := List.mem_map.mp hmem
  obtain ⟨own, -, hown⟩ := exists_of_mem_right hparts.flip hspot
  have hcases : spot.isFunction = true ∨ spot.isClass = true := by
    unfold Kind.isDefinition at hkind
    split at hkind <;> simp_all [Spot.isFunction, Spot.isClass]
  rcases hcases with hfunction | hclass
  · obtain ⟨e, -, hname, -⟩ := functionDefs_of_function hown hfunction
    exact ⟨_, hname⟩
  · obtain ⟨e, -, hname, -⟩ := classDefs_of_class hown hclass
    exact ⟨_, hname⟩

/-- The functions of a script are told off against the nodes that define them. -/
theorem functions_owned (h : extract tree = .ok found) :
    List.Forall₂ Spot.Owns ((spots tree).filter Spot.isFunction) (functionDefs found.elements) := by
  obtain ⟨parts, hparts, helements⟩ := parts_of_extract h
  rw [helements]
  refine forall₂_filter hparts (fun spot hspot own hown hfunction => ?_)
    fun spot _ own hown => functionDefs_of_other hown
  refine owns_of_yields hown (fun definition hmem => ?_) hfunction
  obtain ⟨hnode, hkind⟩ := mem_nodes_of_mem_enclosing hspot hmem
  exact exists_name_of_extract h hnode hkind

/-- Functions that are told off against nodes have the names of the nodes. -/
theorem map_name_eq {below : List Spot} {functions : List FunctionDef} {names : List String}
    (hfunctions : List.Forall₂ Spot.Owns below functions)
    (hnames : List.Forall₂ (fun definition name => fieldText definition .name = .ok name)
      (below.map Spot.node) names) : functions.map FunctionDef.name = names := by
  induction hfunctions generalizing names with
  | nil =>
    cases hnames
    rfl
  | cons hfirst _ ih =>
    cases hnames with
    | cons hname hnames =>
      obtain rfl := Except.ok.inj (hfirst.name.symm.trans hname)
      rw [List.map_cons, ih hnames]

/-- The functions that the statements in the body of a class define are among the functions of the
script, and the class is the innermost definition around them. -/
theorem exists_spots_of_methods (hblocks : HasBlocks tree) {spot : Spot} (hspot : spot ∈ spots tree)
    (hkind : spot.node.kind = .classDefinition) :
    ∃ below : List Spot, below.Sublist ((spots tree).filter Spot.isFunction) ∧
      below.map Spot.node = (statementsIn spot.node).filterMap definedFunction? ∧
        ∀ inner ∈ below, inner.enclosing = spot.node :: spot.enclosing := by
  have hdefinition : spot.node.kind.isDefinition = true := by simp [hkind, Kind.isDefinition]
  have hnode : spot.node ∈ tree.nodes := by
    rw [← map_node_spotsFrom []]
    exact List.mem_map_of_mem hspot
  have hbody : ∀ body, spot.node.child? .body = some body → body.kind = .block := by
    intro body hchild
    obtain ⟨hmem, hfield⟩ := Tree.of_child? hchild
    exact hblocks body (Tree.mem_nodes_trans hnode (Tree.mem_nodes_of_mem_children hmem)) hfield
  obtain ⟨below, hbelow, hnodes, henclosing⟩ := exists_spots_of_body hdefinition hbody
    (definesAll_filterMap (statementsIn spot.node)) spot.trail
  refine ⟨below, ?_, hnodes, henclosing⟩
  have hall : below.filter Spot.isFunction = below := by
    refine List.filter_eq_self.mpr fun inner hinner => ?_
    have hmem : inner.node ∈ (statementsIn spot.node).filterMap definedFunction? :=
      hnodes ▸ List.mem_map_of_mem hinner
    obtain ⟨statement, -, hdefined⟩ := List.mem_filterMap.mp hmem
    simp [Spot.isFunction, kind_of_defines (definedFunction?_eq_some.mp hdefined)]
  rw [← hall]
  exact (hbelow.trans (spotsFrom_sublist hspot)).filter _

/-- Where a walk meets no fault, every definition in the tree has a path. -/
theorem exists_path_of_extract (h : extract tree = .ok found) {spot : Spot}
    (hspot : spot ∈ spots tree) (hdefinition : spot.node.kind.isDefinition = true) :
    ∃ path, IsPath (spot.enclosing.reverse ++ [spot.node]) path := by
  refine ⟨_, isPath_of_names fun definition hmem => ?_⟩
  rcases List.mem_append.mp hmem with hmem | hmem
  · obtain ⟨hnode, hkind⟩ := mem_nodes_of_mem_enclosing hspot (List.mem_reverse.mp hmem)
    exact exists_name_of_extract h hnode hkind
  · obtain rfl := List.mem_singleton.mp hmem
    refine exists_name_of_extract h ?_ hdefinition
    rw [← map_node_spotsFrom []]
    exact List.mem_map_of_mem hspot

/-- A function right within a class belongs to the path of the class. -/
theorem Spot.Owns.className_eq {inner : Spot} {function : FunctionDef} (h : inner.Owns function)
    {around : List Tree} (henclosing : inner.enclosing = node :: around)
    (hkind : node.kind = .classDefinition) {path : String}
    (hpath : IsPath (around.reverse ++ [node]) path) : function.className = some path := by
  obtain ⟨owner, howner⟩ := Option.isSome_iff_exists.mp
    (h.isMethod.mpr ⟨node, by rw [henclosing]; rfl, hkind⟩)
  have hinner := h.owner owner howner
  rw [henclosing, List.reverse_cons] at hinner
  rw [howner, hinner.unique hpath]

/-- The methods that a class lists are among the functions that belong to its path. -/
theorem lists_of_class (h : extract tree = .ok found) (hblocks : HasBlocks tree) {spot : Spot}
    (hspot : spot ∈ spots tree) {own : List Element} (hown : spot.Yields own)
    (hclass : spot.isClass = true) :
    ∃ e, classDefs own = [e] ∧ spot.Lists (functionDefs found.elements) e := by
  obtain ⟨e, he, hname, hline, hmethods⟩ := classDefs_of_class hown hclass
  have hkind : spot.node.kind = .classDefinition := by simpa [Spot.isClass] using hclass
  obtain ⟨below, hfunctions, hnodes, henclosing⟩ := exists_spots_of_methods hblocks hspot hkind
  obtain ⟨picked, hpicked, howned⟩ := exists_sublist_of_forall₂ (functions_owned h) hfunctions
  obtain ⟨path, hpath⟩ := exists_path_of_extract h hspot (by simp [hkind, Kind.isDefinition])
  have hnames : picked.map FunctionDef.name = e.methods :=
    map_name_eq howned (by rw [hnodes]; exact hmethods)
  have hall : (picked.filter fun function => function.className == some path) = picked := by
    refine List.filter_eq_self.mpr fun function hmem => ?_
    obtain ⟨inner, hinner, howns⟩ := exists_of_mem_right howned hmem
    simp [howns.className_eq (henclosing inner hinner) hkind hpath]
  refine ⟨e, he, hname, hline, ⟨path, hpath, ?_⟩, _, definesAll_filterMap _, hmethods⟩
  rw [← hnames, ← hall]
  exact (hpicked.filter _).map _

end Classes

/-- The bodies in the syntax tree of a script are blocks. -/
theorem hasBlocks_of_parse {script : List Char} {tree : Tree}
    (h : Script.parse script = .ok tree) : HasBlocks tree :=
  fun node hnode => (Script.wellMade_of_parse h node hnode).body

/-- A walk that meets no fault finds the owners of methods by how definitions nest. The functions
that it finds are told off against the nodes that define functions: each is a method just if the
innermost definition around the node is that of a class, and then it belongs to the dotted path of
all definitions around the node. The classes that it finds are told off against the nodes that
define classes, where bodies are blocks, as they are in the syntax tree of any script: the methods
of each are the functions that the statements of its body define, with or without decorators, and
they are found in their order among the functions that belong to the path of the class. -/
theorem methods_follow_nesting {tree : Tree} {found : Findings} (h : extract tree = .ok found) :
    (spots tree).map Spot.node = tree.nodes ∧
    List.Forall₂ Spot.Owns ((spots tree).filter Spot.isFunction) (functionDefs found.elements) ∧
    (HasBlocks tree → List.Forall₂ (Spot.Lists (functionDefs found.elements))
      ((spots tree).filter Spot.isClass) (classDefs found.elements)) ∧
    (∀ script, Script.parse script = .ok tree → HasBlocks tree) := by
  refine ⟨map_node_spotsFrom [] tree, functions_owned h, fun hblocks => ?_,
    fun script => hasBlocks_of_parse⟩
  obtain ⟨parts, hparts, helements⟩ := parts_of_extract h
  rw [helements]
  exact forall₂_filter hparts
    (fun spot hspot own hown hclass => helements ▸ lists_of_class h hblocks hspot hown hclass)
    (fun spot _ own hown => classDefs_of_other hown)

/-- A script with a class in a class, a method with a decorator and a function in a method. -/
def shelfSource : String :=
  "class Shelf:\n    class Row:\n        @staticmethod\n        def read(): pass\n" ++
    "    if True:\n        def tidy(self): pass\n" ++
    "    def open(self):\n        def close(): pass\n"

/-- The functions of the script have their owners: one in a method has none. A method defined under
a condition belongs to the class, which does not list it. -/
theorem methods_follow_nesting_shelfSource :
    ∃ tree found, Script.parse shelfSource.toList = .ok tree ∧ extract tree = .ok found ∧
      (functionDefs found.elements).map (fun e => (e.name, e.className)) =
        [("read", some "Shelf.Row"), ("tidy", some "Shelf"), ("open", some "Shelf"),
          ("close", none)] ∧
      (classDefs found.elements).map (fun e => (e.name, e.methods)) =
        [("Shelf", ["open"]), ("Row", ["read"])] ∧
      List.Forall₂ Spot.Owns ((spots tree).filter Spot.isFunction)
        (functionDefs found.elements) ∧
      List.Forall₂ (Spot.Lists (functionDefs found.elements)) ((spots tree).filter Spot.isClass)
        (classDefs found.elements) := by
  have hread : (Script.parse shelfSource.toList).toOption.bind (fun tree =>
      (extract tree).toOption.map fun found =>
        ((functionDefs found.elements).map (fun e => (e.name, e.className)),
          (classDefs found.elements).map (fun e => (e.name, e.methods)))) =
      some ([("read", some "Shelf.Row"), ("tidy", some "Shelf"), ("open", some "Shelf"),
          ("close", none)], [("Shelf", ["open"]), ("Row", ["read"])]) := by decide +kernel
  cases htree : Script.parse shelfSource.toList with
  | error stuck => simp [htree, Except.toOption] at hread
  | ok tree =>
    cases hfound : extract tree with
    | error fault => simp [htree, hfound, Except.toOption] at hread
    | ok found =>
      obtain ⟨hfunctions, hclasses⟩ := by simpa [htree, hfound, Except.toOption] using hread
      obtain ⟨-, howned, hlisted, hblocks⟩ := methods_follow_nesting hfound
      exact ⟨tree, found, rfl, hfound, hfunctions, hclasses, howned, hlisted (hblocks _ htree)⟩

end Extraction

end UsageAudit

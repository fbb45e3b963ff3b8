import UsageAudit.Proofs.TwinTrees

/-!
# Walks over trees that look alike

The elements of a script are read off the nodes of its tree, one node after the other. Trees that
look alike give rise to the same elements in the same order: this file says so of the elements of
one node, and then of a whole walk by induction over the trees.
-/

namespace UsageAudit

namespace Extraction

open Script (Tree Kind Field)

variable {view : View} {around : Around} {watched : Bool} {tree other : Tree}
  {row others : List Tree}

/-- Nothing is to be seen of a member that gives nothing. -/
theorem lookSame_skip {β δ : Type} {part? : Tree → Option Tree} {step : Tree → Except Fault β}
    {see : β → List δ} {tree : Tree}
    (hnothing : ∀ part ∈ part? tree, ∃ value, step part = .ok value ∧ see value = [])
    (rest : List Tree) :
    LookSame (List.flatMap see) (((tree :: rest).filterMap part?).mapM step)
      ((rest.filterMap part?).mapM step) := by
  cases hpart : part? tree with
  | none =>
    rw [List.filterMap_cons_none hpart]
    exact .refl _ _
  | some part =>
    obtain ⟨value, hvalue, hsee⟩ := hnothing part hpart
    rw [List.filterMap_cons_some hpart, List.mapM_cons, hvalue]
    cases (rest.filterMap part?).mapM step with
    | error fault => exact .error _ _
    | ok values => exact .ok (by simp [hsee])

namespace Twins

/-- What is read off some members of two rows looks the same if it does for twins and nothing is to
be seen of what is read off idle tokens. -/
theorem collect {β δ : Type} (h : Twins view around watched row others)
    {part? : Tree → Option Tree} {step step' : Tree → Except Fault β} {see : β → List δ}
    (hstep : ∀ tree other, TwinTrees view around tree other →
      Option.Rel (fun part part' => LookSame see (step part) (step' part')) (part? tree)
        (part? other))
    (hidle : ∀ tree watched, around.Idle watched tree → ∀ part ∈ part? tree,
      ∃ value, step part = .ok value ∧ step' part = .ok value ∧ see value = []) :
    LookSame (List.flatMap see) ((row.filterMap part?).mapM step)
      ((others.filterMap part?).mapM step') := by
  induction h with
  | nil => exact .refl _ _
  | @node around watched tree other rest others halike hparts _ _ ih =>
    have hrest := ih hstep hidle
    have hfirst := hstep tree other ⟨halike, hparts⟩
    cases hpart : part? tree with
    | none =>
      cases hpart' : part? other with
      | none =>
        rw [List.filterMap_cons_none hpart, List.filterMap_cons_none hpart']
        exact hrest
      | some part' => simp [hpart, hpart'] at hfirst
    | some part =>
      cases hpart' : part? other with
      | none => simp [hpart, hpart'] at hfirst
      | some part' =>
        rw [hpart, hpart', Option.rel_some_some] at hfirst
        rw [List.filterMap_cons_some hpart, List.filterMap_cons_some hpart', List.mapM_cons,
          List.mapM_cons]
        refine hfirst.bind fun value value' hvalue => hrest.bind fun values values' hvalues => ?_
        exact .ok (by simp [hvalue, hvalues])
  | @left around watched tree rest others htree _ ih =>
    refine (lookSame_skip (fun part hpart => ?_) rest).trans (ih hstep hidle)
    obtain ⟨value, hvalue, _, hsee⟩ := hidle tree watched htree part hpart
    exact ⟨value, hvalue, hsee⟩
  | @right around watched other rest others hother _ ih =>
    refine (ih hstep hidle).trans (lookSame_skip (fun part hpart => ?_) others).symm
    obtain ⟨value, _, hvalue, hsee⟩ := hidle other watched hother part hpart
    exact ⟨value, hvalue, hsee⟩

/-- What is read off the members that pass a test. -/
theorem collectWhere {β δ : Type} (h : Twins view around watched row others) {test : Tree → Bool}
    {step step' : Tree → Except Fault β} {see : β → List δ}
    (htest : ∀ tree other, Alike view around tree other → test tree = test other)
    (hstep : ∀ tree other, TwinTrees view around tree other → test tree = true →
      LookSame see (step tree) (step' other))
    (hidle : ∀ tree watched, around.Idle watched tree → test tree = true →
      ∃ value, step tree = .ok value ∧ step' tree = .ok value ∧ see value = []) :
    LookSame (List.flatMap see) ((row.filter test).mapM step)
      ((others.filter test).mapM step') := by
  rw [← List.filterMap_eq_filter]
  refine h.collect (fun tree other htwins => ?_) fun tree watched hone part hpart => ?_
  · cases hcase : test tree with
    | false => simp [Option.guard, hcase, ← htest tree other htwins.alike]
    | true =>
      have hboth := hstep tree other htwins hcase
      simpa [Option.guard, hcase, ← htest tree other htwins.alike] using hboth
  · obtain ⟨rfl, hpass⟩ := Option.guard_eq_some_iff.mp hpart
    exact hidle tree watched hone hpass

/-- Whether some member passes a test is the same in both rows if the test sees no more than the
walk and no idle token passes it. -/
theorem any_eq (h : Twins view around watched row others) {test : Tree → Bool}
    (htest : ∀ tree other, Alike view around tree other → test tree = test other)
    (hidle : ∀ tree watched, around.Idle watched tree → test tree = false) :
    row.any test = others.any test := by
  have hfind := h.find? htest hidle
  rw [Bool.eq_iff_iff, List.any_eq_true, List.any_eq_true, ← List.find?_isSome,
    ← List.find?_isSome]
  generalize row.find? test = first at hfind ⊢
  generalize others.find? test = second at hfind ⊢
  cases hfind <;> simp

end Twins

/-- The constructs in the part of a node that plays a role. -/
def constructsOf (tree : Tree) (field : Field) : List Tree :=
  (tree.child? field).map Tree.namedChildren |>.getD []

namespace TwinTrees

/-- The parts of twins in a role are both absent, or look alike. -/
theorem part_cases (h : TwinTrees view around tree other) (field : Field) :
    (tree.child? field = none ∧ other.child? field = none) ∨
      ∃ part part', tree.child? field = some part ∧ other.child? field = some part' ∧
        part.field = some field ∧ TwinTrees view (around.inside tree) part part' := by
  have hpart := h.child? field
  cases hchild : tree.child? field with
  | none =>
    cases hchild' : other.child? field with
    | none => exact .inl ⟨rfl, rfl⟩
    | some part' => simp [hchild, hchild'] at hpart
  | some part =>
    cases hchild' : other.child? field with
    | none => simp [hchild, hchild'] at hpart
    | some part' =>
      rw [hchild, hchild', Option.rel_some_some] at hpart
      exact .inr ⟨part, part', rfl, rfl, (Tree.of_child? hchild).2, hpart⟩

/-- What a part of an `import` statement imports looks the same in twins. -/
theorem importTarget (h : TwinTrees view around tree other)
    (hkind : around.kind.importsNames = true) (hfield : tree.field = some .name) :
    LookSame (Prod.map view.imported id) (importTarget tree) (importTarget other) := by
  unfold Extraction.importTarget
  rw [← h.alike.kind]
  split
  · rename_i haliased
    have hname : LookSame view.imported (Extraction.fieldText tree .name)
        (Extraction.fieldText other .name) :=
      h.fieldText_of .name fun part part' hname htwins => htwins.alike.imported (by
        simp [Around.imports, Around.inside, haliased, hname])
    have hnickname : LookSame id (Extraction.fieldText tree .nickname)
        (Extraction.fieldText other .nickname) :=
      h.fieldText_of .nickname fun part part' hnickname htwins => htwins.textOf_eq (by
        simp [Around.keeps, Around.inside, haliased, hnickname])
    exact hname.bind fun name name' hname => hnickname.andThen fun nickname =>
      .ok (by simp [hname])
  · rename_i haliased
    have himports : around.imports tree = true := by
      simp [Around.imports, hkind, hfield, haliased]
    exact .ok (congrArg (·, none) (h.alike.imported himports))

/-- What is read off all parts in a role looks the same if it does for twins. -/
theorem partsAt (h : TwinTrees view around tree other) {β δ : Type} {field : Field}
    {step step' : Tree → Except Fault β} {see : β → δ}
    (hstep : ∀ part part', part.field = some field →
      TwinTrees view (around.inside tree) part part' → LookSame see (step part) (step' part')) :
    LookSame (List.map see) ((partsAt tree field).mapM step)
      ((partsAt other field).mapM step') := by
  have hrow : LookSame (List.flatMap fun value => [see value])
      ((Extraction.partsAt tree field).mapM step)
      ((Extraction.partsAt other field).mapM step') := by
    refine h.parts.collectWhere (fun part part' halike => by simp [halike.field]) ?_ ?_
    · intro part part' htwins hfield
      exact (hstep part part' (by simpa using hfield) htwins).mono fun _ _ => congrArg fun v => [v]
    · intro part watched hone hfield
      simp [hone.field_eq_none] at hfield
  exact hrow.mono fun values values' => by simp [List.map_eq_flatMap]

/-- Twins import the same modules. -/
theorem moduleImports (h : TwinTrees view around tree other)
    (hkind : tree.kind.importsNames = true) :
    LookSame (List.map view.element) (moduleImports tree) (moduleImports other) := by
  refine h.partsAt fun part part' hfield htwins => ?_
  refine (htwins.importTarget hkind hfield).bind fun target target' htarget => .ok ?_
  obtain ⟨hpath, hnickname⟩ :
      view.imported target.1 = view.imported target'.1 ∧ target.2 = target'.2 := by
    simpa [Prod.ext_iff] using htarget
  simp [View.element, hpath, hnickname, h.alike.line]

/-- Twins import the same names. -/
theorem nameImports (h : TwinTrees view around tree other)
    (hkind : tree.kind.importsNames = true) :
    LookSame (List.map view.element) (nameImports tree) (nameImports other) := by
  have hpath : view.imported (((tree.child? .moduleName).map textOf).getD "__future__") =
      view.imported (((other.child? .moduleName).map textOf).getD "__future__") := by
    rcases h.part_cases .moduleName with
      ⟨hnone, hnone'⟩ | ⟨part, part', hpart, hpart', hfield, htwins⟩
    · rw [hnone, hnone']
    · have himports : (around.inside tree).imports part = true := by
        simp [Around.imports, Around.inside, hkind, hfield]
      simpa [hpart, hpart'] using htwins.alike.imported himports
  have hall : (tree.children.any fun child => child.kind == .wildcardImport) =
      other.children.any fun child => child.kind == .wildcardImport := by
    refine h.parts.any_eq (fun part part' halike => by simp [halike.kind]) ?_
    intro part watched hone
    rcases hone.kind_eq with hkind | ⟨hkind, _⟩ | hkind | hkind <;> simp [hkind]
  unfold Extraction.nameImports
  rw [hall]
  refine LookSame.bind (?_ : LookSame (List.map view.element) _ _) fun named named' hnamed => ?_
  · refine h.partsAt fun part part' hfield htwins => ?_
    refine (htwins.importTarget hkind hfield).bind fun target target' htarget => .ok ?_
    obtain ⟨hname, hnickname⟩ :
        view.imported target.1 = view.imported target'.1 ∧ target.2 = target'.2 := by
      simpa [Prod.ext_iff] using htarget
    simp [View.element, hpath, hname, hnickname, h.alike.line]
  · refine .ok ?_
    split <;> simp [hnamed, View.element, hpath, h.alike.line]

/-- The name of a node that defines something is the same in twins. -/
theorem definedName (h : TwinTrees view around tree other)
    (hkind : tree.kind = .classDefinition ∨ tree.kind = .functionDefinition) :
    LookSame id (Extraction.fieldText tree .name) (Extraction.fieldText other .name) := by
  refine h.fieldText .name rfl ?_
  rcases hkind with hkind | hkind <;> simp [hkind, Kind.hasWordName]

/-- The methods that statements of a class body define have the same names. -/
theorem definedFunction? (h : TwinTrees view around tree other) :
    Option.Rel (fun part part' => LookSame (fun name => [name])
        (Extraction.fieldText part .name) (Extraction.fieldText part' .name))
      (definedFunction? tree) (definedFunction? other) := by
  have hfilter {around : Around} {part part' : Tree} (htwins : TwinTrees view around part part') :
      Option.Rel (fun part part' => LookSame (fun name => [name])
          (Extraction.fieldText part .name) (Extraction.fieldText part' .name))
        ((some part).filter fun definition => definition.kind == .functionDefinition)
        ((some part').filter fun definition => definition.kind == .functionDefinition) := by
    rw [Option.filter_some, Option.filter_some, ← htwins.alike.kind]
    split
    · rename_i hkind
      have hname := htwins.definedName (.inr (by simpa using hkind))
      exact .some (hname.mono fun _ _ => congrArg fun name => [name])
    · exact .none
  unfold Extraction.definedFunction?
  rw [← h.alike.kind]
  split
  · rcases h.part_cases .definition with ⟨hnone, hnone'⟩ | ⟨part, part', hpart, hpart', _, htwins⟩
    · rw [hnone, hnone']
      exact .none
    · rw [hpart, hpart']
      exact hfilter htwins
  · exact hfilter h

/-- What is read off the constructs in a part looks the same if it does for twins and nothing is to
be seen of what is read off idle tokens. -/
theorem constructsOf (h : TwinTrees view around tree other) {β δ : Type} (field : Field)
    (part? : Tree → Option Tree) (step : Tree → Except Fault β) (see : β → List δ)
    (hstep : ∀ inner part part', inner.field = some field → TwinTrees view inner part part' →
      Option.Rel (fun part part' => LookSame see (step part) (step part')) (part? part)
        (part? part'))
    (hidle : ∀ inner watched tree, Around.Idle inner watched tree → ∀ part ∈ part? tree,
      ∃ value, step part = .ok value ∧ see value = []) :
    LookSame (List.flatMap see) (((constructsOf tree field).filterMap part?).mapM step)
      (((constructsOf other field).filterMap part?).mapM step) := by
  unfold Extraction.constructsOf
  rcases h.part_cases field with ⟨hnone, hnone'⟩ | ⟨whole, whole', hwhole, hwhole', hfield, htwins⟩
  · rw [hnone, hnone']
    exact .refl _ _
  simp only [hwhole, hwhole', Option.map_some, Option.getD_some, Tree.namedChildren,
    List.filterMap_filter]
  refine htwins.parts.collect (fun part part' hpart => ?_) fun part watched hone inner hinner => ?_
  · rw [← hpart.alike.isNamed]
    split
    · exact hstep _ part part' hfield hpart
    · exact .none
  · split at hinner
    · obtain ⟨value, hvalue, hsee⟩ := hidle _ watched part hone inner hinner
      exact ⟨value, hvalue, hvalue, hsee⟩
    · simp at hinner

/-- Twins define the same class. -/
theorem classElement (h : TwinTrees view around tree other)
    (hkind : tree.kind = .classDefinition) :
    LookSame view.element (classElement tree) (classElement other) := by
  have hbases := h.constructsOf .superclasses some Extraction.baseName Option.toList
    (fun inner base base' _ htwins =>
      .some (htwins.baseName.mono fun _ _ => congrArg Option.toList))
    (fun inner watched token hone base hbase => by
      obtain rfl : token = base := by simpa using hbase
      exact ⟨none, hone.baseName, rfl⟩)
  have hmethods := h.constructsOf .body Extraction.definedFunction?
    (fun definition => Extraction.fieldText definition .name) (fun name => [name])
    (fun inner statement statement' _ htwins => htwins.definedFunction?)
    (fun inner watched token hone definition hdefinition => by
      simp [hone.definedFunction?] at hdefinition)
  rw [List.filterMap_some, List.filterMap_some] at hbases
  refine (h.definedName (.inl hkind)).andThen fun name => ?_
  refine hbases.bind fun bases bases' hbases => ?_
  refine hmethods.bind fun methods methods' hmethods => .ok ?_
  rw [← List.map_eq_flatMap, ← List.map_eq_flatMap, List.map_id', List.map_id'] at hmethods
  simp [View.element, Sight.element, h.alike.line, List.filterMap_eq_flatMap_toList, hbases,
    hmethods]

/-- A parameter that is a name, with or without stars, looks the same in twins. -/
theorem parameter_textOf (h : TwinTrees view around tree other)
    (haround : around.field = some .parameters ∨ around.kind = .typedParameter)
    (hkind : isParameterName tree.kind = true) :
    view.parameter (textOf tree) = view.parameter (textOf other) := by
  by_cases hname : tree.kind = .identifier
  · rw [h.textOf_eq (by simp [Around.keeps, hname])]
  · apply h.alike.parameter
    simp only [isParameterName, Bool.or_eq_true, beq_iff_eq, hname, false_or] at hkind
    simp [Around.namesParameter, hkind, haround]

/-- The first part that can be the name of a parameter is the same in twins: what stands on one side
alone is none. -/
theorem find?_isParameterName (h : TwinTrees view around tree other) :
    Option.Rel (TwinTrees view (around.inside tree))
      (tree.namedChildren.find? fun child => isParameterName child.kind)
      (other.namedChildren.find? fun child => isParameterName child.kind) := by
  rw [Tree.namedChildren, Tree.namedChildren, List.find?_filter, List.find?_filter]
  refine h.parts.find? (fun part part' hpart => by rw [hpart.isNamed, hpart.kind]) ?_
  intro part watched hone
  rcases hone.kind_eq with hkind | ⟨hkind, _⟩ | hkind | hkind <;> simp [hkind, isParameterName]

/-- The names of parameters look the same in twins. -/
theorem parameterName (h : TwinTrees view around tree other)
    (haround : around.field = some .parameters) :
    LookSame (Option.map view.parameter) (parameterName tree) (parameterName other) := by
  unfold Extraction.parameterName
  rw [← h.alike.kind]
  split
  · rename_i hkind
    exact .ok (congrArg some (h.parameter_textOf (.inl haround) hkind))
  split
  · rename_i htyped
    have hfind := h.find?_isParameterName
    refine .ok ?_
    generalize hpart : (tree.namedChildren.find? fun child => isParameterName child.kind) = first
      at hfind ⊢
    generalize (other.namedChildren.find? fun child => isParameterName child.kind) = second
      at hfind ⊢
    cases hfind with
    | none => rfl
    | some htwins =>
      have hname := List.find?_some hpart
      exact congrArg some (htwins.parameter_textOf (.inr htyped) hname)
  split
  · rename_i hdefault
    refine LookSame.map (?_ : LookSame view.parameter _ _) fun name name' => congrArg some
    rcases hdefault with hdefault | hdefault
    · rw [fieldText_eq, fieldText_eq]
      refine h.ofChild .name (fun part part' _ hfield htwins => ?_) (.error _ _)
      refine .ok (htwins.alike.parameter ?_)
      simp [Around.namesParameter, Around.inside, hdefault, hfield]
    · have hname := h.fieldText .name rfl (by simp [hdefault, Kind.hasWordName])
      exact hname.mono fun _ _ => congrArg view.parameter
  · exact .refl _ _

/-- Twins define the same function. -/
theorem functionElement (h : TwinTrees view around tree other) (scope : Scope)
    (hkind : tree.kind = .functionDefinition) :
    LookSame view.element (functionElement scope tree) (functionElement scope other) := by
  have hargs := h.constructsOf .parameters some Extraction.parameterName
    (fun name => (name.map view.parameter).toList)
    (fun inner part part' hinner htwins =>
      .some ((htwins.parameterName hinner).mono fun _ _ => congrArg Option.toList))
    (fun inner watched token hone part hpart => by
      obtain rfl : token = part := by simpa using hpart
      exact ⟨none, hone.parameterName, rfl⟩)
  have hasync : (tree.children.any fun child =>
        child.kind == .sign && child.text == ['a', 's', 'y', 'n', 'c']) =
      other.children.any fun child =>
        child.kind == .sign && child.text == ['a', 's', 'y', 'n', 'c'] := by
    refine h.parts.any_eq (fun part part' hpart => ?_) fun part watched hone => ?_
    · rw [← hpart.kind]
      by_cases hsign : part.kind = .sign
      · rw [hpart.sign hkind hsign]
      · rw [beq_false_of_ne hsign, Bool.false_and, Bool.false_and]
    · rcases hone.kind_eq with hsign | ⟨_, hcontent⟩ | hsign | hsign
      · simp [hsign]
      · simp [Around.inside, hkind, Kind.isContent] at hcontent
      · simp [hsign]
      · simp [hsign]
  rw [List.filterMap_some, List.filterMap_some] at hargs
  refine (h.definedName (.inr hkind)).andThen fun name => ?_
  refine hargs.bind fun args args' hargs => .ok ?_
  rw [← List.filterMap_eq_flatMap_toList, ← List.filterMap_eq_flatMap_toList] at hargs
  simp [View.element, Sight.element, h.alike.line, List.map_filterMap, hargs, hasync]

/-- One argument adds the same to the shape of a call in twins. -/
theorem add (h : TwinTrees view around tree other) (haround : around.field = some .arguments)
    (tally : ArgumentTally) : LookSame id (tally.add tree) (tally.add other) := by
  have hread : around.reads tree.field = true := by simp [Around.reads, haround]
  unfold ArgumentTally.add
  rw [← h.alike.kind]
  split
  · exact .refl _ _
  · rename_i hkind
    have hname := h.fieldText .name rfl (by simp [hkind, Kind.hasWordName])
    have hvalue : (literalKindAt .value tree.children).getD .unknown =
        (literalKindAt .value other.children).getD .unknown := by
      rw [literalKindAt_eq, literalKindAt_eq]
      rcases h.part_cases .value with ⟨hnone, hnone'⟩ | ⟨part, part', hpart, hpart', hfield, htwins⟩
      · rw [Tree.child?] at hnone hnone'
        rw [hnone, hnone']
      · rw [Tree.child?] at hpart hpart'
        simp [hpart, hpart', htwins.literalKind_eq (by simp [hfield, hkind, Kind.readsPart])]
    refine hname.andThen fun name => ?_
    rw [hvalue]
    exact .refl _ _
  · exact .refl _ _
  · exact .refl _ _
  · rw [h.literalKind_eq hread]
    exact .refl _ _

end TwinTrees

/-- An idle token adds nothing to the shape of a call. -/
theorem Around.Idle.foldlM_add (h : around.Idle watched tree)
    (haround : around.field = some .arguments) (rest : List Tree) (tally : ArgumentTally) :
    ((tree :: rest).filter Tree.isNamed).foldlM ArgumentTally.add tally =
      (rest.filter Tree.isNamed).foldlM ArgumentTally.add tally := by
  cases hnamed : tree.isNamed with
  | false => rw [List.filter_cons_of_neg (by simp [hnamed])]
  | true =>
    rw [List.filter_cons_of_pos hnamed, List.foldlM_cons, ArgumentTally.add,
      h.kind_of_isNamed haround hnamed]
    rfl

/-- Rows of arguments have the same shape. -/
theorem Twins.foldlM_add (h : Twins view around watched row others)
    (haround : around.field = some .arguments) (tally : ArgumentTally) :
    LookSame id ((row.filter Tree.isNamed).foldlM ArgumentTally.add tally)
      ((others.filter Tree.isNamed).foldlM ArgumentTally.add tally) := by
  induction h generalizing tally with
  | nil => exact .refl _ _
  | @node around watched tree other rest others halike hparts _ _ ih =>
    cases hnamed : tree.isNamed with
    | false =>
      rw [List.filter_cons_of_neg (by simp [hnamed]),
        List.filter_cons_of_neg (by simp [← halike.isNamed, hnamed])]
      exact ih haround tally
    | true =>
      rw [List.filter_cons_of_pos hnamed, List.filter_cons_of_pos (halike.isNamed ▸ hnamed),
        List.foldlM_cons, List.foldlM_cons]
      have hfirst := TwinTrees.add ⟨halike, hparts⟩ haround tally
      exact hfirst.andThen fun tally => ih haround tally
  | left htree _ ih =>
    rw [htree.foldlM_add haround]
    exact ih haround tally
  | right hother _ ih =>
    rw [hother.foldlM_add haround]
    exact ih haround tally

namespace TwinTrees

/-- Twins are calls of the same shape. -/
theorem callArguments (h : TwinTrees view around tree other) :
    LookSame id (callArguments (tree.child? .arguments))
      (callArguments (other.child? .arguments)) := by
  rcases h.part_cases .arguments with ⟨hnone, hnone'⟩ | ⟨part, part', hpart, hpart', hfield, htwins⟩
  · rw [hnone, hnone']
    exact .refl _ _
  rw [hpart, hpart']
  unfold Extraction.callArguments
  simp only [← htwins.alike.kind]
  split
  · exact .refl _ _
  · exact (htwins.parts.foldlM_add hfield _).andThen fun tally => .refl _ _

/-- Twins are the same call. -/
theorem callElement (h : TwinTrees view around tree other) (hkind : tree.kind = .call) :
    LookSame view.element (callElement tree) (callElement other) := by
  unfold Extraction.callElement
  rcases h.part_cases .function with
    ⟨hnone, hnone'⟩ | ⟨callee, callee', hcallee, hcallee', hfield, hcallees⟩
  · rw [hnone, hnone']
    exact .error _ _
  simp only [hcallee, hcallee', ← hcallees.alike.kind]
  refine h.callArguments.andThen fun (arguments, argCount, keywordCount) => ?_
  split
  · rename_i hmember
    rcases hcallees.part_cases .object with
      ⟨hnone, hnone'⟩ | ⟨object, object', hobject, hobject', hfield', hobjects⟩
    · rw [hnone, hnone']
      exact .error _ _
    · simp only [hobject, hobject']
      have hrender := hobjects.render (by simp [hmember, hfield', Kind.readsPart])
        (by simp [Around.inside, hmember, Kind.buildsOn])
      refine hrender.andThen fun object => (hcallees.memberName hmember).andThen fun method => ?_
      exact .ok (by simp [View.element, Sight.element, h.alike.line])
  · have hrender := hcallees.render (by simp [hkind, hfield, Kind.readsPart])
      (by simp [Around.inside, hkind, Kind.buildsOn])
    refine hrender.andThen fun name => ?_
    exact .ok (by simp [View.element, Sight.element, h.alike.line])

/-- Twins are the same access to a member. -/
theorem attributeElement (h : TwinTrees view around tree other) (hkind : tree.kind = .member) :
    LookSame view.element (attributeElement tree) (attributeElement other) := by
  unfold Extraction.attributeElement
  rcases h.part_cases .object with
    ⟨hnone, hnone'⟩ | ⟨object, object', hobject, hobject', hfield, hobjects⟩
  · rw [hnone, hnone']
    exact .error _ _
  simp only [hobject, hobject']
  have hrender := hobjects.render (by simp [hkind, hfield, Kind.readsPart])
    (by simp [Around.inside, hkind, Kind.buildsOn])
  refine hrender.andThen fun object => (h.memberName hkind).andThen fun member => .ok ?_
  simp [View.element, Sight.element, h.alike.line]

/-- Twins are the same assignment. -/
theorem assignmentElements (h : TwinTrees view around tree other)
    (hkind : tree.kind = .assignment) :
    LookSame (List.map view.element) (assignmentElements tree) (assignmentElements other) := by
  unfold Extraction.assignmentElements
  rcases h.part_cases .left with ⟨hnone, hnone'⟩ | ⟨left, left', hleft, hleft', _, hlefts⟩
  · rw [hnone, hnone']
    exact .refl _ _
  rcases h.part_cases .right with
    ⟨hnone, hnone'⟩ | ⟨right, right', hright, hright', hfield, hrights⟩
  · rw [hnone, hnone', hleft, hleft']
    exact .refl _ _
  simp only [hleft, hleft', hright, hright', ← hlefts.alike.kind]
  split
  · rename_i hname
    have hcallee := hrights.assignedCallee (by simp [hkind, hfield, Kind.readsPart])
    have hleft := hlefts.textOf_eq (by simp [Around.keeps, hname])
    refine hcallee.andThen fun callee => .ok ?_
    simp [View.element, Sight.element, h.alike.line, hleft]
  · exact .refl _ _

/-- Twins give rise to the same elements. -/
theorem ownElements (h : TwinTrees view around tree other) (scope : Scope) (role : Role) :
    LookSame (List.map view.element) (ownElements scope role tree)
      (ownElements scope role other) := by
  have hone {step step' : Except Fault Element} (hsame : LookSame view.element step step') :
      LookSame (List.map view.element) (step.map fun e => [e]) (step'.map fun e => [e]) :=
    hsame.map fun _ _ => congrArg fun e => [e]
  unfold Extraction.ownElements
  rw [← h.alike.kind]
  split
  · rename_i hkind
    exact h.moduleImports (by simp [hkind, Kind.importsNames])
  · rename_i hkind
    exact h.nameImports (by simp [hkind, Kind.importsNames])
  · rename_i hkind
    exact h.nameImports (by simp [hkind, Kind.importsNames])
  · rename_i hkind
    exact hone (h.classElement hkind)
  · rename_i hkind
    exact hone (h.functionElement scope hkind)
  · rename_i hkind
    exact hone (h.callElement hkind)
  · rename_i hkind
    split
    · exact hone (h.attributeElement hkind)
    · exact .refl _ _
  · rename_i hkind
    exact h.assignmentElements hkind
  · exact .refl _ _

/-- The same part of twins is visited in a way of its own. -/
theorem inside?_eq (h : TwinTrees view around tree other) (scope : Scope) :
    inside? scope tree = inside? scope other := by
  have hname (hkind : tree.kind = .classDefinition ∨ tree.kind = .functionDefinition) :
      (tree.child? .name).map textOf = (other.child? .name).map textOf := by
    rcases h.part_cases .name with ⟨hnone, hnone'⟩ | ⟨part, part', hpart, hpart', hfield, htwins⟩
    · rw [hnone, hnone']
    · have hkeeps : (around.inside tree).keeps part = true := by
        refine Around.keeps_of_isNaming hfield rfl ?_
        rcases hkind with hkind | hkind <;> simp [Around.inside, hkind, Kind.hasWordName]
      simp [hpart, hpart', htwins.textOf_eq hkeeps]
  unfold inside?
  rw [← h.alike.kind]
  split
  · rename_i hkind
    simp only [hname (.inl hkind)]
  · rename_i hkind
    simp only [hname (.inr hkind)]
  · rfl
  · rfl

end TwinTrees

/-- What is seen of the findings of a walk. -/
def Sight.findings (sight : Sight) (found : Findings) : List Element :=
  found.elements.map sight.element

/-- What is seen of the findings of a walk, also of the paths and the names of what is imported. -/
def View.findings (view : View) (found : Findings) : List Element :=
  found.elements.map view.element

/-- Where all is to be seen of paths and names, the rest is as before. -/
@[simp]
theorem Sight.findings_view (sight : Sight) : sight.view.findings = sight.findings := by
  funext found
  simp [View.findings, Sight.findings]

/-- A walk over a tree, with a token taken for a node without parts. -/
theorem visit_eq (scope : Scope) (role : Role) (tree : Tree) :
    LookSame Findings.elements (visit scope role tree) (do
      let own ← ownElements scope role tree
      let rest ← visitAll scope (inside? scope tree) tree.children
      return ⟨own ++ rest.elements, tree.isNamed.toNat + rest.nodes⟩) := by
  cases tree with
  | branch => exact .refl _ _
  | token field kind line blank text =>
    refine LookSame.andThen (.refl id _) fun own => ?_
    exact .ok (by simp)

/-- How the first of a row of parts is visited, and in which way of its own a later one is, by the
role of the first. -/
def visitedAs (scope : Scope) (inside : Option Inside) (field : Option Field) :
    Scope × Role × Option Inside :=
  match inside with
  | some part =>
    if field = some part.field then (part.scope, part.role, none) else (scope, .plain, inside)
  | none => (scope, .plain, none)

/-- A walk over a row is one over its first member and then one over the others. -/
theorem visitAll_cons (scope : Scope) (inside : Option Inside) (tree : Tree) (rest : List Tree) :
    visitAll scope inside (tree :: rest) = do
      let first ← visit (visitedAs scope inside tree.field).1
        (visitedAs scope inside tree.field).2.1 tree
      let more ← visitAll scope (visitedAs scope inside tree.field).2.2 rest
      return ⟨first.elements ++ more.elements, first.nodes + more.nodes⟩ := by
  cases inside with
  | none => rfl
  | some part =>
    simp only [visitAll, visitedAs]
    split <;> rfl

/-- Nothing is found in an idle token. -/
theorem Around.Idle.visitAll_cons (h : around.Idle watched tree) (scope : Scope)
    (inside : Option Inside) (rest : List Tree) :
    LookSame view.findings (visitAll scope inside (tree :: rest))
      (visitAll scope inside rest) := by
  have hplain : visitedAs scope inside tree.field = (scope, .plain, inside) := by
    rw [h.field_eq_none]
    cases inside <;> simp [visitedAs]
  obtain ⟨nodes, hvisit⟩ := h.visit_eq scope
  rw [Extraction.visitAll_cons, hplain, hvisit]
  cases visitAll scope inside rest with
  | error fault => exact .error _ _
  | ok found => exact .ok (by simp [View.findings])

/-- Walks over rows of twins find the same if walks over twins do. -/
theorem Twins.visitAll (h : Twins view around watched row others) (scope : Scope)
    (inside : Option Inside)
    (hvisit : ∀ tree ∈ row, ∀ other, TwinTrees view around tree other → ∀ scope role,
      LookSame view.findings (visit scope role tree) (visit scope role other)) :
    LookSame view.findings (visitAll scope inside row) (visitAll scope inside others) := by
  induction h generalizing inside with
  | nil => exact .refl _ _
  | @node around watched tree other rest others halike hparts _ _ ih =>
    rw [visitAll_cons, visitAll_cons scope inside other, ← halike.field]
    refine (hvisit tree (by simp) other ⟨halike, hparts⟩ _ _).bind fun first first' hfirst => ?_
    have hrest := ih (visitedAs scope inside tree.field).2.2
      fun part hpart => hvisit part (List.mem_cons_of_mem _ hpart)
    refine hrest.bind fun more more' hmore => .ok ?_
    rw [View.findings] at hfirst hmore ⊢
    simp [View.findings, hfirst, hmore]
  | left htree _ ih =>
    refine (htree.visitAll_cons scope inside _).trans ?_
    exact ih inside fun part hpart => hvisit part (List.mem_cons_of_mem _ hpart)
  | right hother _ ih =>
    exact (ih inside hvisit).trans (hother.visitAll_cons scope inside _).symm

/-- Walks over twins find the same. -/
theorem TwinTrees.visit (h : TwinTrees view around tree other) (scope : Scope) (role : Role) :
    LookSame view.findings (visit scope role tree) (visit scope role other) := by
  induction tree using Tree.children_induction generalizing around other scope role with
  | node tree ih =>
    have hseen (tree : Tree) : LookSame view.findings (Extraction.visit scope role tree) (do
        let own ← Extraction.ownElements scope role tree
        let rest ← visitAll scope (inside? scope tree) tree.children
        return ⟨own ++ rest.elements, tree.isNamed.toNat + rest.nodes⟩) :=
      (visit_eq scope role tree).mono fun _ _ => congrArg (List.map view.element)
    refine (hseen tree).trans (.trans ?_ (hseen other).symm)
    rw [← h.inside?_eq]
    refine (h.ownElements scope role).bind fun own own' hown => ?_
    refine (h.parts.visitAll scope _ fun part hpart other htwins => ih part hpart htwins).bind
      fun rest rest' hrest => .ok ?_
    rw [View.findings] at hrest ⊢
    simp [View.findings, hown, hrest]

/-- If all is seen of the elements, all of them is seen. -/
@[simp]
theorem Sight.findings_full : Sight.full.findings = Findings.elements := by
  have helement : Sight.full.element = id := by
    funext element
    cases element <;> simp [Sight.full, Sight.element]
  funext found
  simp [Sight.findings, helement]

/-- Twins have the same elements. -/
theorem TwinTrees.extract (h : TwinTrees view .top tree other) :
    LookSame view.findings (extract tree) (extract other) :=
  h.visit [] .plain

end Extraction

end UsageAudit

import UsageAudit.Proofs.NodeReadings
import UsageAudit.Proofs.TreeShape

/-!
# Trees that look alike

The walk over a tree looks at little of it: the kinds and roles of its nodes, the texts of names and
of the patterns of parameters, the letters in front of a text literal. Two trees that agree in what
is looked at give rise to the same elements, even if nodes that nothing looks at stand in the one
and not in the other. This file says so once, for any reason why two trees look alike.
-/

namespace UsageAudit

namespace Script

/-- Whether a node of this kind holds the characters of a text literal. -/
def Kind.isContent : Kind → Bool
  | .stringContent | .formatSpecifier => true
  | _ => false

/-- Whether a token of this kind is a piece of the content of a text literal. -/
def Kind.isPiece : Kind → Bool
  | .sign | .escapeSequence | .escapeInterpolation => true
  | _ => false

/-- Whether something is to be read off a part of a node of this kind. `read` says whether something
is to be read off the node itself. -/
def Kind.readsPart (kind : Kind) (read : Bool) (field : Option Field) : Bool :=
  match kind, field with
  | .call, some .function | .member, some .object | .assignment, some .right
  | .keywordArgument, some .value => true
  | .subscript, some .value | .unaryOperator, some .argument => read
  | .parenthesized, _ | .awaitExpression, _ => read
  | _, _ => false

end Script

namespace Extraction

open Script (Tree Kind Field)

/-- What is to be seen of the elements: of their lines, and of the names of parameters. -/
structure Sight where
  line : Nat → Nat
  parameter : String → String

/-- An element as far as it is to be seen. -/
def Sight.element (sight : Sight) : Element → Element
  | .ofImport e => .ofImport { e with line := sight.line e.line }
  | .classDef e => .classDef { e with line := sight.line e.line }
  | .functionDef e =>
    .functionDef { e with args := e.args.map sight.parameter, line := sight.line e.line }
  | .methodCall e => .methodCall { e with line := sight.line e.line }
  | .functionCall e => .functionCall { e with line := sight.line e.line }
  | .attributeAccess e => .attributeAccess { e with line := sight.line e.line }
  | .variableAssign e => .variableAssign { e with line := sight.line e.line }

/-- All is to be seen. -/
def Sight.full : Sight := ⟨id, id⟩

/-- All is to be seen but the names of parameters: only how many there are. -/
def Sight.namesAside : Sight := ⟨id, fun _ => ""⟩

/-- All is to be seen but the lines. -/
def Sight.linesAside : Sight := ⟨fun _ => 0, id⟩

/-- What is to be seen of the elements: besides what `Sight` says, of the paths and the names of
what is imported. -/
structure View extends Sight where
  imported : String → String

/-- An element as far as it is to be seen. -/
def View.element (view : View) : Element → Element
  | .ofImport e => .ofImport { e with
      path := view.imported e.path
      name := e.name.map view.imported
      line := view.line e.line }
  | e => view.toSight.element e

/-- All is to be seen of paths and names. -/
def Sight.view (sight : Sight) : View := ⟨sight, id⟩

/-- Where all is to be seen of paths and names, the rest is as before. -/
@[simp]
theorem Sight.element_view (sight : Sight) : sight.view.element = sight.element := by
  funext element
  cases element <;> simp [view, View.element, element]

/-- Whether two steps both fail, or give values of which the same is to be seen. -/
def LookSame {α γ : Type} (see : α → γ) (first second : Except Fault α) : Prop :=
  first.toOption.map see = second.toOption.map see

namespace LookSame

variable {α β γ δ : Type} {see : α → γ} {see' : β → δ} {first second : Except Fault α}

/-- A step looks the same as itself. -/
theorem refl (see : α → γ) (step : Except Fault α) : LookSame see step step := rfl

/-- Looking the same can be read from either side. -/
theorem symm (h : LookSame see first second) : LookSame see second first := Eq.symm h

/-- Steps that look the same as a third one. -/
theorem trans {third : Except Fault α} (h : LookSame see first second)
    (h' : LookSame see second third) : LookSame see first third :=
  Eq.trans h h'

/-- Two values of which the same is to be seen. -/
theorem ok {value value' : α} (h : see value = see value') :
    LookSame see (.ok value) (.ok value') :=
  congrArg some h

/-- Two steps that fail. -/
theorem error (fault fault' : Fault) : LookSame see (.error fault) (.error fault') := rfl

/-- Two steps that look the same both fail or both give something. -/
theorem cases_of (h : LookSame see first second) :
    (∃ fault fault', first = .error fault ∧ second = .error fault') ∨
      ∃ value value', first = .ok value ∧ second = .ok value' ∧ see value = see value' := by
  cases first with
  | error fault =>
    cases second with
    | error fault' => exact .inl ⟨fault, fault', rfl, rfl⟩
    | ok value' => simp [LookSame, Except.toOption] at h
  | ok value =>
    cases second with
    | error fault' => simp [LookSame, Except.toOption] at h
    | ok value' =>
      exact .inr ⟨value, value', rfl, rfl, by simpa [LookSame, Except.toOption] using h⟩

/-- One step after the other: the second sees no more of the first than is to be seen. -/
theorem bind (h : LookSame see first second) {next next' : α → Except Fault β}
    (hnext : ∀ value value', see value = see value' →
      LookSame see' (next value) (next' value')) :
    LookSame see' (first >>= next) (second >>= next') := by
  obtain ⟨fault, fault', rfl, rfl⟩ | ⟨value, value', rfl, rfl, hsee⟩ := h.cases_of
  · exact error fault fault'
  · exact hnext value value' hsee

/-- One step after the other, where all is seen of what the first gives. -/
theorem andThen (h : LookSame id first second) {next next' : α → Except Fault β}
    (hnext : ∀ value, LookSame see' (next value) (next' value)) :
    LookSame see' (first >>= next) (second >>= next') := by
  refine h.bind fun value value' hvalue => ?_
  obtain rfl : value = value' := hvalue
  exact hnext value

/-- Less is to be seen of two steps that look the same. -/
theorem mono (h : LookSame see first second) {less : α → δ}
    (hless : ∀ value value', see value = see value' → less value = less value') :
    LookSame less first second := by
  obtain ⟨fault, fault', rfl, rfl⟩ | ⟨value, value', rfl, rfl, hsee⟩ := h.cases_of
  · exact error fault fault'
  · exact ok (hless value value' hsee)

/-- A function of what a step gives. -/
theorem map (h : LookSame see first second) {f f' : α → β}
    (hf : ∀ value value', see value = see value' → see' (f value) = see' (f' value')) :
    LookSame see' (first.map f) (second.map f') := by
  obtain ⟨fault, fault', rfl, rfl⟩ | ⟨value, value', rfl, rfl, hsee⟩ := h.cases_of
  · exact error fault fault'
  · exact ok (hf value value' hsee)

end LookSame

/-- The node around a row of trees, as far as it decides what is looked at in them. -/
structure Around where
  field : Option Field
  kind : Kind
  /-- Whether something is to be read off the node: its type, its rendering or what it calls. -/
  read : Bool

namespace Around

/-- What is around a whole script. -/
def top : Around := ⟨none, .script, false⟩

/-- Whether something is to be read off a part in the given role. -/
def reads (around : Around) (field : Option Field) : Bool :=
  around.field == some .arguments || around.kind.readsPart around.read field

/-- What is around the parts of a part. -/
def inside (around : Around) (tree : Tree) : Around :=
  ⟨tree.field, tree.kind, around.reads tree.field⟩

@[simp]
theorem reads_inside (around : Around) (tree : Tree) (field : Option Field) :
    (around.inside tree).reads field =
      (tree.field == some .arguments ||
        tree.kind.readsPart (around.reads tree.field) field) := rfl

/-- Whether it matters which construct comes first in the row: what is read off parentheses is read
off that one. -/
def watches (around : Around) : Bool :=
  around.read && (around.kind == .parenthesized || around.kind == .awaitExpression)

/-- Whether the text of a part may get into an element. -/
def copies (around : Around) (tree : Tree) : Bool :=
  tree.kind == .identifier || tree.kind == .dottedName ||
    (tree.field.any Field.isNaming && around.kind != .defaultParameter &&
      !(around.kind.importsNames && tree.field == some .name && tree.kind == .aliasedImport))

/-- Whether the text of a part gets into an element as it is, if it gets there: of parsed scripts
these are the texts of single tokens. -/
def keeps (around : Around) (tree : Tree) : Bool :=
  tree.kind == .identifier || around.kind.buildsOn && tree.kind == .dottedName ||
    around.kind.hasWordName && tree.isNaming ||
    around.kind == .aliasedImport && tree.field == some .nickname

/-- Whether the text of a part becomes the path or the name of what is imported. -/
def imports (around : Around) (tree : Tree) : Bool :=
  around.kind.importsNames &&
      (tree.field == some .moduleName || tree.field == some .name && tree.kind != .aliasedImport) ||
    around.kind == .aliasedImport && tree.field == some .name

/-- Whether the text of a part may become the name of a parameter without being a name. -/
def namesParameter (around : Around) (tree : Tree) : Bool :=
  (tree.kind == .listSplatPattern || tree.kind == .dictionarySplatPattern) &&
      (around.field == some .parameters || around.kind == .typedParameter) ||
    around.kind == .defaultParameter && tree.field == some .name

/-- Whether the text of a part gets into an element as it is written, though it may hold more than
one token. -/
def spreads (around : Around) (tree : Tree) : Bool :=
  around.imports tree || around.namesParameter tree

/-- Whether a walk passes over a tree without finding anything in it: a comment where nothing
depends on the first construct, or a piece of the content of a text literal. -/
def Idle (around : Around) (watched : Bool) (tree : Tree) : Prop :=
  ∃ kind line blank text, tree = .token none kind line blank text ∧
    (kind = .comment ∧ watched = false ∨
      kind.isPiece = true ∧ around.kind.isContent = true ∧ around.field = none)

end Around

/-- Whether the walk sees the same at the tops of two trees. -/
structure Alike (view : View) (around : Around) (tree other : Tree) : Prop where
  field : tree.field = other.field
  kind : tree.kind = other.kind
  isToken : tree.isToken = other.isToken
  line : view.line tree.line = view.line other.line
  kept : around.keeps tree = true → tree.text = other.text
  imported : around.imports tree = true →
    view.imported (textOf tree) = view.imported (textOf other)
  parameter : around.namesParameter tree = true →
    view.parameter (textOf tree) = view.parameter (textOf other)
  sign : around.kind = .functionDefinition → tree.kind = .sign → tree.text = other.text
  number : tree.kind = .integer ∨ tree.kind = .float →
    isImaginary tree.text = isImaginary other.text
  opening : tree.kind = .string → isBytesPrefix (firstText tree) = isBytesPrefix (firstText other)

/-- Whether the walk sees the same in two rows of trees: one of them may hold idle tokens that the
other does not. `watched` says whether it still matters which construct comes first. -/
inductive Twins (view : View) : Around → Bool → List Tree → List Tree → Prop
  | nil {around : Around} {watched : Bool} : Twins view around watched [] []
  | node {around : Around} {watched : Bool} {tree other : Tree} {rest others : List Tree} :
      Alike view around tree other →
      Twins view (around.inside tree) (around.inside tree).watches tree.children other.children →
      Twins view around (watched && !tree.isNamed) rest others →
      Twins view around watched (tree :: rest) (other :: others)
  | left {around : Around} {watched : Bool} {tree : Tree} {rest others : List Tree} :
      around.Idle watched tree → Twins view around watched rest others →
      Twins view around watched (tree :: rest) others
  | right {around : Around} {watched : Bool} {other : Tree} {rest others : List Tree} :
      around.Idle watched other → Twins view around watched rest others →
      Twins view around watched rest (other :: others)

/-- Whether the walk sees the same in two trees. -/
structure TwinTrees (view : View) (around : Around) (tree other : Tree) : Prop where
  alike : Alike view around tree other
  parts : Twins view (around.inside tree) (around.inside tree).watches tree.children
    other.children

variable {view : View} {around : Around} {watched : Bool} {tree other : Tree}
  {row others : List Tree}

namespace Around.Idle

/-- An idle token has no role. -/
theorem field_eq_none (h : around.Idle watched tree) : tree.field = none := by
  obtain ⟨kind, line, blank, text, rfl, _⟩ := h
  rfl

/-- An idle token is a comment or a piece of the content of a text literal. -/
theorem kind_eq (h : around.Idle watched tree) :
    tree.kind = .comment ∨ tree.kind = .sign ∧ around.kind.isContent = true ∨
      tree.kind = .escapeSequence ∨ tree.kind = .escapeInterpolation := by
  obtain ⟨kind, line, blank, text, rfl, ⟨rfl, _⟩ | ⟨hpiece, hcontent, _⟩⟩ := h
  · exact .inl rfl
  · cases kind <;> simp_all [Kind.isPiece, Tree.kind]

/-- Where it matters which construct comes first, no idle token is a construct. -/
theorem isNamed_eq_false (h : around.Idle true tree) (hwatch : around.watches = true) :
    tree.isNamed = false := by
  obtain ⟨kind, line, blank, text, rfl, ⟨rfl, hfalse⟩ | ⟨hpiece, hcontent, _⟩⟩ := h
  · simp at hfalse
  · simp only [watches, Bool.and_eq_true, Bool.or_eq_true, beq_iff_eq] at hwatch
    rcases hwatch.2 with hkind | hkind <;> simp [hkind, Kind.isContent] at hcontent

/-- Among the arguments of a call every idle construct is a comment. -/
theorem kind_of_isNamed (h : around.Idle watched tree) (hfield : around.field = some .arguments)
    (hnamed : tree.isNamed = true) : tree.kind = .comment := by
  obtain ⟨kind, line, blank, text, rfl, ⟨rfl, _⟩ | ⟨_, _, hnone⟩⟩ := h
  · rfl
  · simp [hfield] at hnone

/-- An idle token is no base class. -/
theorem baseName (h : around.Idle watched tree) : baseName tree = .ok none := by
  obtain ⟨kind, line, blank, text, rfl, _⟩ := id h
  rcases h.kind_eq with rfl | ⟨rfl, _⟩ | rfl | rfl <;> rfl

/-- An idle token names no parameter. -/
theorem parameterName (h : around.Idle watched tree) : parameterName tree = .ok none := by
  obtain ⟨kind, line, blank, text, rfl, _⟩ := id h
  rcases h.kind_eq with rfl | ⟨rfl, _⟩ | rfl | rfl <;> rfl

/-- An idle token defines no function. -/
theorem definedFunction? (h : around.Idle watched tree) : definedFunction? tree = none := by
  obtain ⟨kind, line, blank, text, rfl, _⟩ := id h
  rcases h.kind_eq with rfl | ⟨rfl, _⟩ | rfl | rfl <;> rfl

/-- Nothing is found in an idle token. -/
theorem visit_eq (h : around.Idle watched tree) (scope : Scope) :
    ∃ nodes, visit scope .plain tree = .ok ⟨[], nodes⟩ := by
  obtain ⟨kind, line, blank, text, rfl, _⟩ := id h
  rcases h.kind_eq with rfl | ⟨rfl, _⟩ | rfl | rfl <;> exact ⟨_, rfl⟩

end Around.Idle

/-- Whether a tree is a construct is seen. -/
theorem Alike.isNamed (h : Alike view around tree other) : tree.isNamed = other.isNamed := by
  simp [Tree.isNamed, h.kind]

/-- The first parts that pass a test look alike if the test sees no more than the walk and no idle
token passes it. -/
theorem Twins.find? (h : Twins view around watched row others) {test : Tree → Bool}
    (htest : ∀ tree other, Alike view around tree other → test tree = test other)
    (hidle : ∀ tree watched, around.Idle watched tree → test tree = false) :
    Option.Rel (TwinTrees view around) (row.find? test) (others.find? test) := by
  induction h with
  | nil => exact .none
  | @node around watched tree other rest others halike hparts _ _ ih =>
    rw [List.find?_cons, List.find?_cons, htest tree other halike]
    cases test other with
    | true => exact .some ⟨halike, hparts⟩
    | false => exact ih htest hidle
  | @left around watched tree rest others htree _ ih =>
    simpa [hidle tree watched htree] using ih htest hidle
  | @right around watched other rest others hother _ ih =>
    simpa [hidle other watched hother] using ih htest hidle

/-- The first constructs look alike where it matters which one comes first. -/
theorem Twins.find?_isNamed (h : Twins view around true row others)
    (hwatch : around.watches = true) :
    Option.Rel (TwinTrees view around) (row.find? Tree.isNamed) (others.find? Tree.isNamed) := by
  generalize hwatched : true = watched at h
  induction h with
  | nil => exact .none
  | @node around watched tree other rest others halike hparts _ _ ih =>
    rw [List.find?_cons, List.find?_cons, ← halike.isNamed]
    cases hnamed : tree.isNamed with
    | true => exact .some ⟨halike, hparts⟩
    | false => exact ih hwatch (by simp [← hwatched, hnamed])
  | left htree _ ih =>
    subst hwatched
    simpa [htree.isNamed_eq_false hwatch] using ih hwatch rfl
  | right hother _ ih =>
    subst hwatched
    simpa [hother.isNamed_eq_false hwatch] using ih hwatch rfl

namespace TwinTrees

/-- The parts of twins in a role look alike. -/
theorem child? (h : TwinTrees view around tree other) (field : Field) :
    Option.Rel (TwinTrees view (around.inside tree)) (tree.child? field) (other.child? field) := by
  refine h.parts.find? ?_ ?_
  · intro part part' halike
    simp [halike.field]
  · intro part watched hidle
    simp [hidle.field_eq_none]

/-- The first constructs in parentheses look alike if something is read off them. -/
theorem first? (h : TwinTrees view around tree other)
    (hwatch : (around.inside tree).watches = true) :
    Option.Rel (TwinTrees view (around.inside tree)) (tree.children.find? Tree.isNamed)
      (other.children.find? Tree.isNamed) := by
  have hparts := h.parts
  rw [hwatch] at hparts
  exact hparts.find?_isNamed hwatch

end TwinTrees

/-- A part that may be absent: what is read off it looks the same if the parts look alike. -/
theorem LookSame.ofPart {β δ : Type} {see : β → δ} {related : Tree → Tree → Prop}
    {part part' : Option Tree} {step step' : Tree → Except Fault β}
    {otherwise otherwise' : Except Fault β} (h : Option.Rel related part part')
    (hstep : ∀ tree other, part = some tree → related tree other →
      LookSame see (step tree) (step' other))
    (hnone : LookSame see otherwise otherwise') :
    LookSame see ((part.map step).getD otherwise) ((part'.map step').getD otherwise') := by
  cases h with
  | none => exact hnone
  | some hpart => exact hstep _ _ rfl hpart

/-- The names of what is called by a single name are kept. -/
theorem Around.keeps_of_isNaming {part : Tree} {field : Field} (hfield : part.field = some field)
    (hnaming : field.isNaming = true) (hkind : around.kind.hasWordName = true) :
    around.keeps part = true := by
  simp [Around.keeps, Tree.isNaming, hfield, hnaming, hkind]

/-- What is kept may get into an element. -/
theorem Around.copies_of_keeps (h : around.keeps tree = true) : around.copies tree = true := by
  obtain ⟨field, kind, read⟩ := around
  simp only [keeps, Bool.or_eq_true, Bool.and_eq_true, beq_iff_eq] at h
  rcases h with ((hname | ⟨-, hdotted⟩) | ⟨hword, hnaming⟩) | ⟨halias, hnickname⟩
  · simp [copies, hname]
  · simp [copies, hdotted]
  · rw [Tree.isNaming] at hnaming
    cases kind <;> simp_all [copies, Kind.hasWordName, Kind.importsNames]
  · simp [copies, halias, hnickname, Field.isNaming]

/-- What is imported may get into an element. -/
theorem Around.copies_of_imports (h : around.imports tree = true) : around.copies tree = true := by
  obtain ⟨field, kind, read⟩ := around
  simp only [imports, Bool.or_eq_true, Bool.and_eq_true, beq_iff_eq, bne_iff_ne] at h
  rcases h with ⟨himports, hfield | ⟨hfield, halias⟩⟩ | ⟨halias, hfield⟩
  · cases kind <;> simp_all [copies, Kind.importsNames, Field.isNaming]
  · cases kind <;> simp_all [copies, Kind.importsNames, Field.isNaming]
  · simp [copies, halias, hfield, Field.isNaming, Kind.importsNames]

namespace TwinTrees

/-- A text that gets into an element as it is is the same in twins. -/
theorem textOf_eq (h : TwinTrees view around tree other) (hkeeps : around.keeps tree = true) :
    textOf tree = textOf other := by
  rw [textOf, textOf, h.alike.kept hkeeps]

/-- What is read off the part in a role looks the same if it does for twins. -/
theorem ofChild (h : TwinTrees view around tree other) (field : Field) {β δ : Type} {see : β → δ}
    {step step' : Tree → Except Fault β} {otherwise otherwise' : Except Fault β}
    (hstep : ∀ part part', part ∈ tree.children → part.field = some field →
      TwinTrees view (around.inside tree) part part' → LookSame see (step part) (step' part'))
    (hnone : LookSame see otherwise otherwise') :
    LookSame see (((tree.child? field).map step).getD otherwise)
      (((other.child? field).map step').getD otherwise') := by
  refine .ofPart (h.child? field) (fun part part' hpart htwins => ?_) hnone
  obtain ⟨hmem, hfield⟩ := Tree.of_child? hpart
  exact hstep part part' hmem hfield htwins

/-- What is read off the first construct in parentheses looks the same if it does for twins of which
something is to be read. -/
theorem ofFirst (h : TwinTrees view around tree other) (hread : around.reads tree.field = true)
    (hkind : tree.kind = .parenthesized ∨ tree.kind = .awaitExpression) {β δ : Type}
    {see : β → δ} {step : Tree → Except Fault β} {otherwise : Except Fault β}
    (hstep : ∀ part part', part ∈ tree.children → (around.inside tree).reads part.field = true →
      TwinTrees view (around.inside tree) part part' → LookSame see (step part) (step part')) :
    LookSame see (((tree.children.find? Tree.isNamed).map step).getD otherwise)
      (((other.children.find? Tree.isNamed).map step).getD otherwise) := by
  have hwatch : (around.inside tree).watches = true := by
    rcases hkind with hkind | hkind <;> simp [Around.watches, Around.inside, hkind, hread]
  refine .ofPart (h.first? hwatch) (fun part part' hpart htwins => ?_) (.refl _ _)
  refine hstep part part' (List.mem_of_find?_eq_some hpart) ?_ htwins
  rcases hkind with hkind | hkind <;> simp [hkind, hread, Kind.readsPart]

/-- The text of a part looks the same in twins if it does for the part. -/
theorem fieldText_of (h : TwinTrees view around tree other) (field : Field) {δ : Type}
    {see : String → δ}
    (hpart : ∀ part part', part.field = some field →
      TwinTrees view (around.inside tree) part part' → see (textOf part) = see (textOf part')) :
    LookSame see (fieldText tree field) (fieldText other field) := by
  rw [fieldText_eq, fieldText_eq]
  exact h.ofChild field (fun part part' _ hfield htwins => .ok (hpart part part' hfield htwins))
    (.error _ _)

/-- The single name of a node is the same in twins. -/
theorem fieldText (h : TwinTrees view around tree other) (field : Field)
    (hnaming : field.isNaming = true) (hkind : tree.kind.hasWordName = true) :
    LookSame id (Extraction.fieldText tree field) (Extraction.fieldText other field) :=
  h.fieldText_of field fun _ _ hfield htwins =>
    htwins.textOf_eq (Around.keeps_of_isNaming hfield hnaming hkind)

/-- The name of a member is the same in twins. -/
theorem memberName (h : TwinTrees view around tree other) (hkind : tree.kind = .member) :
    LookSame id (Extraction.fieldText tree .memberName)
      (Extraction.fieldText other .memberName) :=
  h.fieldText .memberName rfl (by simp [hkind, Kind.hasWordName])

/-- Twins have the same type if it is asked for. -/
theorem literalKind_eq (h : TwinTrees view around tree other)
    (hread : around.reads tree.field = true) : literalKind tree = literalKind other := by
  induction tree using Tree.children_induction generalizing around other with
  | node tree ih =>
    rw [Extraction.literalKind_eq, Extraction.literalKind_eq other, ← h.alike.kind,
      ← h.alike.isToken]
    have hpart (part : Option Tree) (part' : Option Tree) (kind : ArgKind)
        (hrel : Option.Rel (TwinTrees view (around.inside tree)) part part')
        (hmem : ∀ child ∈ part, child ∈ tree.children ∧
          (around.inside tree).reads child.field = true) :
        (part.map literalKind).getD kind = (part'.map literalKind).getD kind := by
      cases hrel with
      | none => rfl
      | some htwins =>
        obtain ⟨hchild, hreads⟩ := hmem _ rfl
        exact ih _ hchild htwins hreads
    apply literalKindOf_congr
    · exact h.alike.number
    · exact h.alike.opening
    · intro hkind
      refine hpart _ _ _ (h.child? .argument) fun child hchild => ?_
      have hfield : child.field = some .argument := by simpa using List.find?_some hchild
      refine ⟨List.mem_of_find?_eq_some hchild, ?_⟩
      simp [hkind, hfield, hread, Kind.readsPart]
    · intro hkind
      refine hpart _ _ _ (h.first? ?_) fun child hchild => ?_
      · simp [Around.watches, Around.inside, hkind, hread]
      · refine ⟨List.mem_of_find?_eq_some hchild, ?_⟩
        simp [hkind, hread, Kind.readsPart]

/-- Twins have the same tag if it is asked for. -/
theorem tagOf_eq (h : TwinTrees view around tree other)
    (hread : around.reads tree.field = true) : tagOf tree = tagOf other := by
  rw [tagOf, tagOf, h.literalKind_eq hread, h.alike.kind]

/-- Twins are rendered in the same way if their rendering is asked for by a node that is built on
them. -/
theorem render (h : TwinTrees view around tree other) (hread : around.reads tree.field = true)
    (hbase : around.kind.buildsOn = true) : LookSame id (render tree) (render other) := by
  induction tree using Tree.children_induction generalizing around other with
  | node tree ih =>
    have hkind := h.alike.kind
    by_cases hname : tree.kind = .identifier ∨ tree.kind = .dottedName
    · rw [render_of_name hname, render_of_name (hkind ▸ hname)]
      refine .ok (h.textOf_eq ?_)
      rcases hname with hname | hname <;> simp [Around.keeps, hname, hbase]
    by_cases hmember : tree.kind = .member
    · rw [render_of_member hmember, render_of_member (hkind ▸ hmember)]
      refine (h.ofChild .object ?_ (.refl _ _)).andThen fun object => ?_
      · intro part part' hmem hfield htwins
        exact ih part hmem htwins (by simp [hmember, hfield, Kind.readsPart])
          (by simp [Around.inside, hmember, Kind.buildsOn])
      · exact (h.memberName hmember).andThen fun name => .refl _ _
    by_cases hcall : tree.kind = .call
    · rw [render_of_call hcall, render_of_call (hkind ▸ hcall)]
      refine h.ofChild .function (fun part part' hmem hfield htwins => ?_) (.refl _ _)
      refine (ih part hmem htwins (by simp [hcall, hfield, Kind.readsPart]) ?_).map (by simp)
      simp [Around.inside, hcall, Kind.buildsOn]
    by_cases hsubscript : tree.kind = .subscript
    · rw [render_of_subscript hsubscript, render_of_subscript (hkind ▸ hsubscript)]
      refine h.ofChild .value (fun part part' hmem hfield htwins => ?_) (.refl _ _)
      have hvalue := ih part hmem htwins (by simp [hsubscript, hfield, hread, Kind.readsPart])
        (by simp [Around.inside, hsubscript, Kind.buildsOn])
      exact hvalue.map (by simp)
    by_cases hinside : tree.kind = .parenthesized ∨ tree.kind = .awaitExpression
    · rw [render_of_parenthesized hinside, render_of_parenthesized (hkind ▸ hinside)]
      refine h.ofFirst hread hinside fun part part' hmem hreads htwins =>
        ih part hmem htwins hreads ?_
      rcases hinside with hinside | hinside <;> simp [Around.inside, hinside, Kind.buildsOn]
    have hother : isRendered tree.kind = false := by
      cases hcase : tree.kind <;> simp_all [isRendered]
    rw [render_of_other hother, render_of_other (hkind ▸ hother)]
    exact .ok (h.tagOf_eq hread)

/-- Twins have the same dotted name as base classes. -/
theorem baseName (h : TwinTrees view around tree other) :
    LookSame id (baseName tree) (baseName other) := by
  induction tree using Tree.children_induction generalizing around other with
  | node tree ih =>
    rw [baseName_eq, baseName_eq, ← h.alike.kind]
    split
    · rename_i hname
      exact .ok (congrArg some (h.textOf_eq (by simp [Around.keeps, hname])))
    · split
      · rename_i hmember
        refine h.ofChild .object (fun part part' hmem _ htwins => ?_) (.refl _ _)
        refine (ih part hmem htwins).andThen fun object => ?_
        cases object with
        | none => exact .refl _ _
        | some start => exact (h.memberName hmember).andThen fun name => .refl _ _
      · exact .refl _ _

/-- What is called on the right side of an assignment is the same in twins. -/
theorem assignedCallee (h : TwinTrees view around tree other)
    (hread : around.reads tree.field = true) :
    LookSame id (assignedCallee tree) (assignedCallee other) := by
  induction tree using Tree.children_induction generalizing around other with
  | node tree ih =>
    rw [assignedCallee_eq, assignedCallee_eq, ← h.alike.kind]
    split
    · rename_i hcall
      refine h.ofChild .function (fun part part' _ hfield htwins => ?_) (.refl _ _)
      refine (htwins.render (by simp [hcall, hfield, Kind.readsPart]) ?_).map (by simp)
      simp [Around.inside, hcall, Kind.buildsOn]
    split
    · rename_i hassign
      refine h.ofChild .right (fun part part' hmem hfield htwins => ?_) (.refl _ _)
      exact ih part hmem htwins (by simp [hassign, hfield, Kind.readsPart])
    split
    · rename_i hinside
      exact h.ofFirst hread hinside fun part part' hmem hreads htwins => ih part hmem htwins hreads
    · exact .refl _ _

end TwinTrees

end Extraction

end UsageAudit

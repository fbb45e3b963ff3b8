import UsageAudit.Proofs.LetterCase
import UsageAudit.Proofs.NodeReadings
import UsageAudit.Proofs.PlainScripts

/-!
# Chains of names

What is called or accessed is kept as a text, and what it refers to is found by that text alone. Only
a chain of names, in whatever parentheses, leaves a text that refers to anything: whatever else there
is in an expression leaves a bracket or a tag, which stands in no identifier. So nothing but a chain
of names is looked up, and that under the path of its first name with its members behind.
-/

namespace UsageAudit

namespace Dotted

/-- The segments on both sides of a dot. -/
theorem segments_append_cons (text rest : List Char) :
    segments (text ++ '.' :: rest) = segments text ++ segments rest := by
  induction text with
  | nil => simp [segments]
  | cons c text ih =>
    by_cases hdot : c = '.'
    · simp [segments, hdot, ih]
    · obtain ⟨first, more, hsegments⟩ := List.exists_cons_of_ne_nil (segments_ne_nil text)
      simp [segments, hdot, ih, hsegments]

/-- What is in a text and is no dot is in one of its segments. -/
theorem exists_segment_of_mem {text : List Char} {c : Char} (hdot : c ≠ '.') (h : c ∈ text) :
    ∃ segment ∈ segments text, c ∈ segment := by
  obtain ⟨front, back, rfl⟩ := List.append_of_mem h
  clear h
  induction front with
  | nil =>
    obtain ⟨first, more, hsegments⟩ := List.exists_cons_of_ne_nil (segments_ne_nil back)
    exact ⟨c :: first, by simp [segments, hdot, hsegments], by simp⟩
  | cons d front ih =>
    obtain ⟨segment, hsegment, hmem⟩ := ih
    by_cases hd : d = '.'
    · exact ⟨segment, by simp [segments, hd, hsegment], hmem⟩
    · obtain ⟨first, more, hsegments⟩ :=
        List.exists_cons_of_ne_nil (segments_ne_nil (front ++ c :: back))
      rw [hsegments] at hsegment
      rcases List.mem_cons.mp hsegment with rfl | hlater
      · exact ⟨d :: segment, by simp [segments, hd, hsegments], List.mem_cons_of_mem _ hmem⟩
      · exact ⟨segment, by simp [segments, hd, hsegments, hlater], hmem⟩

/-- Whether all segments of a text are identifiers. -/
def IsChain (text : List Char) : Prop := ∀ segment ∈ segments text, isIdentifier segment = true

/-- Texts on both sides of a dot. -/
theorem isChain_append_cons {text rest : List Char} :
    IsChain (text ++ '.' :: rest) ↔ IsChain text ∧ IsChain rest := by
  simp [IsChain, segments_append_cons, or_imp, forall_and]

/-- The characters of an identifier can stand in one. -/
theorem mem_isIdentifier {segment : List Char} (h : isIdentifier segment = true) {c : Char}
    (hc : c ∈ segment) : startsIdentifier c = true ∨ continuesIdentifier c = true := by
  cases segment with
  | nil => cases hc
  | cons first rest =>
    obtain ⟨hfirst, hrest⟩ := Bool.and_eq_true_iff.mp h
    rcases List.mem_cons.mp hc with rfl | hmem
    · exact .inl hfirst
    · exact .inr (List.all_eq_true.mp hrest c hmem)

/-- The marks of whatever is no chain of names: those of tags, of calls and of subscripts. -/
def isMark (c : Char) : Bool := c == '<' || c == '(' || c == '['

/-- A text with a mark in it has a segment that is no identifier. -/
theorem not_isChain_of_isMark {text : List Char} {c : Char} (hc : isMark c = true)
    (hmem : c ∈ text) : ¬IsChain text := by
  have hcases : c = '<' ∨ c = '(' ∨ c = '[' := by simpa [isMark, or_assoc] using hc
  have hdot : c ≠ '.' := by rintro rfl; simp at hcases
  have hstart : startsIdentifier c = false := by rcases hcases with rfl | rfl | rfl <;> decide +kernel
  have hcontinue : continuesIdentifier c = false := by
    rcases hcases with rfl | rfl | rfl <;> decide +kernel
  intro hchain
  obtain ⟨segment, hsegment, hin⟩ := exists_segment_of_mem hdot hmem
  rcases mem_isIdentifier (hchain segment hsegment) hin with h | h
  · simp [hstart] at h
  · simp [hcontinue] at h

end Dotted

namespace Script

/-- A chain of names: a name, then the members that are accessed one after the other. Parentheses do
not matter, and neither does waiting for the result. -/
inductive Tree.NameChain : Tree → List Char → List (List Char) → Prop where
  | name {tree : Tree} (kind : tree.kind = .identifier) : NameChain tree tree.text []
  | member {tree object name : Tree} {root : List Char} {members : List (List Char)}
      (kind : tree.kind = .member) (atObject : tree.child? .object = some object)
      (atName : tree.child? .memberName = some name) (chain : NameChain object root members) :
      NameChain tree root (members ++ [name.text])
  | enclosed {tree inner : Tree} {root : List Char} {members : List (List Char)}
      (kind : tree.kind = .parenthesized ∨ tree.kind = .awaitExpression)
      (first : tree.children.find? Tree.isNamed = some inner) (chain : NameChain inner root members) :
      NameChain tree root members

namespace Tree

variable {tree : Tree} (hshaped : tree.WellShaped)
include hshaped

/-- What an expression is built on is no dotted name. -/
theorem WellShaped.base_ne_dottedName (hkind : tree.kind.buildsOn = true) {part : Tree}
    (hpart : part ∈ tree.children) : part.kind ≠ .dottedName :=
  (hshaped tree tree.self_mem_nodes).base hkind part hpart

/-- The name of a member has no dot in it. -/
theorem WellShaped.dot_not_mem_memberName (hkind : tree.kind = .member) {name : Tree}
    (hname : tree.child? .memberName = some name) : '.' ∉ name.text := by
  have htext : Extraction.fieldText tree .memberName = .ok (Extraction.textOf name) := by
    simp [Extraction.fieldText, hname]
  simpa [Extraction.textOf] using hshaped.dot_not_mem tree.self_mem_nodes (by simp [hkind]) htext

end Tree

end Script

namespace Extraction

open Script (Tree Kind Field)
open Dotted (IsChain segments)

/-- A chain of names is rendered as its names with dots between them. -/
theorem exists_render_of_nameChain {tree : Tree} {root : List Char} {members : List (List Char)}
    (h : tree.NameChain root members) (hshaped : tree.WellShaped) :
    ∃ text, render tree = .ok text ∧ segments text.toList = root :: members := by
  induction h with
  | @name tree hkind =>
    have hdot := (hshaped tree tree.self_mem_nodes).plain hkind
    exact ⟨textOf tree, render_of_name (.inl hkind), by
      simp [textOf, Dotted.segments_of_dot_not_mem hdot]⟩
  | @member tree object name root members hkind hobject hname _ ih =>
    obtain ⟨start, hstart, hsegments⟩ := ih (hshaped.part (Tree.of_child? hobject).1)
    have hdot := hshaped.dot_not_mem_memberName hkind hname
    refine ⟨start ++ "." ++ textOf name, ?_, ?_⟩
    · rw [render_of_member hkind, hobject, fieldText_eq, hname]
      simp [hstart, bind, Except.bind, pure, Except.pure]
    · simp [textOf, Dotted.segments_append_cons, hsegments, Dotted.segments_of_dot_not_mem hdot]
  | @enclosed tree inner root members hkind hfirst _ ih =>
    obtain ⟨text, hrender, hsegments⟩ := ih (hshaped.part (List.mem_of_find?_eq_some hfirst))
    exact ⟨text, by simp [render_of_parenthesized hkind, hfirst, hrender], hsegments⟩

/-- A tag has a mark in it. -/
theorem not_isChain_tagOf (tree : Tree) : ¬IsChain (tagOf tree).toList := by
  refine Dotted.not_isChain_of_isMark (c := '<') rfl ?_
  unfold tagOf tag
  split <;> simp

/-- What comes of something that is changed in the end. -/
theorem map_eq_ok_iff {α β : Type} {first : Except Fault α} {change : α → β} {value : β} :
    first.map change = .ok value ↔ ∃ start, first = .ok start ∧ change start = value := by
  cases first <;> simp [Except.map]

section Rendered

variable {tree : Tree} {text : String}

/-- A call leaves brackets. -/
theorem not_isChain_of_call (hkind : tree.kind = .call) (hrender : render tree = .ok text) :
    ¬IsChain text.toList := by
  refine Dotted.not_isChain_of_isMark (c := '(') rfl ?_
  rw [render_of_call hkind] at hrender
  cases hcallee : tree.child? .function with
  | none =>
    simp only [hcallee, Option.map_none, Option.getD_none, Except.ok.injEq] at hrender
    simp [← hrender]
  | some callee =>
    simp only [hcallee, Option.map_some, Option.getD_some] at hrender
    obtain ⟨start, -, rfl⟩ := map_eq_ok_iff.mp hrender
    simp

/-- A subscript leaves brackets, or a tag. -/
theorem not_isChain_of_subscript (hkind : tree.kind = .subscript)
    (hrender : render tree = .ok text) : ¬IsChain text.toList := by
  rw [render_of_subscript hkind] at hrender
  cases hvalue : tree.child? .value with
  | none =>
    simp only [hvalue, Option.map_none, Option.getD_none, Except.ok.injEq] at hrender
    exact Dotted.not_isChain_of_isMark (c := '<') rfl (by simp [← hrender])
  | some value =>
    simp only [hvalue, Option.map_some, Option.getD_some] at hrender
    obtain ⟨start, -, rfl⟩ := map_eq_ok_iff.mp hrender
    exact Dotted.not_isChain_of_isMark (c := '[') rfl (by simp)

/-- A member of a chain is rendered with the chain and the name of the member. -/
theorem exists_object_of_member (hkind : tree.kind = .member) (hrender : render tree = .ok text)
    (hchain : IsChain text.toList) : ∃ object start name, tree.child? .object = some object ∧
      render object = .ok start ∧ IsChain start.toList ∧ tree.child? .memberName = some name := by
  rw [render_of_member hkind] at hrender
  obtain ⟨start, hstart, hrest⟩ := bind_eq_ok_iff.mp hrender
  obtain ⟨member, hmember, htext⟩ := bind_eq_ok_iff.mp hrest
  cases htext
  have hsplit : IsChain (start.toList ++ '.' :: member.toList) := by
    simpa [String.toList_append] using hchain
  have hbefore : IsChain start.toList := (Dotted.isChain_append_cons.mp hsplit).1
  cases hobject : tree.child? .object with
  | none =>
    simp only [hobject, Option.map_none, Option.getD_none, Except.ok.injEq] at hstart
    subst hstart
    exact absurd hbefore (Dotted.not_isChain_of_isMark (c := '<') rfl (by simp))
  | some object =>
    simp only [hobject, Option.map_some, Option.getD_some] at hstart
    rw [fieldText_eq] at hmember
    cases hname : tree.child? .memberName with
    | none => simp [hname] at hmember
    | some name => exact ⟨object, start, name, rfl, hstart, hbefore, rfl⟩

/-- Parentheses that are rendered as a chain hold one. -/
theorem exists_inner_of_parenthesized
    (hkind : tree.kind = .parenthesized ∨ tree.kind = .awaitExpression)
    (hrender : render tree = .ok text) (hchain : IsChain text.toList) :
    ∃ inner, tree.children.find? Tree.isNamed = some inner ∧ render inner = .ok text := by
  rw [render_of_parenthesized hkind] at hrender
  cases hinner : tree.children.find? Tree.isNamed with
  | none =>
    simp only [hinner, Option.map_none, Option.getD_none, Except.ok.injEq] at hrender
    exact absurd hchain (Dotted.not_isChain_of_isMark (c := '<') rfl (by simp [← hrender]))
  | some inner => exact ⟨inner, rfl, by simpa [hinner] using hrender⟩

end Rendered

/-- What is rendered as a chain of identifiers is a chain of names. -/
theorem exists_nameChain_of_render {tree : Tree} {text : String} (hrender : render tree = .ok text)
    (hchain : IsChain text.toList) (hshaped : tree.WellShaped) (hkind : tree.kind ≠ .dottedName) :
    ∃ root members, tree.NameChain root members := by
  induction tree using Tree.children_induction generalizing text with
  | node tree ih =>
    have hpart {part : Tree} {start : String} (hmem : part ∈ tree.children)
        (hbuilds : tree.kind.buildsOn = true) (hstart : render part = .ok start)
        (hbefore : IsChain start.toList) : ∃ root members, part.NameChain root members :=
      ih part hmem hstart hbefore (hshaped.part hmem) (hshaped.base_ne_dottedName hbuilds hmem)
    by_cases hother : isRendered tree.kind = false
    · rw [render_of_other hother, Except.ok.injEq] at hrender
      exact absurd hchain (hrender ▸ not_isChain_tagOf tree)
    cases htree : tree.kind <;> try exact absurd (by rw [htree]; rfl) hother
    case dottedName => exact absurd htree hkind
    case identifier => exact ⟨_, _, .name htree⟩
    case call => exact absurd hchain (not_isChain_of_call htree hrender)
    case subscript => exact absurd hchain (not_isChain_of_subscript htree hrender)
    case member =>
      obtain ⟨object, start, name, hobject, hstart, hbefore, hname⟩ :=
        exists_object_of_member htree hrender hchain
      obtain ⟨root, members, hobject'⟩ :=
        hpart (Tree.of_child? hobject).1 (by rw [htree]; rfl) hstart hbefore
      exact ⟨root, _, .member htree hobject hname hobject'⟩
    case parenthesized =>
      obtain ⟨inner, hfirst, hinner⟩ := exists_inner_of_parenthesized (.inl htree) hrender hchain
      obtain ⟨root, members, hinner'⟩ :=
        hpart (List.mem_of_find?_eq_some hfirst) (by rw [htree]; rfl) hinner hchain
      exact ⟨root, members, .enclosed (.inl htree) hfirst hinner'⟩
    case awaitExpression =>
      obtain ⟨inner, hfirst, hinner⟩ := exists_inner_of_parenthesized (.inr htree) hrender hchain
      obtain ⟨root, members, hinner'⟩ :=
        hpart (List.mem_of_find?_eq_some hfirst) (by rw [htree]; rfl) hinner hchain
      exact ⟨root, members, .enclosed (.inr htree) hfirst hinner'⟩

end Extraction

/-- What is reached from what a name stands for, through members. -/
def Meaning.reached? (meaning : Meaning) (members : List (List Char)) : Option Referent :=
  match meaning, members with
  | .object path, [] => some (.ofClass path)
  | .object _, _ :: _ => none
  | .imported start, members => some (.ofPath (memberPath start members))

/-- The path of what is reached goes on with the members. -/
theorem Meaning.path_of_reached? {meaning : Meaning} {members : List (List Char)}
    {referent : Referent} (h : meaning.reached? members = some referent) :
    referent.path = memberPath meaning.path members := by
  unfold reached? at h
  split at h
  · cases h
    simp [Referent.path, Meaning.path]
  · cases h
  · cases h
    unfold Referent.ofPath
    split <;> rfl

/-- What an expression refers to is reached through its segments, if they are identifiers. -/
theorem Meaning.referent?_of_segments (meaning : Meaning) {expression : String} {root : List Char}
    {members : List (List Char)} (h : Dotted.segments expression.toList = root :: members) :
    meaning.referent? expression =
      if (root :: members).all Dotted.isIdentifier then meaning.reached? members else none := by
  cases meaning with
  | imported start => exact referent?_imported start h
  | object path =>
    simp only [referent?, h, ← Bool.not_and, ← List.all_cons]
    cases members with
    | nil => by_cases hroot : Dotted.isIdentifier root = true <;> simp [reached?, hroot]
    | cons member more => simp [reached?]

/-- What a text refers to is reached from what its first segment stands for. -/
theorem Names.resolve_of_segments (names : Names) {text : String} {root : List Char}
    {members : List (List Char)} (h : Dotted.segments text.toList = root :: members) :
    names.resolve text =
      if (root :: members).all Dotted.isIdentifier then
        (names.meaning? (String.ofList root)).bind (·.reached? members)
      else none := by
  have hroot : firstSegment text = String.ofList root := firstSegment_of_segments (by simpa using h)
  rw [resolve_eq, hroot]
  cases names.meaning? (String.ofList root) with
  | none => simp
  | some meaning => exact meaning.referent?_of_segments h

section Resolved

open Extraction (render fieldText textOf)
open Script (Tree)

variable {names : Names} {tree : Tree} (hshaped : tree.WellShaped)
include hshaped

/-- An expression refers to something if and only if it is a chain of identifiers the first of which
stands for something, and then to what is reached from there. -/
theorem Names.resolve_render_iff (hkind : tree.kind ≠ .dottedName) {referent : Referent} :
    (∃ text, render tree = .ok text ∧ names.resolve text = some referent) ↔
      ∃ root members, tree.NameChain root members ∧
        (∀ segment ∈ root :: members, Dotted.isIdentifier segment = true) ∧
        ∃ meaning, names.meaning? (String.ofList root) = some meaning ∧
          meaning.reached? members = some referent := by
  constructor
  · rintro ⟨text, hrender, hresolve⟩
    obtain ⟨root, members, hsegments⟩ :=
      List.exists_cons_of_ne_nil (Dotted.segments_ne_nil text.toList)
    have hall : (root :: members).all Dotted.isIdentifier = true := by
      by_contra hnot
      rw [names.resolve_of_segments hsegments, if_neg hnot] at hresolve
      cases hresolve
    have hidentifiers := List.all_eq_true.mp hall
    obtain ⟨root', members', hchain⟩ := Extraction.exists_nameChain_of_render hrender
      (by simpa [Dotted.IsChain, hsegments] using hidentifiers) hshaped hkind
    obtain ⟨text', hrender', hsegments'⟩ := Extraction.exists_render_of_nameChain hchain hshaped
    obtain rfl : text = text' := by simpa [hrender] using hrender'
    obtain ⟨rfl, rfl⟩ := List.cons.inj (hsegments.symm.trans hsegments')
    rw [names.resolve_of_segments hsegments, if_pos hall] at hresolve
    exact ⟨root, members, hchain, hidentifiers, Option.bind_eq_some_iff.mp hresolve⟩
  · rintro ⟨root, members, hchain, hidentifiers, meaning, hmeaning, hreached⟩
    obtain ⟨text, hrender, hsegments⟩ := Extraction.exists_render_of_nameChain hchain hshaped
    refine ⟨text, hrender, ?_⟩
    rw [names.resolve_of_segments hsegments, if_pos (List.all_eq_true.mpr hidentifiers), hmeaning]
    exact hreached

/-- What an expression refers to goes on from what the first name of a chain stands for. -/
theorem Names.exists_nameChain_of_resolve (hkind : tree.kind ≠ .dottedName) {text : String}
    (hrender : render tree = .ok text) {referent : Referent}
    (hresolve : names.resolve text = some referent) :
    ∃ root members meaning, tree.NameChain root members ∧
      names.meaning? (String.ofList root) = some meaning ∧
      referent.path = memberPath meaning.path members := by
  obtain ⟨root, members, hchain, -, meaning, hmeaning, hreached⟩ :=
    (resolve_render_iff hshaped hkind).mp ⟨text, hrender, hresolve⟩
  exact ⟨root, members, meaning, hchain, hmeaning, Meaning.path_of_reached? hreached⟩

/-- What a member of an expression is looked up under goes on from what the first name of a chain
stands for. -/
theorem Names.exists_nameChain_of_member (hkind : tree.kind = .member) {object : Tree}
    (hobject : tree.child? .object = some object) {text name : String}
    (hrender : render object = .ok text) (hname : fieldText tree .memberName = .ok name)
    {referent : Referent} (hresolve : names.resolve text = some referent) :
    ∃ root members meaning, tree.NameChain root members ∧
      names.meaning? (String.ofList root) = some meaning ∧
      referent.path ++ "." ++ name = memberPath meaning.path members := by
  obtain ⟨hmem, -⟩ := Tree.of_child? hobject
  obtain ⟨root, members, meaning, hchain, hmeaning, hpath⟩ :=
    exists_nameChain_of_resolve (hshaped.part hmem)
      (hshaped.base_ne_dottedName (by rw [hkind]; rfl) hmem) hrender hresolve
  rw [Extraction.fieldText_eq] at hname
  cases hpart : tree.child? .memberName with
  | none => simp [hpart] at hname
  | some part =>
    obtain rfl : textOf part = name := by simpa [hpart] using hname
    refine ⟨root, members ++ [part.text], meaning, .member hkind hobject hpart hchain, hmeaning, ?_⟩
    apply String.toList_inj.mp
    simp [hpath, memberPath, textOf]

end Resolved

/-- What a node calls or accesses: what a call calls, or the member itself. -/
inductive Script.Tree.Uses : Script.Tree → Script.Tree → Prop where
  | callee {node callee : Script.Tree} (kind : node.kind = .call)
      (atCallee : node.child? .function = some callee) : Uses node callee
  | access {node : Script.Tree} (kind : node.kind = .member) : Uses node node

namespace Plan

/-- What a call of a method is looked up under goes on from its object. -/
theorem qualified_methodTarget (referent : Referent) (method : String) :
    (methodTarget referent method).qualified = referent.path ++ "." ++ method := by
  unfold methodTarget
  split <;> cases referent <;> rfl

/-- What an access is looked up under goes on from its object. -/
theorem qualified_memberTarget (referent : Referent) (name : String) :
    (memberTarget referent name).qualified = referent.path ++ "." ++ name := by
  cases referent <;> rfl

section Usages

variable {node : Script.Tree} (hshaped : node.WellShaped) {scope : Extraction.Scope}
  {role : Extraction.Role} {elements : List Element}
  (hown : Extraction.ownElements scope role node = .ok elements) {names : Names}
  {referent : Referent}
include hshaped hown

/-- What a call that a node gives rise to refers to is reached from the first name of a chain. -/
theorem exists_nameChain_of_functionCall {e : FunctionCall} (hmem : .functionCall e ∈ elements)
    (hresolve : names.resolve e.name = some referent) :
    ∃ used root members meaning, node.Uses used ∧ used.NameChain root members ∧
      names.meaning? (String.ofList root) = some meaning ∧
      referent.path = memberPath meaning.path members := by
  have hkinds : ElementKind.functionCall ∈ Extraction.Place.kinds ⟨role, node⟩ :=
    (Extraction.givesRise_of_ownElements hown).kinds ▸ List.mem_map_of_mem hmem
  have hcall : node.kind = .call := Extraction.Place.kind_of_call_mem (.inl rfl) hkinds
  simp only [Extraction.ownElements, hcall] at hown
  obtain ⟨callee, hcallee, hrender⟩ := Extraction.exists_callee_of_functionCall
    (Extraction.eq_ok_of_mem_map_singleton hown hmem)
  obtain ⟨hpart, -⟩ := Script.Tree.of_child? hcallee
  obtain ⟨root, members, meaning, hchain, hmeaning, hpath⟩ := Names.exists_nameChain_of_resolve
    (hshaped.part hpart) (hshaped.base_ne_dottedName (by rw [hcall]; rfl) hpart) hrender hresolve
  exact ⟨callee, root, members, meaning, .callee hcall hcallee, hchain, hmeaning, hpath⟩

/-- A method whose call a node gives rise to is reached from the first name of a chain. -/
theorem exists_nameChain_of_methodCall {e : MethodCall} (hmem : .methodCall e ∈ elements)
    (hresolve : names.resolve e.object = some referent) :
    ∃ used root members meaning, node.Uses used ∧ used.NameChain root members ∧
      names.meaning? (String.ofList root) = some meaning ∧
      referent.path ++ "." ++ e.method = memberPath meaning.path members := by
  have hkinds : ElementKind.methodCall ∈ Extraction.Place.kinds ⟨role, node⟩ :=
    (Extraction.givesRise_of_ownElements hown).kinds ▸ List.mem_map_of_mem hmem
  have hcall : node.kind = .call := Extraction.Place.kind_of_call_mem (.inr rfl) hkinds
  simp only [Extraction.ownElements, hcall] at hown
  obtain ⟨callee, object, hcallee, hkind, hobject, hrender, hname⟩ :=
    Extraction.exists_object_of_methodCall (Extraction.eq_ok_of_mem_map_singleton hown hmem)
  obtain ⟨root, members, meaning, hchain, hmeaning, hpath⟩ := Names.exists_nameChain_of_member
    (hshaped.part (Script.Tree.of_child? hcallee).1) hkind hobject hrender hname hresolve
  exact ⟨callee, root, members, meaning, .callee hcall hcallee, hchain, hmeaning, hpath⟩

/-- A member whose access a node gives rise to is reached from the first name of a chain. -/
theorem exists_nameChain_of_attributeAccess {e : AttributeAccess}
    (hmem : .attributeAccess e ∈ elements) (hresolve : names.resolve e.object = some referent) :
    ∃ used root members meaning, node.Uses used ∧ used.NameChain root members ∧
      names.meaning? (String.ofList root) = some meaning ∧
      referent.path ++ "." ++ e.member = memberPath meaning.path members := by
  have hkinds : ElementKind.attributeAccess ∈ Extraction.Place.kinds ⟨role, node⟩ :=
    (Extraction.givesRise_of_ownElements hown).kinds ▸ List.mem_map_of_mem hmem
  obtain ⟨hkind, hplain⟩ := Extraction.Place.kind_of_attributeAccess_mem hkinds
  simp only at hkind hplain
  simp only [Extraction.ownElements, hkind, if_pos hplain] at hown
  obtain ⟨object, hobject, hrender, hname⟩ := Extraction.exists_object_of_attributeAccess
    (Extraction.eq_ok_of_mem_map_singleton hown hmem)
  obtain ⟨root, members, meaning, hchain, hmeaning, hpath⟩ :=
    Names.exists_nameChain_of_member hshaped hkind hobject hrender hname hresolve
  exact ⟨node, root, members, meaning, .access hkind, hchain, hmeaning, hpath⟩

/-- What an element is looked up under that a node gives rise to and that is no import goes on from
what the first name of a chain stands for. -/
theorem exists_nameChain_of_target? {element : Element} (hmem : element ∈ elements)
    (himport : element.kind ≠ .ofImport) {name : TargetName} {kind : CheckKind}
    {arguments : Option CallArguments}
    (htarget : target? names element = some (name, kind, arguments)) :
    ∃ used root members meaning, node.Uses used ∧ used.NameChain root members ∧
      names.meaning? (String.ofList root) = some meaning ∧
      name.qualified = memberPath meaning.path members := by
  cases element with
  | functionCall e =>
    obtain ⟨referent, hresolve, htarget⟩ := Option.bind_eq_some_iff.mp htarget
    obtain ⟨name, hname, ⟨⟩⟩ := Option.map_eq_some_iff.mp htarget
    rw [qualified_of_callTarget? hname]
    exact exists_nameChain_of_functionCall hshaped hown hmem hresolve
  | methodCall e =>
    obtain ⟨referent, hresolve, ⟨⟩⟩ := Option.map_eq_some_iff.mp htarget
    rw [qualified_methodTarget]
    exact exists_nameChain_of_methodCall hshaped hown hmem hresolve
  | attributeAccess e =>
    obtain ⟨referent, hresolve, ⟨⟩⟩ := Option.map_eq_some_iff.mp htarget
    rw [qualified_memberTarget]
    exact exists_nameChain_of_attributeAccess hshaped hown hmem hresolve
  | ofImport e => exact absurd rfl himport
  | classDef e => cases htarget
  | functionDef e => cases htarget
  | variableAssign e => cases htarget

end Usages

end Plan

/-- An element of a script was found in a node of its tree, all of which have their shapes. -/
theorem Analysis.exists_node_of_mem {script path : String} {analysis : Analysis}
    (h : Analysis.ofScript script path = .ok analysis) {element : Element}
    (hmem : element ∈ analysis.elements) :
    ∃ tree, Script.parse script.toList = .ok tree ∧ ∃ node ∈ tree.nodes, ∃ scope role elements,
      Extraction.ownElements scope role node = .ok elements ∧ element ∈ elements := by
  simp only [ofScript] at h
  split at h
  · rename_i tree htree
    cases h
    simp only [ofTree] at hmem
    split at hmem
    · rename_i found hfound
      exact ⟨tree, htree, Extraction.exists_node_of_mem_visit hfound hmem⟩
    · simp at hmem
  · cases h

/-- Whether nothing but chains of names is looked up for the calls and accesses of a script, each under
the path of its first name with its members behind. -/
def Analysis.LooksUpChains (analysis : Analysis) (tree : Script.Tree) : Prop :=
  ∀ target ∈ analysis.plan.targets, target.kind ≠ .ofImport →
    ∃ node ∈ tree.nodes, ∃ used root members meaning,
      node.Uses used ∧ used.NameChain root members ∧
      (Plan.namesAt analysis.elements target.element.index).meaning? (String.ofList root) =
        some meaning ∧
      target.name.qualified = memberPath meaning.path members

/-- Nothing but chains of names is looked up for the calls and accesses of a script. -/
theorem Analysis.looksUpChains {script path : String} {analysis : Analysis} {tree : Script.Tree}
    (hanalysis : Analysis.ofScript script path = .ok analysis)
    (htree : Script.parse script.toList = .ok tree) : analysis.LooksUpChains tree := by
  intro target hmem hkind
  obtain ⟨position, element, helement, href, htarget⟩ := Plan.exists_at_of_mem_planFrom hmem
  have hindex : target.element.index = position := by simp [href, Element.ref]
  obtain ⟨tree', htree', node, hnode, scope, role, elements, hown, hin⟩ :=
    exists_node_of_mem hanalysis (List.mem_of_getElem? helement)
  obtain rfl : tree = tree' := by simpa [htree] using htree'
  have himport : element.kind ≠ .ofImport := by
    intro hother
    cases element <;> cases hother
    simp only [Plan.target?] at htarget
    split at htarget
    · exact hkind (by simp_all)
    · cases htarget
  have hshaped : node.WellShaped := fun part hpart =>
    Script.wellShaped_of_parse htree part (Script.Tree.mem_nodes_trans hnode hpart)
  rw [hindex]
  exact ⟨node, hnode, Plan.exists_nameChain_of_target? hshaped hown hin himport htarget⟩

/-- An expression refers to something if and only if it is a chain of identifiers the first of which
stands for something, and then to what is reached from there through the others. So nothing but chains
of names is looked up for the calls and accesses of a script. -/
theorem Names.resolves_chains_only :
    (∀ (e : Script.Tree), e.WellShaped → e.kind ≠ .dottedName →
      ∀ (names : Names) (referent : Referent),
        (∃ text, Extraction.render e = .ok text ∧ names.resolve text = some referent) ↔
          ∃ root members, e.NameChain root members ∧
            (∀ segment ∈ root :: members, Dotted.isIdentifier segment = true) ∧
            ∃ meaning, names.meaning? (String.ofList root) = some meaning ∧
              meaning.reached? members = some referent) ∧
    ∀ (script path : String) (analysis : Analysis), Analysis.ofScript script path = .ok analysis →
      ∃ tree, Script.parse script.toList = .ok tree ∧ tree.WellShaped ∧
        analysis.LooksUpChains tree := by
  refine ⟨fun e hshaped hkind names referent => resolve_render_iff hshaped hkind, ?_⟩
  intro script path analysis hanalysis
  obtain ⟨tree, htree⟩ : ∃ tree, Script.parse script.toList = .ok tree := by
    simp only [Analysis.ofScript] at hanalysis
    split at hanalysis
    · exact ⟨_, by assumption⟩
    · cases hanalysis
  exact ⟨tree, htree, Script.wellShaped_of_parse htree, Analysis.looksUpChains hanalysis htree⟩

/-- The tree of a member of a library. -/
def memberTree : Script.Tree :=
  .branch none .member 1 [
    .token (some .object) .identifier 1 [] ['a', 'c', 'm', 'e'],
    .token none .sign 1 [] ['.'],
    .token (some .memberName) .identifier 1 [] ['l', 'i', 'b']]

/-- The tree of a member in parentheses. -/
def enclosedTree : Script.Tree :=
  .branch none .parenthesized 1 [
    .token none .sign 1 [] ['('], memberTree, .token none .sign 1 [] [')']]

/-- The tree of a member in parentheses has its shape all through. -/
theorem wellShaped_enclosedTree : enclosedTree.WellShaped := by
  have hmember : memberTree.WellShaped := by
    have hfits : ∀ tree ∈ memberTree.children, tree.FitsRole := by
      simp only [memberTree, Script.Tree.children, List.forall_mem_cons]
      refine ⟨?_, Script.Tree.fitsRole_of_field_eq_none rfl, ?_, by simp⟩
      · exact Script.Tree.IsWord.fitsRole ⟨_, _, _, _, by decide, rfl⟩
      · exact Script.Tree.IsWord.fitsRole ⟨_, _, _, _, by decide, rfl⟩
    refine Script.Tree.wellShaped_branch.mpr ⟨Script.Tree.shaped_of_isFree rfl hfits ?_, ?_⟩
    · simp [Script.Tree.kind]
    · simp
  refine Script.Tree.wellShaped_branch.mpr ⟨Script.Tree.shaped_of_isFree rfl ?_ ?_, ?_⟩
  · simp only [List.forall_mem_cons]
    exact ⟨Script.Tree.fitsRole_of_field_eq_none rfl, Script.Tree.fitsRole_of_field_eq_none rfl,
      Script.Tree.fitsRole_of_field_eq_none rfl, by simp⟩
  · simp [Script.Tree.kind, memberTree]
  · simpa using hmember

/-- A member in parentheses refers to what it is a member of, and a function of it is looked up. What
is called of the result of a call is not. -/
theorem Names.resolves_chains_only_enclosed :
    (enclosedTree.WellShaped ∧ enclosedTree.kind ≠ .dottedName ∧
      ∃ text, Extraction.render enclosedTree = .ok text ∧
        (⟨[("acme", "acme")], []⟩ : Names).resolve text = some (.ofModule "acme.lib")) ∧
    ∃ analysis, Analysis.ofScript "import acme\n(acme.lib).run()\nacme.make().run()\n" "p.py" =
        .ok analysis ∧
      analysis.plan.targets.map Target.name = [.ofModule "acme", .function "acme.lib" "run",
        .member "acme" "lib" false, .function "acme" "make"] ∧
      ∃ tree, Script.parse "import acme\n(acme.lib).run()\nacme.make().run()\n".toList = .ok tree ∧
        tree.WellShaped ∧ analysis.LooksUpChains tree := by
  have hplan : (Analysis.ofScript "import acme\n(acme.lib).run()\nacme.make().run()\n"
      "p.py").toOption.map (fun analysis => analysis.plan.targets.map Target.name) =
      some [.ofModule "acme", .function "acme.lib" "run", .member "acme" "lib" false,
        .function "acme" "make"] := by decide +kernel
  have hmember : memberTree.NameChain ['a', 'c', 'm', 'e'] ([] ++ [['l', 'i', 'b']]) :=
    @Script.Tree.NameChain.member memberTree (.token (some .object) .identifier 1 [] _)
      (.token (some .memberName) .identifier 1 [] _) _ _ rfl rfl rfl (.name rfl)
  have hchain : enclosedTree.NameChain ['a', 'c', 'm', 'e'] [['l', 'i', 'b']] :=
    .enclosed (.inl rfl) rfl hmember
  constructor
  · refine ⟨wellShaped_enclosedTree, by decide, ?_⟩
    exact (resolves_chains_only.1 enclosedTree wellShaped_enclosedTree (by decide) _ _).mpr
      ⟨_, _, hchain, by decide +kernel, .imported "acme", by decide +kernel, by decide +kernel⟩
  · cases hanalysis : Analysis.ofScript "import acme\n(acme.lib).run()\nacme.make().run()\n"
      "p.py" with
    | error fault => simp [hanalysis, Except.toOption] at hplan
    | ok analysis =>
      refine ⟨analysis, rfl, ?_, resolves_chains_only.2 _ _ analysis hanalysis⟩
      simpa [hanalysis, Except.toOption] using hplan

end UsageAudit

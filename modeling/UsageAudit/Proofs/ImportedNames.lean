import UsageAudit.Proofs.CacheHistory
import UsageAudit.Proofs.CacheTransparency
import UsageAudit.Proofs.Rebinding
import Mathlib.Data.List.TakeWhile

/-!
# Where names come from

A name that is looked up leads back to an import of a library: it is what the import binds, or a
member of it. Names get what they stand for from imports and from assignments of what such names
make, so this holds of all names in effect at any place, and is followed from there to everything
that a check asks the graph.
-/

namespace UsageAudit

/-- Whether a path is another one or goes on from it. -/
def Under (start path : String) : Prop := path = start ∨ ∃ rest, path = start ++ "." ++ rest

namespace Under

/-- A path goes on from itself. -/
theorem refl (path : String) : Under path path := Or.inl rfl

/-- A member goes on from its owner. -/
theorem member (owner name : String) : Under owner (owner ++ "." ++ name) := Or.inr ⟨name, rfl⟩

/-- What goes on from a path that goes on from another goes on from that. -/
theorem trans {first second third : String} (h : Under first second) (h' : Under second third) :
    Under first third := by
  rcases h with rfl | ⟨rest, rfl⟩
  · exact h'
  · rcases h' with rfl | ⟨more, rfl⟩
    · exact .member first rest
    · exact Or.inr ⟨rest ++ "." ++ more, by simp only [String.append_assoc]⟩

/-- What goes on from a path starts as that does. -/
theorem firstSegment_eq {start path : String} (h : Under start path) :
    firstSegment path = firstSegment start := by
  rcases h with rfl | ⟨rest, rfl⟩
  · rfl
  · have htail : (start ++ "." ++ rest).toList = start.toList ++ '.' :: rest.toList := by simp
    simp only [firstSegment, htail, List.takeWhile_append]
    split
    · rename_i hall
      rw [(List.takeWhile_prefix _).eq_of_length hall]
      simp
    · rfl

/-- What goes on from a path that is not empty starts with the same character. -/
theorem head?_eq {start path : String} (h : Under start path) (hstart : start ≠ "") :
    path.toList.head? = start.toList.head? := by
  rcases h with rfl | ⟨rest, rfl⟩
  · rfl
  · have hchars : start.toList ≠ [] := by simpa using hstart
    simp [List.head?_append_of_ne_nil _ hchars]

end Under

/-- A text is what stands before its last dot, the dot and what stands behind it. -/
theorem Dotted.append_of_splitLast? {text owner name : List Char}
    (h : splitLast? text = some (owner, name)) : text = owner ++ '.' :: name := by
  unfold splitLast? at h
  split at h
  · cases h
  · rename_i c before hbefore
    simp only [Option.some.injEq, Prod.mk.injEq] at h
    obtain ⟨rfl, rfl⟩ := h
    have hdot : c = '.' := by
      have hhead := List.head?_dropWhile_not (· != '.') text.reverse
      simpa [hbefore] using hhead
    have htext := List.takeWhile_append_dropWhile (p := (· != '.')) (l := text.reverse)
    rw [hbefore, hdot] at htext
    have hreverse := congrArg List.reverse htext
    simpa [lastSegment] using hreverse.symm

/-- The path in its library of what an import binds. -/
def Import.libraryPath (e : Import) : String :=
  match e.name, e.nickname with
  | some name, _ => e.path ++ "." ++ name
  | none, some _ => e.path
  | none, none => firstSegment e.path

/-- The first segment of a text has no further segments. -/
theorem firstSegment_firstSegment (path : String) :
    firstSegment (firstSegment path) = firstSegment path := by
  simp [firstSegment, List.takeWhile_idem]

namespace Import

/-- An import binds its name to the path in its library, unless it imports all names. -/
theorem libraryPath_of_importedPath {e : Import} {path : String}
    (h : Names.importedPath e = some path) : e.name ≠ some "*" ∧ path = e.libraryPath := by
  unfold Names.importedPath at h
  unfold libraryPath
  split at h
  · rename_i name _ hname
    split at h
    · cases h
    · rename_i hall
      simpa [hname, hall] using h.symm
  · simp_all
  · simp_all [boundName]

end Import

/-- Whether a path is that of a library or of something in it, which is neither relative nor in the
standard library. -/
structure InLibrary (path : String) : Prop where
  nonempty : path ≠ ""
  foreign : isStandardModule path = false
  absolute : path.toList.head? ≠ some '.'

namespace InLibrary

/-- What goes on from the path of a library is in it. -/
theorem of_under {start path : String} (h : InLibrary start) (hunder : Under start path) :
    InLibrary path := by
  have hhead := hunder.head?_eq h.nonempty
  refine ⟨?_, ?_, by rw [hhead]; exact h.absolute⟩
  · rintro rfl
    exact h.nonempty (by simpa using hhead.symm)
  · rw [isStandardModule, hunder.firstSegment_eq]
    exact h.foreign

/-- What is imported from a library is in one, unless its path is empty. -/
theorem of_import {e : Import} (hcheckable : e.isCheckable = true) (hpath : e.path ≠ "") :
    InLibrary e.path := by
  obtain ⟨habsolute, hforeign⟩ : e.isRelative = false ∧ isStandardModule e.path = false := by
    simpa [Import.isCheckable] using hcheckable
  exact ⟨hpath, hforeign, by simpa [Import.isRelative] using habsolute⟩

/-- The first segment of a path in a library is the library. -/
theorem firstSegment {path : String} (h : InLibrary path) : InLibrary (firstSegment path) := by
  obtain ⟨c, rest, hchars⟩ :=
    List.exists_cons_of_ne_nil (show path.toList ≠ [] by simpa using h.nonempty)
  have hdot : c ≠ '.' := by simpa [hchars] using h.absolute
  have hhead : (UsageAudit.firstSegment path).toList.head? = some c := by
    simp [UsageAudit.firstSegment, hchars, hdot]
  refine ⟨?_, ?_, by simpa [hhead] using hdot⟩
  · intro hempty
    simp [hempty] at hhead
  · rw [isStandardModule, firstSegment_firstSegment]
    exact h.foreign

/-- What an import of a library binds is in the library. -/
theorem libraryPath {e : Import} (h : InLibrary e.path) : InLibrary e.libraryPath := by
  unfold Import.libraryPath
  split
  · exact h.of_under (.member _ _)
  · exact h
  · exact h.firstSegment

end InLibrary

/-- Whether a path goes on from what an import of a library binds that stands among the elements
before a position. -/
def LeadsBack (elements : List Element) (position : Nat) (path : String) : Prop :=
  ∃ source e, source < position ∧ elements[source]? = some (.ofImport e) ∧ e.isCheckable = true ∧
    e.name ≠ some "*" ∧ Under e.libraryPath path

namespace LeadsBack

variable {elements : List Element} {position : Nat} {path : String}

/-- What leads back from a position does so from later ones. -/
theorem later (h : LeadsBack elements position path) {position' : Nat}
    (hle : position ≤ position') : LeadsBack elements position' path := by
  obtain ⟨source, e, hlt, hsource, hrest⟩ := h
  exact ⟨source, e, by omega, hsource, hrest⟩

/-- What goes on from a path that leads back leads back, too. -/
theorem of_under (h : LeadsBack elements position path) {path' : String}
    (hunder : Under path path') : LeadsBack elements position path' := by
  obtain ⟨source, e, hlt, hsource, hcheckable, hname, hpath⟩ := h
  exact ⟨source, e, hlt, hsource, hcheckable, hname, hpath.trans hunder⟩

end LeadsBack

/-- The path that something with the meaning is, or the class that it is an object of. -/
def Meaning.path : Meaning → String
  | .object path | .imported path => path

/-- The path of what a name leads to. -/
def Referent.path : Referent → String
  | .ofModule path | .ofClass path => path

/-- What an expression refers to goes on from what its first segment stands for. -/
theorem Meaning.under_referent? {expression : String} {meaning : Meaning} {referent : Referent}
    (h : meaning.referent? expression = some referent) : Under meaning.path referent.path := by
  unfold referent? at h
  split at h
  · cases h
  · rename_i root rest _
    split at h
    · cases h
    · cases meaning with
      | object path =>
        dsimp only at h
        split at h <;> cases h
        exact .refl path
      | imported start =>
        have hpath :
            Under start (start ++ String.ofList (rest.flatMap fun segment => '.' :: segment)) := by
          cases rest with
          | nil => exact Or.inl (by simp)
          | cons segment rest =>
            refine Or.inr
              ⟨String.ofList (segment ++ rest.flatMap fun segment => '.' :: segment), ?_⟩
            apply String.toList_inj.mp
            simp
        dsimp only at h
        split at h <;> cases h <;> exact hpath

namespace Names

/-- The class that an assignment makes goes on from what a name stands for. -/
theorem exists_meaning_of_classMade {names : Names} (hsound : names.Sound) {name : String}
    {callee : Option String} {path : String} (h : names.classMade name callee = some path) :
    ∃ other meaning, names.meaning? other = some meaning ∧ Under meaning.path path := by
  unfold classMade at h
  split at h
  · rename_i made hresolve
    cases h
    obtain ⟨expression, _, hresolve⟩ := Option.bind_eq_some_iff.mp hresolve
    rw [resolve_eq] at hresolve
    obtain ⟨meaning, hmeaning, hreferent⟩ := Option.bind_eq_some_iff.mp hresolve
    refine ⟨firstSegment expression, meaning, ?_, Meaning.under_referent? hreferent⟩
    unfold meaning? at hmeaning ⊢
    by_cases heq : name = firstSegment expression
    · rw [heq, Ordered.get?_erase_self hsound.imports] at hmeaning
      cases hobject : names.objects.get? (firstSegment expression) with
      | none => simp [hobject] at hmeaning
      | some object => simpa [hobject] using hmeaning
    · simpa [Ordered.get?_erase_of_ne _ heq] using hmeaning
  · cases h

end Names

namespace Plan

/-- What a name stands for at any place leads back to an import of a library. -/
theorem leadsBack_of_meaning? {elements : List Element} {position : Nat} {name : String}
    {meaning : Meaning} (h : (namesAt elements position).meaning? name = some meaning) :
    LeadsBack elements position meaning.path := by
  induction position generalizing name meaning with
  | zero => cases h
  | succ position ih =>
    rw [meaning?_namesAt_succ] at h
    cases hchange : elements[position]?.bind (rebinding? (namesAt elements position) name) with
    | none =>
      rw [hchange] at h
      exact (ih h).later (Nat.le_succ position)
    | some given =>
      rw [hchange] at h
      obtain rfl : given = some meaning := h
      obtain ⟨element, helement, hgives⟩ := Option.bind_eq_some_iff.mp hchange
      cases element with
      | ofImport e =>
        simp only [rebinding?] at hgives
        split at hgives
        · rename_i hbound
          cases hpath : Names.importedPath e with
          | none => simp [hpath] at hgives
          | some path =>
            obtain rfl : Meaning.imported path = meaning := by simpa [hpath] using hgives
            obtain ⟨hname, rfl⟩ := Import.libraryPath_of_importedPath hpath
            exact ⟨position, e, by omega, helement, hbound.1, hname, .refl _⟩
        · cases hgives
      | variableAssign e =>
        simp only [rebinding?] at hgives
        split at hgives
        · cases hmade : (namesAt elements position).classMade name e.assignedFrom with
          | none => simp [hmade] at hgives
          | some path =>
            obtain rfl : Meaning.object path = meaning := by simpa [hmade] using hgives
            obtain ⟨other, source, hsource, hunder⟩ :=
              Names.exists_meaning_of_classMade (sound_namesAt elements position) hmade
            exact ((ih hsource).of_under hunder).later (Nat.le_succ position)
        · cases hgives
      | classDef e => simp [rebinding?] at hgives
      | functionDef e => simp [rebinding?] at hgives
      | methodCall e => simp [rebinding?] at hgives
      | functionCall e => simp [rebinding?] at hgives
      | attributeAccess e => simp [rebinding?] at hgives

/-- What is called is looked up under the path that it leads to. -/
theorem qualified_of_callTarget? {referent : Referent} {name : TargetName}
    (h : callTarget? referent = some name) : name.qualified = referent.path := by
  cases referent with
  | ofClass path =>
    cases h
    rfl
  | ofModule path =>
    obtain ⟨⟨owner, last⟩, hsplit, rfl⟩ := Option.map_eq_some_iff.mp h
    apply String.toList_inj.mp
    simp [TargetName.qualified, Referent.path, Dotted.append_of_splitLast? hsplit]

/-- A method that is called is looked up under a name that goes on from its owner. -/
theorem under_methodTarget (referent : Referent) (method : String) :
    Under referent.path (methodTarget referent method).qualified := by
  unfold methodTarget
  split <;> cases referent <;> exact .member _ method

/-- A member is looked up under a name that goes on from its owner. -/
theorem under_memberTarget (referent : Referent) (name : String) :
    Under referent.path (memberTarget referent name).qualified := by
  cases referent <;> exact .member _ name

/-- What is scheduled for a call or an access goes on from what its name stands for. -/
theorem under_of_scheduledBy? {meaning : Meaning} {element : Element} {name : TargetName}
    (h : scheduledBy? (some meaning) element = some name) : Under meaning.path name.qualified := by
  cases element with
  | functionCall e =>
    obtain ⟨referent, hreferent, hcall⟩ := Option.bind_eq_some_iff.mp h
    rw [qualified_of_callTarget? hcall]
    exact Meaning.under_referent? hreferent
  | methodCall e =>
    obtain ⟨referent, hreferent, rfl⟩ := Option.map_eq_some_iff.mp h
    exact (Meaning.under_referent? hreferent).trans (under_methodTarget referent e.method)
  | attributeAccess e =>
    obtain ⟨referent, hreferent, rfl⟩ := Option.map_eq_some_iff.mp h
    exact (Meaning.under_referent? hreferent).trans (under_memberTarget referent e.member)
  | ofImport e => cases h
  | classDef e => cases h
  | functionDef e => cases h
  | variableAssign e => cases h

/-- Each target stands at the position of its element, and is that of the element by the names in
effect there. -/
theorem exists_at_of_mem_planFrom {names : Names} {index : Nat} {elements : List Element}
    {target : Target} (h : target ∈ (planFrom names index elements).targets) :
    ∃ position element, elements[position]? = some element ∧
      target.element = element.ref (index + position) ∧
      target? (namesThrough names (elements.take position)) element =
        some (target.name, target.kind, target.arguments) := by
  induction elements generalizing names index with
  | nil => simp [planFrom] at h
  | cons first rest ih =>
    have hlater (h : target ∈ (planFrom (namesAfter names first) (index + 1) rest).targets) :
        ∃ position element, (first :: rest)[position]? = some element ∧
          target.element = element.ref (index + position) ∧
          target? (namesThrough names ((first :: rest).take position)) element =
            some (target.name, target.kind, target.arguments) := by
      obtain ⟨position, element, helement, href, htarget⟩ := ih h
      refine ⟨position + 1, element, helement, ?_, htarget⟩
      rw [href, Nat.add_assoc, Nat.add_comm 1 position]
    simp only [planFrom] at h
    split at h
    · rename_i name kind arguments hname
      rcases List.mem_cons.mp h with rfl | h
      · exact ⟨0, first, rfl, rfl, hname⟩
      · exact hlater h
    · split at h <;> exact hlater h

/-- Whether a target is that of the element at its position: of an import that can be checked it is
the module, and of anything else its name leads back to such an import. -/
def Sourced (elements : List Element) (target : Target) : Prop :=
  ∃ element, elements[target.element.index]? = some element ∧
    target.element = element.ref target.element.index ∧
    ((∃ e, element = .ofImport e ∧ e.isCheckable = true ∧ target.name = .ofModule e.path) ∨
      (element.kind ≠ .ofImport ∧
        LeadsBack elements target.element.index target.name.qualified))

/-- Every target of a script leads back to an import of a library. -/
theorem sourced_of_mem_ofElements {elements : List Element} {target : Target}
    (h : target ∈ (ofElements elements).targets) : Sourced elements target := by
  obtain ⟨position, element, helement, href, htarget⟩ := exists_at_of_mem_planFrom h
  have hindex : target.element.index = position := by simp [href, Element.ref]
  have hscheduled : scheduled? (namesAt elements position) element = some target.name := by
    simp [scheduled?, namesAt, htarget]
  refine ⟨element, by rw [hindex, helement], by simp [href, Element.ref], ?_⟩
  rw [hindex]
  cases hroot : element.root? with
  | some root =>
    rw [scheduled?_eq _ hroot] at hscheduled
    cases hmeaning : (namesAt elements position).meaning? root with
    | none => simp [hmeaning] at hscheduled
    | some meaning =>
      rw [hmeaning] at hscheduled
      have hunder := under_of_scheduledBy? hscheduled
      refine Or.inr ⟨?_, (leadsBack_of_meaning? hmeaning).of_under hunder⟩
      rintro himport
      cases element <;> simp [Element.kind, Element.root?, Element.expression?] at himport hroot
  | none =>
    cases element with
    | ofImport e =>
      simp only [scheduled?, target?] at hscheduled
      split at hscheduled
      · rename_i hcheckable
        simp only [Option.map_some, Option.some.injEq] at hscheduled
        exact Or.inl ⟨e, rfl, hcheckable, hscheduled.symm⟩
      · cases hscheduled
    | classDef e => cases hscheduled
    | functionDef e => cases hscheduled
    | variableAssign e => cases hscheduled
    | methodCall e => cases hroot
    | functionCall e => cases hroot
    | attributeAccess e => cases hroot

end Plan

/-- The dotted name that an answer is about. -/
def CacheKey.qualified : CacheKey → String
  | .symbol _ name => name
  | .methodSignature owner method => owner ++ "." ++ method
  | .functionSignature path name => path ++ "." ++ name

/-- Inquiries stay matched when more questions are admitted. -/
theorem Inquiry.Matched.admitting {α β : Type} {admitted admitted' : Question → Prop}
    {related : α → β → Prop} {inquiry : Inquiry α} {inquiry' : Inquiry β}
    (h : Matched admitted related inquiry inquiry')
    (hadmitted : ∀ question, admitted question → admitted' question) :
    Matched admitted' related inquiry inquiry' := by
  induction h with
  | done value value' hvalue => exact .done value value' hvalue
  | ask question next next' hquestion _ ih =>
    exact .ask question next next' (hadmitted question hquestion) ih

namespace GraphCheck

open Inquiry (Matched)

variable {α : Type} [Scalar α] (settings : Settings α)

/-- Whether a question is about a path or something in it. -/
def About (path : String) (question : Question) : Prop := Under path question.key.qualified

/-- A question about two parts of a name is about the name. -/
theorem about_pair (kind : SymbolKind) (owner name : String) :
    About (owner ++ "." ++ name) (.sighting kind [owner, name]) := by
  refine Or.inl ?_
  apply String.toList_inj.mp
  simp [Question.key, CacheKey.qualified, qualifiedName]

/-- A question about a name in one part is about the name. -/
theorem about_single (kind : SymbolKind) (name : String) : About name (.sighting kind [name]) := by
  refine Or.inl ?_
  apply String.toList_inj.mp
  simp [Question.key, CacheKey.qualified, qualifiedName]

/-- The check of a target asks about its name and what is in it. -/
theorem about_checkTarget (target : Target) :
    Matched (About target.name.qualified) Check.SameButOrigin
      (checkTarget Inquiry.lookups settings target)
      (checkTarget Inquiry.lookups settings target) := by
  obtain ⟨element, kind, name, arguments⟩ := target
  cases name with
  | ofModule path => exact matched_checkImport settings element (about_single _ path)
  | ofClass path =>
    exact matched_checkInstantiation settings element arguments (about_single _ path)
      (.member path "__init__")
  | method owner name =>
    exact matched_checkMethodCall settings element arguments (about_pair _ owner name) (.refl _)
  | function path name =>
    exact matched_checkFunctionCall settings element arguments (about_pair _ path name) (.refl _)
  | member owner name ownerIsClass =>
    apply matched_checkAttribute settings element (about_pair _ owner name)
    intro meaning hmeaning
    cases ownerIsClass <;> simp [fallbacks] at hmeaning
    · rcases hmeaning with rfl | rfl | rfl
      · exact about_single _ _
      · exact about_single _ _
      · exact about_pair _ owner name
    · subst hmeaning
      exact about_pair _ owner name

/-- The check of a script asks about the names of its targets and what is in them. -/
theorem about_checkScript (analysis : Analysis) :
    Matched (fun question => ∃ target ∈ analysis.plan.targets,
        About target.name.qualified question) GraphOutcome.SameButOrigin
      (checkScript Inquiry.lookups settings analysis)
      (checkScript Inquiry.lookups settings analysis) := by
  have htargets := Matched.mapM fun target (hmem : target ∈ analysis.plan.targets) =>
    (about_checkTarget settings target).admitting fun question habout =>
      (⟨target, hmem, habout⟩ : ∃ target ∈ analysis.plan.targets,
        About target.name.qualified question)
  exact htargets.bind fun _ _ hchecks => .pure ⟨hchecks, rfl⟩

end GraphCheck

/-- A lookup asks the graph its question once or not at all. -/
theorem events_start_lookup {σ : Type} (graph : KnowledgeGraph σ) (question : Question)
    (desk : Desk (Cached (Watched σ))) :
    (((cachedLookups graph.watched).ask question).start desk).2.state.graph.events =
        desk.state.graph.events ∨
      ∃ answer, (((cachedLookups graph.watched).ask question).start desk).2.state.graph.events =
        .asked question.key answer :: desk.state.graph.events := by
  obtain ⟨call, hevents, -⟩ := exists_call_start_lookup graph question desk
  cases call with
  | none => exact Or.inl hevents
  | some answer => exact Or.inr ⟨_, hevents⟩

namespace Inquiry

variable {α β σ : Type} {admitted : Question → Prop} {related : α → β → Prop}
  {inquiry : Inquiry α} {inquiry' : Inquiry β}

/-- What a matched inquiry asks the graph are admitted questions. -/
theorem Matched.admitted_of_asked (hmatched : Matched admitted related inquiry inquiry')
    {graph : KnowledgeGraph σ} {desk : Desk (Cached (Watched σ))} {key : CacheKey}
    {answer : Except SourceFault CacheEntry}
    (h : .asked key answer ∈
      ((inquiry.run (cachedLookups graph.watched)).start desk).2.state.graph.events) :
    .asked key answer ∈ desk.state.graph.events ∨
      ∃ question, admitted question ∧ question.key = key := by
  induction hmatched generalizing desk with
  | done value value' hvalue => exact Or.inl h
  | ask question next next' hquestion _ ih =>
    have hevents := events_start_lookup graph question desk
    rw [start_run_ask] at h
    generalize ((cachedLookups graph.watched).ask question).start desk = looked at h hevents
    obtain ⟨outcome, after⟩ := looked
    have hlooked (h : .asked key answer ∈ after.state.graph.events) :
        .asked key answer ∈ desk.state.graph.events ∨
          ∃ question, admitted question ∧ question.key = key := by
      rcases hevents with hevents | ⟨given, hevents⟩
      · exact Or.inl (hevents ▸ h)
      · rw [hevents] at h
        rcases List.mem_cons.mp h with heq | h
        · cases heq
          exact Or.inr ⟨question, hquestion, rfl⟩
        · exact Or.inl h
    cases outcome with
    | error problem => exact hlooked h
    | ok fetch =>
      rcases ih fetch fetch rfl h with h | hadmitted
      · exact hlooked h
      · exact Or.inr hadmitted

end Inquiry

/-- The name of a target of a script is in a library. -/
theorem Plan.Sourced.inLibrary {elements : List Element} {target : Target}
    (h : Sourced elements target) (hpaths : ∀ e, .ofImport e ∈ elements → e.path ≠ "") :
    InLibrary target.name.qualified := by
  obtain ⟨element, helement, _, ⟨e, rfl, hcheckable, hname⟩ | ⟨_, source, e, _, hsource, hcheckable,
    _, hunder⟩⟩ := h
  · rw [hname]
    exact .of_import hcheckable (hpaths e (List.mem_of_getElem? helement))
  · have hpath := hpaths e (List.mem_of_getElem? hsource)
    exact (InLibrary.of_import hcheckable hpath).libraryPath.of_under hunder

namespace Operation

variable {α σ : Type} [Scalar α]

/-- Every target of a script leads back to an import of a library that stands before its element, or
is such an import. So what the check of the script asks the graph, whatever the cache holds, is
about something in a library: it is one of the targets or goes on from one. -/
theorem lookups_lead_back (graph : KnowledgeGraph σ) (settings : Settings α) {analysis : Analysis}
    (hpaths : ∀ e, .ofImport e ∈ analysis.elements → e.path ≠ "") :
    (∀ target ∈ analysis.plan.targets, Plan.Sourced analysis.elements target) ∧
      ∀ (cache : Cache) (start : σ) (cancelled : Bool),
        let operation := Operation.checkScript analysis cancelled
        let after := operation.run graph.watched settings ⟨cache, ⟨start, []⟩⟩
        after.unwatched = operation.run graph settings ⟨cache, start⟩ ∧
          ∀ key answer, .asked key answer ∈ after.graph.events →
            isStandardModule key.qualified = false ∧ key.qualified.toList.head? ≠ some '.' ∧
              ∃ target ∈ analysis.plan.targets, Under target.name.qualified key.qualified := by
  have hsourced : ∀ target ∈ analysis.plan.targets, Plan.Sourced analysis.elements target :=
    fun target => Plan.sourced_of_mem_ofElements
  refine ⟨hsourced, ?_⟩
  intro cache start cancelled operation after
  refine ⟨unwatched_watch graph settings _ operation, ?_⟩
  intro key answer hasked
  simp only [after, operation, run] at hasked
  rw [← GraphCheck.run_checkScript] at hasked
  rcases (GraphCheck.about_checkScript settings analysis).admitted_of_asked hasked with
    hbefore | ⟨question, ⟨target, hmem, habout⟩, rfl⟩
  · simp at hbefore
  · have hlibrary := ((hsourced target hmem).inLibrary hpaths).of_under habout
    exact ⟨hlibrary.foreign, hlibrary.absolute, target, hmem, habout⟩

/-- The three usages of a library in a script lead back to its import, and the graph is asked about
nothing but the library. -/
theorem lookups_lead_back_arrayScript :
    (∀ e, .ofImport e ∈ arrayScript.elements → e.path ≠ "") ∧
      arrayScript.plan.targets.map (fun target => target.name.qualified) =
        ["numpy", "numpy.array", "numpy.arrray"] ∧
      (∀ target ∈ arrayScript.plan.targets, Plan.Sourced arrayScript.elements target) ∧
      ∀ key answer,
        .asked key answer ∈ ((Operation.checkScript arrayScript false).run arrays.steady.watched
          (Settings.standard : Settings Rat) ⟨.empty, ⟨(), []⟩⟩).graph.events →
          isStandardModule key.qualified = false := by
  have hpaths : ∀ e, .ofImport e ∈ arrayScript.elements → e.path ≠ "" := by simp [arrayScript]
  obtain ⟨htargets, hasked⟩ :=
    lookups_lead_back arrays.steady (Settings.standard : Settings Rat) hpaths
  refine ⟨hpaths, by decide +kernel, htargets, ?_⟩
  intro key answer hmem
  exact ((hasked .empty () false).2 key answer hmem).1

end Operation

end UsageAudit

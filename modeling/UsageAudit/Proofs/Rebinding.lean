import UsageAudit.Proofs.Meaning

/-!
# Imports that bind a name again

A name may be bound more than once, and a usage should be scheduled by the latest binding. This file
keeps track of the element that gave a name what it stands for, and says when an import hides all
that was given to its name before. An import of a module that is taken as known does not: it leaves
what the name stood for, so that a later usage of the name is looked up under a path that no longer
belongs to it.
-/

namespace UsageAudit

/-- Whether the element binds the name in the script. -/
def Element.Binds (name : String) : Element → Prop
  | .ofImport e => e.name ≠ some "*" ∧ e.boundName = name
  | .classDef e => e.name = name
  | .functionDef e => e.isMethod = false ∧ e.name = name
  | .variableAssign e => e.name = name
  | .methodCall _ | .functionCall _ | .attributeAccess _ => False

namespace Plan

/-- What an element does to what a name stands for: nothing, or it takes it or gives something
else. -/
def rebinding? (names : Names) (name : String) : Element → Option (Option Meaning)
  | .ofImport e =>
    if e.isCheckable ∧ e.boundName = name then
      match Names.importedPath e with
      | some path => some (some (.imported path))
      | none => (names.objects.get? name).map fun _ => none
    else none
  | .classDef e => if e.name = name then some none else none
  | .functionDef e => if e.isMethod = false ∧ e.name = name then some none else none
  | .variableAssign e =>
    if e.name = name then some ((names.classMade name e.assignedFrom).map .object) else none
  | .methodCall _ | .functionCall _ | .attributeAccess _ => none

/-- What a name stands for after an element. -/
theorem meaning?_namesAfter {names : Names} (hsound : names.Sound) (name : String)
    (element : Element) :
    (namesAfter names element).meaning? name =
      (rebinding? names name element).getD (names.meaning? name) := by
  cases element with
  | ofImport e =>
    by_cases hcheckable : e.isCheckable
    · by_cases hname : e.boundName = name
      · subst hname
        cases hpath : Names.importedPath e with
        | some path =>
          simpa [namesAfter, rebinding?, hcheckable, hpath] using
            Names.meaning?_addImport_self hsound hpath
        | none =>
          have hall := Names.meaning?_addImport_all hsound hpath
          cases hobject : names.objects.get? e.boundName <;>
            simpa [namesAfter, rebinding?, hcheckable, hpath, hobject] using hall
      · simpa [namesAfter, rebinding?, hcheckable, hname] using
          Names.meaning?_addImport_of_ne names hname
    · simp [namesAfter, rebinding?, hcheckable]
  | classDef e =>
    by_cases hname : e.name = name
    · subst hname
      simpa [namesAfter, rebinding?] using Names.meaning?_define_self hsound e.name
    · simpa [namesAfter, rebinding?, hname] using Names.meaning?_define_of_ne names hname
  | functionDef e =>
    cases hmethod : e.isMethod with
    | true => simp [namesAfter, rebinding?, hmethod]
    | false =>
      by_cases hname : e.name = name
      · subst hname
        simpa [namesAfter, rebinding?, hmethod] using Names.meaning?_define_self hsound e.name
      · simpa [namesAfter, rebinding?, hmethod, hname] using
          Names.meaning?_define_of_ne names hname
  | variableAssign e =>
    by_cases hname : e.name = name
    · subst hname
      simpa [namesAfter, rebinding?] using
        Names.meaning?_assign_self hsound e.name e.assignedFrom
    · simpa [namesAfter, rebinding?, hname] using
        Names.meaning?_assign_of_ne names e.assignedFrom hname
  | methodCall e => rfl
  | functionCall e => rfl
  | attributeAccess e => rfl

/-- What gives a name something to stand for binds it. -/
theorem binds_of_rebinding? {names : Names} {name : String} {element : Element} {meaning : Meaning}
    (h : rebinding? names name element = some (some meaning)) : element.Binds name := by
  cases element with
  | ofImport e =>
    simp only [rebinding?] at h
    split at h
    · rename_i hbound
      refine ⟨?_, hbound.2⟩
      intro hall
      simp [Names.importedPath, hall] at h
    · cases h
  | variableAssign e =>
    simp only [rebinding?] at h
    split at h
    · assumption
    · cases h
  | classDef e => simp [rebinding?] at h
  | functionDef e => simp [rebinding?] at h
  | methodCall e => simp [rebinding?] at h
  | functionCall e => simp [rebinding?] at h
  | attributeAccess e => simp [rebinding?] at h

/-- The position of the element that gave the name what it stands for at a position, if it stands
for anything there. -/
def giver (elements : List Element) (name : String) : Nat → Option Nat
  | 0 => none
  | position + 1 =>
    match elements[position]?.bind (rebinding? (namesAt elements position) name) with
    | none => giver elements name position
    | some none => none
    | some (some _) => some position

/-- What a name stands for after one more element. -/
theorem meaning?_namesAt_succ (elements : List Element) (name : String) (position : Nat) :
    (namesAt elements (position + 1)).meaning? name =
      (elements[position]?.bind (rebinding? (namesAt elements position) name)).getD
        ((namesAt elements position).meaning? name) := by
  cases helement : elements[position]? with
  | none => simp [namesAt, List.take_add_one, helement]
  | some element =>
    have hnext :
        namesAt elements (position + 1) = namesAfter (namesAt elements position) element := by
      simp [namesAt, namesThrough, List.take_add_one, helement]
    rw [hnext, meaning?_namesAfter (sound_namesAt elements position)]
    rfl

/-- A name that no element has given anything to stands for nothing. -/
theorem meaning?_of_giver_eq_none {elements : List Element} {name : String} {position : Nat}
    (h : giver elements name position = none) :
    (namesAt elements position).meaning? name = none := by
  induction position with
  | zero => rfl
  | succ position ih =>
    rw [meaning?_namesAt_succ]
    simp only [giver] at h
    split at h
    · rename_i hkeeps
      simpa [hkeeps] using ih h
    · rename_i htakes
      simp [htakes]
    · cases h

/-- A name stands for what its giver gave it. -/
theorem meaning?_of_giver_eq_some {elements : List Element} {name : String} {position source : Nat}
    (h : giver elements name position = some source) :
    source < position ∧ ∃ element meaning, elements[source]? = some element ∧
      rebinding? (namesAt elements source) name element = some (some meaning) ∧
      (namesAt elements position).meaning? name = some meaning := by
  induction position with
  | zero => cases h
  | succ position ih =>
    rw [meaning?_namesAt_succ]
    simp only [giver] at h
    split at h
    · rename_i hkeeps
      obtain ⟨hlt, element, meaning, helement, hgives, hmeaning⟩ := ih h
      exact ⟨by omega, element, meaning, helement, hgives, by simpa [hkeeps] using hmeaning⟩
    · cases h
    · rename_i meaning hgives
      cases h
      obtain ⟨element, helement, hrebinding⟩ := Option.bind_eq_some_iff.mp hgives
      exact ⟨by omega, element, meaning, helement, hrebinding, by simp [hgives]⟩

/-- Whether the element at a position is a call or an access that starts from the name. -/
def Uses (elements : List Element) (name : String) (position : Nat) : Prop :=
  ∃ element, elements[position]? = some element ∧ element.root? = some name

/-- Whether a position stands behind another and no element between them binds the name. -/
def InReach (elements : List Element) (name : String) (start position : Nat) : Prop :=
  start < position ∧ ∀ between element, start < between → between < position →
    elements[between]? = some element → ¬element.Binds name

/-- Whether no usage of the name behind an element, up to the next element that binds the name, is
scheduled by what an element before it gave to the name. -/
def HidesEarlier (elements : List Element) (name : String) (start : Nat) : Prop :=
  ∀ position target source, InReach elements name start position → Uses elements name position →
    (ofElements elements).nameAt? position = some target →
    giver elements name position = some source → start ≤ source

/-- As long as no element binds a name, it stands for what the same element gave it, or for
nothing. -/
theorem giver_of_inReach {elements : List Element} {name : String} {start position : Nat}
    (h : InReach elements name start position) :
    giver elements name position = none ∨
      giver elements name position = giver elements name (start + 1) := by
  induction position with
  | zero =>
    have := h.1
    omega
  | succ position ih =>
    obtain ⟨hstart, hbetween⟩ := h
    by_cases hfirst : start = position
    · subst hfirst
      exact Or.inr rfl
    · have hearlier : InReach elements name start position :=
        ⟨by omega, fun between element hlt hlt' => hbetween between element hlt (by omega)⟩
      simp only [giver.eq_2 elements name position]
      split
      · exact ih hearlier
      · exact Or.inl rfl
      · rename_i meaning hgives
        obtain ⟨element, helement, hrebinding⟩ := Option.bind_eq_some_iff.mp hgives
        have hbinds := binds_of_rebinding? hrebinding
        exact absurd hbinds (hbetween position element (by omega) (by omega) helement)

/-- A usage is scheduled only if some element gave its name what it stands for. -/
theorem exists_giver_of_nameAt? {elements : List Element} {name : String} {position : Nat}
    {target : TargetName} (huses : Uses elements name position)
    (htarget : (ofElements elements).nameAt? position = some target) :
    ∃ source, giver elements name position = some source := by
  obtain ⟨element, helement, hroot⟩ := huses
  rw [nameAt?_ofElements, helement, Option.bind_some, scheduled?_eq _ hroot] at htarget
  cases hgiver : giver elements name position with
  | some source => exact ⟨source, rfl⟩
  | none => simp [meaning?_of_giver_eq_none hgiver] at htarget

/-- An import of a name hides all that was given to the name before if and only if its module is one
that a graph may know, or no usage of the name is scheduled before the name is bound again. -/
theorem hidesEarlier_iff {elements : List Element} {start : Nat} {e : Import}
    (himport : elements[start]? = some (.ofImport e)) (hname : e.name ≠ some "*") :
    HidesEarlier elements e.boundName start ↔
      (e.isCheckable ∨ ∀ position, InReach elements e.boundName start position →
        Uses elements e.boundName position → (ofElements elements).nameAt? position = none) := by
  constructor
  · intro hhides
    by_cases hcheckable : e.isCheckable
    · exact Or.inl hcheckable
    · refine Or.inr fun position hreach huses => ?_
      cases htarget : (ofElements elements).nameAt? position with
      | none => rfl
      | some target =>
        exfalso
        obtain ⟨source, hsource⟩ := exists_giver_of_nameAt? huses htarget
        have hle := hhides position target source hreach huses htarget hsource
        have hkeeps :
            giver elements e.boundName (start + 1) = giver elements e.boundName start := by
          simp [giver, himport, rebinding?, hcheckable]
        rcases giver_of_inReach hreach with hnone | hsame
        · simp [hnone] at hsource
        · have hlt := (meaning?_of_giver_eq_some (hkeeps ▸ hsame ▸ hsource)).1
          omega
  · rintro (hcheckable | hnone) position target source hreach huses htarget hsource
    · obtain ⟨path, hpath⟩ : ∃ path, Names.importedPath e = some path := by
        unfold Names.importedPath
        split <;> simp_all
      have hgives : giver elements e.boundName (start + 1) = some start := by
        simp [giver, himport, rebinding?, hcheckable, hpath]
      rcases giver_of_inReach hreach with hnone | hsame
      · simp [hnone] at hsource
      · have heq : source = start := by simpa [hsource, hgives] using hsame
        omega
    · simp [hnone position hreach huses] at htarget

/-- A script that imports a name from a library, then imports it from the standard library and calls
it. -/
def pathScript : String := "from acme import Path\nfrom pathlib import Path\nPath('x')\n"

/-- The elements of the script. -/
def pathElements : List Element := [
  .ofImport ⟨"acme", some "Path", none, 1⟩,
  .ofImport ⟨"pathlib", some "Path", none, 2⟩,
  .functionCall ⟨"Path", 1, 0, ⟨[.str], [], false⟩, 3⟩]

/-- The call stands right behind the second import. -/
theorem inReach_pathElements : InReach pathElements "Path" 1 2 := by
  refine ⟨by omega, ?_⟩
  intro between element hlt hlt'
  omega

/-- The call starts from the imported name. -/
theorem uses_pathElements : Uses pathElements "Path" 2 := ⟨_, rfl, rfl⟩

/-- The call is looked up in the library. -/
theorem nameAt?_pathElements :
    (ofElements pathElements).nameAt? 2 = some (.ofClass "acme.Path") := by
  decide +kernel

/-- The second import does not hide the first: its module is taken as known, and the call is
scheduled. -/
theorem not_hidesEarlier_pathElements : ¬HidesEarlier pathElements "Path" 1 := by
  have himport : pathElements[1]? = some (.ofImport ⟨"pathlib", some "Path", none, 2⟩) := rfl
  intro hhides
  rcases (hidesEarlier_iff himport (by decide)).mp hhides with hcheckable | hnone
  · revert hcheckable
    decide +kernel
  · simpa [nameAt?_pathElements] using hnone 2 inReach_pathElements uses_pathElements

/-- The call in the script is looked up under the path that the first import gave to the name. -/
theorem stale_path_scheduled : ∃ analysis, Analysis.ofScript pathScript "paths.py" = .ok analysis ∧
    analysis.plan.nameAt? 2 = some (.ofClass "acme.Path") ∧
    giver analysis.elements "Path" 2 = some 0 ∧ ¬HidesEarlier analysis.elements "Path" 1 := by
  have helements : (Analysis.ofScript pathScript "paths.py").toOption.map Analysis.elements =
      some pathElements := by decide +kernel
  cases hanalysis : Analysis.ofScript pathScript "paths.py" with
  | error fault => simp [hanalysis, Except.toOption] at helements
  | ok analysis =>
    have heq : analysis.elements = pathElements := by
      simpa [hanalysis, Except.toOption] using helements
    have hgiver : giver pathElements "Path" 2 = some 0 := by decide +kernel
    refine ⟨analysis, rfl, ?_, ?_, ?_⟩
    · rw [Analysis.plan, heq, nameAt?_pathElements]
    · rw [heq, hgiver]
    · rw [heq]
      intro hhides
      have hle := hhides 2 _ 0 inReach_pathElements uses_pathElements nameAt?_pathElements hgiver
      omega

end Plan

end UsageAudit

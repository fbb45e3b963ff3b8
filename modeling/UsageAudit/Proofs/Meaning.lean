import UsageAudit.Proofs.Plan

/-!
# What names stand for

What is scheduled for a call or an access is decided by what the first segment of its expression
stands for: the class of a variable, or the path of an import. An element changes that for the name
it binds and for no other.
-/

namespace UsageAudit

/-- What a name stands for. -/
inductive Meaning where
  /-- A variable that holds an object of a class. -/
  | object (path : String)
  /-- A module or a member of one that was imported. -/
  | imported (path : String)
  deriving DecidableEq, Repr

/-- What an expression refers to whose first segment has the meaning. -/
def Meaning.referent? (expression : String) (meaning : Meaning) : Option Referent :=
  match Dotted.segments expression.toList with
  | [] => none
  | root :: rest =>
    if !Dotted.isIdentifier root || !rest.all Dotted.isIdentifier then none
    else
      match meaning with
      | .object path => if rest.isEmpty then some (.ofClass path) else none
      | .imported start =>
        let path := start ++ String.ofList (rest.flatMap fun segment => '.' :: segment)
        if Dotted.startsUpper (Dotted.lastSegment path.toList) then some (.ofClass path)
        else some (.ofModule path)

/-- What is called or accessed, if the element is a call or an access. -/
def Element.expression? : Element → Option String
  | .methodCall e => some e.object
  | .functionCall e => some e.name
  | .attributeAccess e => some e.object
  | .ofImport _ | .classDef _ | .functionDef _ | .variableAssign _ => none

/-- The name that a call or an access starts from. -/
def Element.root? (element : Element) : Option String := element.expression?.map firstSegment

/-- The first segment of a text is what stands before its first dot. -/
theorem Dotted.exists_segments (text : List Char) :
    ∃ rest, segments text = text.takeWhile (· != '.') :: rest := by
  induction text with
  | nil => exact ⟨[], rfl⟩
  | cons c text ih =>
    obtain ⟨rest, hrest⟩ := ih
    by_cases hdot : c = '.'
    · exact ⟨segments text, by simp [segments, hdot]⟩
    · exact ⟨rest, by simp [segments, hdot, hrest]⟩

/-- The first segment of an expression, by its segments. -/
theorem firstSegment_of_segments {expression name : String} {members : List (List Char)}
    (h : Dotted.segments expression.toList = name.toList :: members) :
    firstSegment expression = name := by
  obtain ⟨rest, hrest⟩ := Dotted.exists_segments expression.toList
  rw [hrest] at h
  obtain ⟨hname, -⟩ := List.cons.inj h
  rw [firstSegment, hname, String.ofList_toList]

namespace Names

/-- What a name stands for. -/
def meaning? (names : Names) (name : String) : Option Meaning :=
  match names.objects.get? name with
  | some path => some (.object path)
  | none => (names.imports.get? name).map .imported

/-- What an expression refers to is decided by what its first segment stands for. -/
theorem resolve_eq (names : Names) (expression : String) :
    names.resolve expression =
      (names.meaning? (firstSegment expression)).bind (Meaning.referent? expression) := by
  obtain ⟨rest, hsegments⟩ := Dotted.exists_segments expression.toList
  have hroot :
      String.ofList (expression.toList.takeWhile (· != '.')) = firstSegment expression := rfl
  simp only [resolve, meaning?, hsegments, hroot]
  cases names.objects.get? (firstSegment expression) with
  | some path => simp only [Option.bind_some, Meaning.referent?, hsegments]
  | none =>
    cases names.imports.get? (firstSegment expression) with
    | none => simp
    | some start =>
      simp only [Option.map_some, Option.bind_some, Meaning.referent?, hsegments]
      split
      · rfl
      · split <;> rfl

/-- What holds of the names in effect at any place: no name is bound twice, or as an import and as a
variable at once. -/
structure Sound (names : Names) : Prop where
  imports : (Ordered.keys names.imports).Nodup
  objects : (Ordered.keys names.objects).Nodup
  apart : ∀ name, names.objects.get? name = none ∨ names.imports.get? name = none

/-- Before the first element no name is bound. -/
theorem Sound.empty : Names.empty.Sound where
  imports := List.nodup_nil
  objects := List.nodup_nil
  apart _ := Or.inl rfl

/-- The class of what is called on the right side of an assignment. The name that is assigned has
lost its import when the callee is looked up. -/
def classMade (names : Names) (name : String) (callee : Option String) : Option String :=
  match callee.bind { names with imports := names.imports.erase name : Names }.resolve with
  | some (.ofClass path) => some path
  | _ => none

/-- An assignment leaves a variable of the class that was made, if one was. -/
theorem assign_eq (names : Names) (name : String) (callee : Option String) :
    names.assign name callee =
      ⟨names.imports.erase name,
        match names.classMade name callee with
        | some path => names.objects.put name path
        | none => names.objects.erase name⟩ := by
  simp only [assign, classMade]
  cases callee.bind { names with imports := names.imports.erase name : Names }.resolve with
  | none => rfl
  | some referent => cases referent <;> rfl

section Binding

variable {names : Names} (hsound : names.Sound)
include hsound

/-- An assignment leaves the names sound. -/
theorem Sound.assign (name : String) (callee : Option String) :
    (names.assign name callee).Sound := by
  rw [assign_eq]
  refine ⟨Ordered.nodup_keys_erase hsound.imports name, ?_, ?_⟩
  · cases names.classMade name callee with
    | some path => exact Ordered.nodup_keys_put hsound.objects name path
    | none => exact Ordered.nodup_keys_erase hsound.objects name
  · intro other
    by_cases h : name = other
    · subst h
      exact Or.inr (Ordered.get?_erase_self hsound.imports name)
    · cases names.classMade name callee with
      | some path =>
        simpa [Ordered.get?_put_of_ne _ _ h, Ordered.get?_erase_of_ne _ h] using hsound.apart other
      | none => simpa [Ordered.get?_erase_of_ne _ h] using hsound.apart other

/-- A definition leaves the names sound. -/
theorem Sound.define (name : String) : (names.define name).Sound := by
  refine ⟨Ordered.nodup_keys_erase hsound.imports name,
    Ordered.nodup_keys_erase hsound.objects name, ?_⟩
  intro other
  by_cases h : name = other
  · subst h
    exact Or.inl (Ordered.get?_erase_self hsound.objects name)
  · simpa [Names.define, Ordered.get?_erase_of_ne _ h] using hsound.apart other

/-- An import leaves the names sound. -/
theorem Sound.addImport (e : Import) : (names.addImport e).Sound := by
  refine ⟨?_, Ordered.nodup_keys_erase hsound.objects e.boundName, ?_⟩
  · cases hpath : importedPath e with
    | some path =>
      simpa [Names.addImport, hpath] using Ordered.nodup_keys_put hsound.imports e.boundName path
    | none => simpa [Names.addImport, hpath] using hsound.imports
  · intro other
    by_cases h : e.boundName = other
    · subst h
      exact Or.inl (Ordered.get?_erase_self hsound.objects e.boundName)
    · cases hpath : importedPath e with
      | some path =>
        simpa [Names.addImport, hpath, Ordered.get?_put_of_ne _ _ h, Ordered.get?_erase_of_ne _ h]
          using hsound.apart other
      | none =>
        simpa [Names.addImport, hpath, Ordered.get?_erase_of_ne _ h] using hsound.apart other

/-- What a name stands for after an assignment to it. -/
theorem meaning?_assign_self (name : String) (callee : Option String) :
    (names.assign name callee).meaning? name = (names.classMade name callee).map .object := by
  rw [assign_eq]
  cases names.classMade name callee with
  | some path => simp [meaning?]
  | none =>
    simp [meaning?, Ordered.get?_erase_self hsound.objects, Ordered.get?_erase_self hsound.imports]

/-- A definition takes what its name stood for. -/
theorem meaning?_define_self (name : String) : (names.define name).meaning? name = none := by
  simp [meaning?, Names.define, Ordered.get?_erase_self hsound.objects,
    Ordered.get?_erase_self hsound.imports]

/-- What the name of an import stands for after it, if it imports no more than that name. -/
theorem meaning?_addImport_self {e : Import} {path : String} (hpath : importedPath e = some path) :
    (names.addImport e).meaning? e.boundName = some (.imported path) := by
  simp [meaning?, Names.addImport, hpath, Ordered.get?_erase_self hsound.objects]

/-- An import of all names only takes the class of a variable. -/
theorem meaning?_addImport_all {e : Import} (hpath : importedPath e = none) :
    (names.addImport e).meaning? e.boundName =
      match names.objects.get? e.boundName with
      | some _ => none
      | none => names.meaning? e.boundName := by
  have herased := Ordered.get?_erase_self hsound.objects e.boundName
  cases hobject : names.objects.get? e.boundName with
  | some path =>
    have himport := (hsound.apart e.boundName).resolve_left (by simp [hobject])
    simp [meaning?, Names.addImport, hpath, herased, himport]
  | none => simp [meaning?, Names.addImport, hpath, herased, hobject]

end Binding

/-- An assignment leaves what the other names stand for. -/
theorem meaning?_assign_of_ne (names : Names) {name other : String} (callee : Option String)
    (h : name ≠ other) : (names.assign name callee).meaning? other = names.meaning? other := by
  rw [assign_eq]
  cases names.classMade name callee <;>
    simp [meaning?, Ordered.get?_put_of_ne _ _ h, Ordered.get?_erase_of_ne _ h]

/-- A definition leaves what the other names stand for. -/
theorem meaning?_define_of_ne (names : Names) {name other : String} (h : name ≠ other) :
    (names.define name).meaning? other = names.meaning? other := by
  simp [meaning?, Names.define, Ordered.get?_erase_of_ne _ h]

/-- An import leaves what the other names stand for. -/
theorem meaning?_addImport_of_ne (names : Names) {e : Import} {other : String}
    (h : e.boundName ≠ other) : (names.addImport e).meaning? other = names.meaning? other := by
  cases hpath : importedPath e <;>
    simp [meaning?, Names.addImport, hpath, Ordered.get?_put_of_ne _ _ h,
      Ordered.get?_erase_of_ne _ h]

end Names

namespace Plan

/-- The name under which a call or an access is looked up whose first segment has the meaning. -/
def scheduledBy? (meaning : Option Meaning) : Element → Option TargetName
  | .functionCall e => (meaning.bind (Meaning.referent? e.name)).bind callTarget?
  | .methodCall e =>
    (meaning.bind (Meaning.referent? e.object)).map fun referent => methodTarget referent e.method
  | .attributeAccess e =>
    (meaning.bind (Meaning.referent? e.object)).map fun referent => memberTarget referent e.member
  | .ofImport _ | .classDef _ | .functionDef _ | .variableAssign _ => none

/-- A name that stands for nothing leads nowhere. -/
@[simp]
theorem scheduledBy?_none (element : Element) : scheduledBy? none element = none := by
  cases element <;> rfl

/-- What is scheduled for a call or an access is decided by what the name that it starts from stands
for. -/
theorem scheduled?_eq (names : Names) {element : Element} {name : String}
    (h : element.root? = some name) :
    scheduled? names element = scheduledBy? (names.meaning? name) element := by
  obtain ⟨expression, hexpression, rfl⟩ := Option.map_eq_some_iff.mp h
  cases element <;> cases hexpression <;>
    simp [scheduled?, target?, scheduledBy?, Names.resolve_eq, Option.map_map, Function.comp_def]

/-- The names in effect at any place are sound. -/
theorem sound_namesAfter {names : Names} (h : names.Sound) (element : Element) :
    (namesAfter names element).Sound := by
  cases element with
  | ofImport e =>
    simp only [namesAfter]
    split
    · exact h.addImport e
    · exact h
  | classDef e => exact h.define e.name
  | functionDef e =>
    simp only [namesAfter]
    split
    · exact h
    · exact h.define e.name
  | variableAssign e => exact h.assign e.name e.assignedFrom
  | methodCall e => exact h
  | functionCall e => exact h
  | attributeAccess e => exact h

/-- Elements leave the names sound. -/
theorem sound_namesThrough {names : Names} (h : names.Sound) (elements : List Element) :
    (namesThrough names elements).Sound := by
  induction elements generalizing names with
  | nil => exact h
  | cons element rest ih => exact ih (sound_namesAfter h element)

/-- The names in effect at any place of a script are sound. -/
theorem sound_namesAt (elements : List Element) (position : Nat) :
    (namesAt elements position).Sound :=
  sound_namesThrough .empty _

/-- Calls and accesses bind no names. -/
theorem namesThrough_of_expressions (names : Names) {elements : List Element}
    (h : ∀ element ∈ elements, element.expression?.isSome) :
    namesThrough names elements = names := by
  induction elements with
  | nil => rfl
  | cons element rest ih =>
    have hfirst : namesAfter names element = names := by
      have hexpression := h element (by simp)
      cases element <;> simp [Element.expression?] at hexpression <;> rfl
    calc
      _ = namesThrough (namesAfter names element) rest := rfl
      _ = namesThrough names rest := by rw [hfirst]
      _ = names := ih fun other hother => h other (List.mem_cons_of_mem _ hother)

end Plan

end UsageAudit

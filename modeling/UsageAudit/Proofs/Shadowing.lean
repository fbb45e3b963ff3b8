import UsageAudit.Proofs.Rebinding

/-!
# Names that are hidden

A class or a function that a script defines hides what its name stood for, and so does a variable of
which no class is known. From there up to the next element that settles what the name leads to, no
usage that starts from the name is looked up. Methods and imports of all names settle nothing: no
name leads anywhere after them that did not lead there before.
-/

namespace UsageAudit

/-- Whether the element settles what the name leads to. Imports of modules that are taken as known
leave it open, and so do methods and imports of all names. -/
def Element.Settles (name : String) : Element → Prop
  | .ofImport e => e.isCheckable = true ∧ e.name ≠ some "*" ∧ e.boundName = name
  | .classDef e => e.name = name
  | .functionDef e => e.isMethod = false ∧ e.name = name
  | .variableAssign e => e.name = name
  | .methodCall _ | .functionCall _ | .attributeAccess _ => False

/-- Whether the element is the definition of a method or an import of all names. -/
def Element.BindsNoName : Element → Prop
  | .ofImport e => e.name = some "*"
  | .functionDef e => e.isMethod = true
  | .classDef _ | .variableAssign _ | .methodCall _ | .functionCall _ | .attributeAccess _ => False

/-- Calls and accesses are usages. -/
theorem Element.isUsage_of_root? {element : Element} {name : String}
    (h : element.root? = some name) : element.isUsage = true := by
  cases element with
  | methodCall e => rfl
  | functionCall e => rfl
  | attributeAccess e => rfl
  | ofImport e => cases h
  | classDef e => cases h
  | functionDef e => cases h
  | variableAssign e => cases h

namespace Plan

/-- Whether the element at a position hides what the name stood for: it defines a class or a
function of that name, or it assigns to it something of which no class is known. -/
def Hides (elements : List Element) (name : String) (position : Nat) : Prop :=
  match elements[position]? with
  | some (.classDef e) => e.name = name
  | some (.functionDef e) => e.isMethod = false ∧ e.name = name
  | some (.variableAssign e) =>
    e.name = name ∧ (namesAt elements (position + 1)).objects.get? name = none
  | _ => False

/-- Whether a position stands behind another and no element between them settles what the name leads
to. -/
def SettledBy (elements : List Element) (name : String) (start position : Nat) : Prop :=
  start < position ∧ ∀ between element, start < between → between < position →
    elements[between]? = some element → ¬element.Settles name

/-- The positions of the usages for which nothing is scheduled. -/
def skippedPositions (elements : List Element) : List Nat :=
  (List.range elements.length).filter fun position =>
    elements[position]?.any Element.isUsage && ((ofElements elements).targetAt? position).isNone

/-- The number of skipped usages, by their positions. -/
theorem skipped_planFrom (names : Names) (index : Nat) (elements : List Element) :
    (planFrom names index elements).skipped =
      (List.range elements.length).countP fun position =>
        elements[position]?.any Element.isUsage &&
          ((planFrom names index elements).targetAt? (index + position)).isNone := by
  induction elements generalizing names index with
  | nil => rfl
  | cons element rest ih =>
    have hrest := ih (namesAfter names element) (index + 1)
    have hfirst : (planFrom names index (element :: rest)).targetAt? (index + 0) =
        targetOf? names index element := by
      rw [targetAt?_planFrom_cons, if_pos (by omega)]
    have hlater (position : Nat) :
        (planFrom names index (element :: rest)).targetAt? (index + (position + 1)) =
          (planFrom (namesAfter names element) (index + 1) rest).targetAt?
            (index + 1 + position) := by
      have hindex : index + (position + 1) = index + 1 + position := by omega
      rw [targetAt?_planFrom_cons, if_neg (by omega), hindex]
    have hskipped : (planFrom names index (element :: rest)).skipped =
        (planFrom (namesAfter names element) (index + 1) rest).skipped +
          if element.isUsage && (targetOf? names index element).isNone then 1 else 0 := by
      simp only [planFrom]
      split
      · rename_i htarget
        simp [targetOf?, htarget]
      · rename_i htarget
        cases husage : element.isUsage <;> simp [targetOf?, htarget]
    rw [hskipped, hrest, List.length_cons, List.range_succ_eq_map, List.countP_cons,
      List.countP_map, hfirst]
    simp [Function.comp_def, hlater]

/-- The usages that a plan skips are those for which nothing is scheduled. -/
theorem skipped_ofElements (elements : List Element) :
    (ofElements elements).skipped = (skippedPositions elements).length := by
  have h := skipped_planFrom .empty 0 elements
  simp only [Nat.zero_add] at h
  rw [skippedPositions, ← List.countP_eq_length_filter]
  exact h

/-- What gives a name something to stand for settles what the name leads to. -/
theorem settles_of_rebinding? {names : Names} {name : String} {element : Element}
    {meaning : Meaning} (h : rebinding? names name element = some (some meaning)) :
    element.Settles name := by
  have hbinds := binds_of_rebinding? h
  cases element with
  | ofImport e =>
    obtain ⟨hname, hbound⟩ := hbinds
    cases hcheckable : e.isCheckable with
    | true => exact ⟨hcheckable, hname, hbound⟩
    | false => simp [rebinding?, hcheckable] at h
  | classDef e => exact hbinds
  | functionDef e => exact hbinds
  | variableAssign e => exact hbinds
  | methodCall e => exact hbinds
  | functionCall e => exact hbinds
  | attributeAccess e => exact hbinds

/-- A name that stands for nothing does so until an element settles what it leads to. -/
theorem meaning?_eq_none_of_not_settles {elements : List Element} {name : String} {position : Nat}
    (hbefore : (namesAt elements position).meaning? name = none)
    (hkeeps : ∀ element, elements[position]? = some element → ¬element.Settles name) :
    (namesAt elements (position + 1)).meaning? name = none := by
  rw [meaning?_namesAt_succ, hbefore]
  cases hrebinding : elements[position]?.bind (rebinding? (namesAt elements position) name) with
  | none => rfl
  | some given =>
    obtain ⟨element, helement, hgives⟩ := Option.bind_eq_some_iff.mp hrebinding
    cases given with
    | none => rfl
    | some meaning => exact absurd (settles_of_rebinding? hgives) (hkeeps element helement)

/-- A name that is hidden stands for nothing. -/
theorem meaning?_of_hides {elements : List Element} {name : String} {position : Nat}
    (h : Hides elements name position) :
    (namesAt elements (position + 1)).meaning? name = none := by
  rw [meaning?_namesAt_succ]
  cases helement : elements[position]? with
  | none => simp [Hides, helement] at h
  | some element =>
    simp only [Hides, helement] at h
    cases element with
    | classDef e => simp [rebinding?, show e.name = name from h]
    | functionDef e => simp [rebinding?, show e.isMethod = false ∧ e.name = name from h]
    | variableAssign e =>
      obtain ⟨hname, hclass⟩ := h
      have hnext : namesAt elements (position + 1) =
          (namesAt elements position).assign e.name e.assignedFrom := by
        simp [namesAt, namesThrough, List.take_add_one, helement, namesAfter]
      have hmade : (namesAt elements position).classMade name e.assignedFrom = none := by
        rw [hnext, Names.assign_eq, hname] at hclass
        cases hmade : (namesAt elements position).classMade name e.assignedFrom with
        | none => rfl
        | some path => simp [hmade] at hclass
      simp [rebinding?, hname, hmade]
    | ofImport e => exact h.elim
    | methodCall e => exact h.elim
    | functionCall e => exact h.elim
    | attributeAccess e => exact h.elim

/-- A name that is hidden stands for nothing as long as no further element settles what it leads
to. -/
theorem meaning?_of_settledBy {elements : List Element} {name : String} {start position : Nat}
    (hhides : Hides elements name start) (hsettled : SettledBy elements name start position) :
    (namesAt elements position).meaning? name = none := by
  obtain ⟨hlt, hbetween⟩ := hsettled
  induction position with
  | zero => omega
  | succ position ih =>
    by_cases hfirst : start = position
    · subst hfirst
      exact meaning?_of_hides hhides
    · have hbefore : (namesAt elements position).meaning? name = none :=
        ih (by omega) fun between element hafter hearlier =>
          hbetween between element hafter (by omega)
      exact meaning?_eq_none_of_not_settles hbefore fun element =>
        hbetween position element (by omega) (by omega)

/-- Nothing is scheduled for a usage of a name that stands for nothing, and the usage is skipped. -/
theorem skipped_of_meaning? {elements : List Element} {name : String} {position : Nat}
    (huses : Uses elements name position)
    (hmeaning : (namesAt elements position).meaning? name = none) :
    (ofElements elements).targetAt? position = none ∧ position ∈ skippedPositions elements := by
  obtain ⟨element, helement, hroot⟩ := huses
  have hscheduled : scheduled? (namesAt elements position) element = none := by
    rw [scheduled?_eq _ hroot, hmeaning, scheduledBy?_none]
  have htarget : (ofElements elements).targetAt? position = none := by
    have hnone := Option.map_eq_none_iff.mp hscheduled
    rw [targetAt?_ofElements, helement, Option.bind_some, targetOf?, hnone, Option.map_none]
  refine ⟨htarget, List.mem_filter.mpr ⟨?_, ?_⟩⟩
  · exact List.mem_range.mpr (List.getElem?_eq_some_iff.mp helement).1
  · rw [helement, htarget, Option.any_some, Element.isUsage_of_root? hroot]
    rfl

/-- What an expression leads to after a method or an import of all names, it led to before. -/
theorem resolve_of_bindsNoName {elements : List Element} {position : Nat} {element : Element}
    (helement : elements[position]? = some element) (h : element.BindsNoName)
    {expression : String} {referent : Referent}
    (hresolve : (namesAt elements (position + 1)).resolve expression = some referent) :
    (namesAt elements position).resolve expression = some referent := by
  have hsettles : ∀ name, ¬element.Settles name := by
    intro name hsettles
    cases element with
    | ofImport e => exact hsettles.2.1 h
    | functionDef e => exact absurd h (by simp [Element.BindsNoName, hsettles.1])
    | _ => exact h
  rw [Names.resolve_eq] at hresolve ⊢
  obtain ⟨meaning, hmeaning, hreferent⟩ := Option.bind_eq_some_iff.mp hresolve
  rw [meaning?_namesAt_succ, helement, Option.bind_some] at hmeaning
  cases hrebinding : rebinding? (namesAt elements position) (firstSegment expression) element with
  | none =>
    rw [hrebinding, Option.getD_none] at hmeaning
    rw [hmeaning, Option.bind_some, hreferent]
  | some given =>
    rw [hrebinding, Option.getD_some] at hmeaning
    subst hmeaning
    exact absurd (settles_of_rebinding? hrebinding) (hsettles _)

/-- No name is an import and a variable at the same time. From an element that hides a name up to
the next one that settles what the name leads to, every usage that starts from the name is skipped.
After a method or an import of all names nothing leads anywhere that did not lead there before. -/
theorem hidden_names_skipped (elements : List Element) :
    (ofElements elements).skipped = (skippedPositions elements).length ∧
      ∀ position,
        let names := namesAt elements position
        (∀ name, ¬(names.imports.has name = true ∧ names.objects.has name = true)) ∧
          (∀ name start, Hides elements name start → SettledBy elements name start position →
            Uses elements name position →
              (ofElements elements).targetAt? position = none ∧
                position ∈ skippedPositions elements) ∧
          ∀ element, elements[position]? = some element → element.BindsNoName →
            ∀ expression referent,
              (namesAt elements (position + 1)).resolve expression = some referent →
                names.resolve expression = some referent := by
  refine ⟨skipped_ofElements elements, ?_⟩
  intro position names
  refine ⟨?_, ?_, ?_⟩
  · rintro name ⟨himport, hobject⟩
    rcases (sound_namesAt elements position).apart name with hnone | hnone
    · simp [Ordered.has, names, hnone] at hobject
    · simp [Ordered.has, names, hnone] at himport
  · intro name start hhides hsettled huses
    exact skipped_of_meaning? huses (meaning?_of_settledBy hhides hsettled)
  · intro element helement hbinds expression referent hresolve
    exact resolve_of_bindsNoName helement hbinds hresolve

/-- The elements of a script that imports a class and defines one of the same name. The class has a
method that is called as the class is, and all names of another library are imported, before an
object is made of the class. -/
def pointElements : List Element := [
  .ofImport ⟨"acme", some "Point", none, 1⟩,
  .classDef ⟨"Point", [], ["Point"], 2⟩,
  .functionDef ⟨"Point", ["self"], some "Point", false, 3⟩,
  .ofImport ⟨"shapes", some "*", none, 4⟩,
  .functionCall ⟨"Point", 0, 0, .empty, 5⟩]

/-- The definition of the class hides the import, and the making of the object is skipped. -/
theorem hidden_names_skipped_pointElements :
    Hides pointElements "Point" 1 ∧ SettledBy pointElements "Point" 1 4 ∧
      Uses pointElements "Point" 4 ∧ (ofElements pointElements).targetAt? 4 = none ∧
      4 ∈ skippedPositions pointElements ∧
      (namesAt pointElements 1).resolve "Point" = some (.ofClass "acme.Point") := by
  have hhides : Hides pointElements "Point" 1 := rfl
  have hsettled : SettledBy pointElements "Point" 1 4 := by
    refine ⟨by omega, ?_⟩
    intro between element hafter hearlier helement
    have hposition : between = 2 ∨ between = 3 := by omega
    rcases hposition with rfl | rfl <;> obtain rfl := Option.some.inj helement <;>
      simp [Element.Settles, FunctionDef.isMethod]
  have huses : Uses pointElements "Point" 4 := ⟨_, rfl, rfl⟩
  obtain ⟨-, hskipped⟩ := hidden_names_skipped pointElements
  obtain ⟨htarget, hmem⟩ := (hskipped 4).2.1 "Point" 1 hhides hsettled huses
  exact ⟨hhides, hsettled, huses, htarget, hmem, by decide +kernel⟩

end Plan

end UsageAudit

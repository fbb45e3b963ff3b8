import UsageAudit.Resolution

/-!
# What a plan holds

A plan is made in one walk over the elements. This file takes it apart again: what is scheduled for
the element at a position depends on that element and on the names in effect there, which the
elements before it have left.
-/

namespace UsageAudit.Plan

/-- The names in effect after a row of elements. -/
def namesThrough (names : Names) (elements : List Element) : Names :=
  elements.foldl namesAfter names

/-- The names in effect before the element at a position. -/
def namesAt (elements : List Element) (position : Nat) : Names :=
  namesThrough .empty (elements.take position)

/-- The name under which an element is looked up where the given names are in effect. -/
def scheduled? (names : Names) (element : Element) : Option TargetName :=
  (target? names element).map Prod.fst

/-- The name under which the element at a position is to be looked up. -/
def nameAt? (plan : Plan) (position : Nat) : Option TargetName :=
  (plan.targets.find? fun target => target.element.index == position).map Target.name

/-- The target of the element at a position. -/
def targetAt? (plan : Plan) (position : Nat) : Option Target :=
  plan.targets.find? fun target => target.element.index == position

/-- What is scheduled for the element at a position where the given names are in effect. -/
def targetOf? (names : Names) (position : Nat) (element : Element) : Option Target :=
  (target? names element).map fun (name, kind, arguments) =>
    ⟨element.ref position, kind, name, arguments⟩

/-- The names after two rows of elements. -/
theorem namesThrough_append (names : Names) (first second : List Element) :
    namesThrough names (first ++ second) = namesThrough (namesThrough names first) second :=
  List.foldl_append

/-- Each target is that of one of the elements, by the names in effect there. -/
theorem exists_of_mem_planFrom {names : Names} {index : Nat} {elements : List Element}
    {target : Target} (h : target ∈ (planFrom names index elements).targets) :
    ∃ names' element, element ∈ elements ∧
      target? names' element = some (target.name, target.kind, target.arguments) := by
  induction elements generalizing names index with
  | nil => simp [planFrom] at h
  | cons element rest ih =>
    simp only [planFrom] at h
    split at h
    · rename_i name kind arguments hname
      rcases List.mem_cons.mp h with rfl | h
      · exact ⟨names, element, by simp, hname⟩
      · obtain ⟨names', element', hmem, htarget⟩ := ih h
        exact ⟨names', element', List.mem_cons_of_mem _ hmem, htarget⟩
    · have hrest : target ∈ (planFrom (namesAfter names element) (index + 1) rest).targets := by
        split at h <;> exact h
      obtain ⟨names', element', hmem, htarget⟩ := ih hrest
      exact ⟨names', element', List.mem_cons_of_mem _ hmem, htarget⟩

/-- The targets of a plan stand at the positions of its elements. -/
theorem le_index_of_mem_planFrom {names : Names} {index : Nat} {elements : List Element}
    {target : Target} (h : target ∈ (planFrom names index elements).targets) :
    index ≤ target.element.index := by
  induction elements generalizing names index with
  | nil => simp [planFrom] at h
  | cons element rest ih =>
    simp only [planFrom] at h
    split at h
    · rcases List.mem_cons.mp h with rfl | h
      · exact Nat.le_refl _
      · have := ih h
        omega
    · have hrest : target ∈ (planFrom (namesAfter names element) (index + 1) rest).targets := by
        split at h <;> exact h
      have := ih hrest
      omega

/-- Nothing is scheduled for positions before the first element. -/
theorem targetAt?_planFrom_of_lt {names : Names} {index position : Nat} {elements : List Element}
    (h : position < index) : (planFrom names index elements).targetAt? position = none := by
  unfold targetAt?
  rw [List.find?_eq_none]
  intro target htarget
  have := le_index_of_mem_planFrom htarget
  simp only [beq_iff_eq]
  omega

/-- What is scheduled for the first element, and for those behind it. -/
theorem targetAt?_planFrom_cons (names : Names) (index position : Nat) (element : Element)
    (rest : List Element) :
    (planFrom names index (element :: rest)).targetAt? position =
      if position = index then targetOf? names index element
      else (planFrom (namesAfter names element) (index + 1) rest).targetAt? position := by
  have hfirst : (element.ref index).index = index := rfl
  by_cases hposition : position = index
  · subst hposition
    have hrest :
        (planFrom (namesAfter names element) (position + 1) rest).targetAt? position = none :=
      targetAt?_planFrom_of_lt (Nat.lt_succ_self position)
    simp only [planFrom, if_true, targetOf?]
    cases htarget : target? names element with
    | some target => simp [targetAt?, hfirst]
    | none =>
      simp only [Option.map_none]
      split <;> exact hrest
  · simp only [planFrom, if_neg hposition]
    cases htarget : target? names element with
    | some target => simp [targetAt?, hfirst, Ne.symm hposition]
    | none =>
      dsimp only
      split <;> rfl

/-- What is scheduled for an element is decided by the names that those before it have left. -/
theorem targetAt?_planFrom (names : Names) (index : Nat) (elements : List Element)
    (position : Nat) :
    (planFrom names index elements).targetAt? (index + position) =
      elements[position]?.bind
        (targetOf? (namesThrough names (elements.take position)) (index + position)) := by
  induction elements generalizing names index position with
  | nil => simp [planFrom, targetAt?]
  | cons element rest ih =>
    rw [targetAt?_planFrom_cons]
    cases position with
    | zero => simp [namesThrough]
    | succ position =>
      have hnext := ih (namesAfter names element) (index + 1) position
      have hindex : index + 1 + position = index + (position + 1) := by omega
      rw [if_neg (by omega), ← hindex, hnext]
      rfl

/-- What a plan holds for the element at a position. -/
theorem targetAt?_ofElements (elements : List Element) (position : Nat) :
    (ofElements elements).targetAt? position =
      elements[position]?.bind (targetOf? (namesAt elements position) position) := by
  have h := targetAt?_planFrom .empty 0 elements position
  rwa [Nat.zero_add] at h

/-- The name under which the element at a position is looked up. -/
theorem nameAt?_ofElements (elements : List Element) (position : Nat) :
    (ofElements elements).nameAt? position =
      elements[position]?.bind (scheduled? (namesAt elements position)) := by
  have htarget := congrArg (Option.map Target.name) (targetAt?_ofElements elements position)
  refine htarget.trans ?_
  cases elements[position]? with
  | none => rfl
  | some element => simp [targetOf?, scheduled?, Function.comp_def]

end UsageAudit.Plan

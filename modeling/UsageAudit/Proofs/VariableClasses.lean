import UsageAudit.Proofs.Meaning

/-!
# The classes of variables

A variable gets a class when it is assigned what a call of the class makes. From then on its name
leads to the class, and nothing tells the variable from the class itself: a call of the variable is
scheduled as the making of another object, and what is assigned from such a call gets the class as
well. Nor does a name keep its import until what is assigned to it has been looked up. This file says
exactly which calls and assignments these are.
-/

namespace UsageAudit

/-- The class that a call makes an object of, if what is called is one. -/
def Referent.class? : Referent → Option String
  | .ofClass path => some path
  | .ofModule _ => none

/-- A variable leads to its class, and nothing else does that starts from it. -/
theorem Meaning.referent?_object (expression path : String) :
    (Meaning.object path).referent? expression =
      if Dotted.isIdentifier expression.toList then some (.ofClass path) else none := by
  by_cases hidentifier : Dotted.isIdentifier expression.toList
  · have hsegments : Dotted.segments expression.toList = [expression.toList] :=
      Dotted.segments_of_dot_not_mem (Dotted.dot_not_mem_of_isIdentifier hidentifier)
    simp [referent?, hsegments, hidentifier]
  · rw [if_neg hidentifier]
    unfold referent?
    split
    · rfl
    · rename_i root rest hsegments
      split
      · rfl
      · rename_i hall
        have hjoin := Dotted.join_segments expression.toList
        cases rest with
        | cons member rest => rfl
        | nil =>
          rw [hsegments] at hjoin
          obtain rfl : root = expression.toList := hjoin
          simp [hidentifier] at hall

namespace Names

/-- The class of the variable that an expression is, if it is no more than the name of one. -/
def variableClass? (names : Names) (expression : String) : Option String :=
  if Dotted.isIdentifier expression.toList then names.objects.get? expression else none

/-- An identifier is its own first segment. -/
theorem firstSegment_of_isIdentifier {expression : String}
    (h : Dotted.isIdentifier expression.toList = true) : firstSegment expression = expression :=
  firstSegment_of_segments (Dotted.segments_of_dot_not_mem (Dotted.dot_not_mem_of_isIdentifier h))

/-- What does not start from an import leads nowhere, unless it is a variable. -/
theorem resolve_of_not_imported {names : Names} {expression : String}
    (h : names.imports.get? (firstSegment expression) = none) :
    names.resolve expression = (names.variableClass? expression).map .ofClass := by
  have hmeaning : names.meaning? (firstSegment expression) =
      (names.objects.get? (firstSegment expression)).map .object := by
    unfold meaning?
    cases names.objects.get? (firstSegment expression) <;> simp [h]
  rw [resolve_eq, hmeaning]
  by_cases hidentifier : Dotted.isIdentifier expression.toList
  · rw [firstSegment_of_isIdentifier hidentifier]
    cases hobject : names.objects.get? expression <;>
      simp [variableClass?, hidentifier, hobject, Meaning.referent?_object]
  · cases names.objects.get? (firstSegment expression) <;>
      simp [variableClass?, hidentifier, Meaning.referent?_object]

/-- The names in effect when the right side of an assignment is looked up: the name that is assigned
has lost its import. -/
def withoutImport (names : Names) (name : String) : Names :=
  { names with imports := names.imports.erase name }

/-- What an assignment makes an object of is what the callee leads to by then. -/
theorem classMade_eq_bind (names : Names) (name : String) (callee : Option String) :
    names.classMade name callee =
      (callee.bind (names.withoutImport name).resolve).bind Referent.class? := by
  unfold classMade withoutImport
  split
  · rename_i path hclass
    simp [hclass, Referent.class?]
  · rename_i hother
    cases hreferent :
        callee.bind (Names.resolve { names with imports := names.imports.erase name }) with
    | none => rfl
    | some referent =>
      cases referent with
      | ofModule path => rfl
      | ofClass path => exact absurd hreferent (hother path)

section Assignment

variable {names : Names} (hsound : names.Sound)
include hsound

/-- A name that loses its import stands for nothing, and all else for what it did. -/
theorem meaning?_withoutImport (name other : String) :
    (names.withoutImport name).meaning? other =
      if other = name ∧ names.imports.has name = true then none else names.meaning? other := by
  by_cases hname : other = name
  · subst hname
    have herased : (names.imports.erase other).get? other = none :=
      Ordered.get?_erase_self hsound.imports other
    cases himport : names.imports.get? other with
    | some path =>
      have hobject := (hsound.apart other).resolve_right (by simp [himport])
      simp [meaning?, withoutImport, Ordered.has, herased, himport, hobject]
    | none => simp [meaning?, withoutImport, Ordered.has, herased, himport]
  · simp [meaning?, withoutImport, hname, Ordered.get?_erase_of_ne _ (Ne.symm hname)]

/-- An assignment makes an object of the class that the callee leads to before, unless the callee
starts from the assigned name and that is an import. -/
theorem classMade_eq (name callee : String) :
    names.classMade name (some callee) =
      if firstSegment callee = name ∧ names.imports.has name = true then none
      else (names.resolve callee).bind Referent.class? := by
  rw [classMade_eq_bind, Option.bind_some, resolve_eq, resolve_eq, meaning?_withoutImport hsound]
  split <;> rfl

/-- The class of a variable after an assignment to it is that of what is made. -/
theorem objects_assign_self (name : String) (callee : Option String) :
    (names.assign name callee).objects.get? name = names.classMade name callee := by
  rw [assign_eq]
  cases names.classMade name callee with
  | some path => exact Ordered.get?_put_self names.objects name path
  | none => exact Ordered.get?_erase_self hsound.objects name

end Assignment

/-- A call makes an object of a class if and only if what is called leads to the class. -/
theorem bind_class?_eq_some_iff {referent : Option Referent} {path : String} :
    referent.bind Referent.class? = some path ↔ referent = some (.ofClass path) := by
  cases referent with
  | none => simp
  | some referent => cases referent <;> simp [Referent.class?]

end Names

namespace Plan

/-- A call that does not start from an import is scheduled if and only if what is called is a
variable that has a class, and then as the making of an object of that class. What is assigned from
such a call gets a class if and only if what is called is a variable that has one, and then the same
class. -/
theorem unimported_call_planned (elements : List Element) (position : Nat) :
    let names := namesAt elements position
    (∀ call, elements[position]? = some (.functionCall call) →
      names.imports.get? (firstSegment call.name) = none →
        ((ofElements elements).targetAt? position).map (fun target => (target.kind, target.name)) =
          (names.variableClass? call.name).map fun path => (.instantiation, .ofClass path)) ∧
      ∀ assignment callee, elements[position]? = some (.variableAssign assignment) →
        assignment.assignedFrom = some callee → names.imports.get? (firstSegment callee) = none →
          (namesAt elements (position + 1)).objects.get? assignment.name =
            names.variableClass? callee := by
  intro names
  have hsound : names.Sound := sound_namesAt elements position
  constructor
  · intro call hcall himport
    have hresolve := Names.resolve_of_not_imported himport
    rw [targetAt?_ofElements, hcall, Option.bind_some]
    cases hclass : names.variableClass? call.name <;>
      simp [targetOf?, target?, hresolve, hclass, names, callTarget?, callKind]
  · intro assignment callee hassignment hcallee himport
    have hnext : namesAt elements (position + 1) = names.assign assignment.name (some callee) := by
      simp [names, namesAt, namesThrough, List.take_add_one, hassignment, namesAfter, hcallee]
    have hkept : ¬(firstSegment callee = assignment.name ∧
        names.imports.has assignment.name = true) := by
      rintro ⟨hname, himported⟩
      simp [Ordered.has, ← hname, himport] at himported
    rw [hnext, Names.objects_assign_self hsound, Names.classMade_eq hsound, if_neg hkept,
      Names.resolve_of_not_imported himport]
    cases names.variableClass? callee <;> rfl

/-- The elements of a script that makes an object of an imported class and calls the object twice,
the second time to assign what comes of it. -/
def calledObjectElements : List Element := [
  .ofImport ⟨"acme", some "Model", none, 1⟩,
  .variableAssign ⟨"model", some "Model", 2⟩,
  .functionCall ⟨"Model", 0, 0, .empty, 2⟩,
  .functionCall ⟨"model", 1, 0, ⟨[.int], [], false⟩, 3⟩,
  .variableAssign ⟨"y", some "model", 4⟩,
  .functionCall ⟨"model", 1, 0, ⟨[.int], [], false⟩, 4⟩]

/-- The call of the object is scheduled as the making of another one, and what comes of the call has
the class of the object. -/
theorem calledObject_planned :
    (namesAt calledObjectElements 3).imports.get? (firstSegment "model") = none ∧
      ((ofElements calledObjectElements).targetAt? 3).map
        (fun target => (target.kind, target.name)) = some (.instantiation, .ofClass "acme.Model") ∧
      (namesAt calledObjectElements 4).imports.get? (firstSegment "model") = none ∧
      (namesAt calledObjectElements 5).objects.get? "y" = some "acme.Model" := by
  have hcall : (namesAt calledObjectElements 3).imports.get? (firstSegment "model") = none := by
    decide +kernel
  have hassignment :
      (namesAt calledObjectElements 4).imports.get? (firstSegment "model") = none := by
    decide +kernel
  have hplanned := (unimported_call_planned calledObjectElements 3).1 _ rfl hcall
  have hgiven := (unimported_call_planned calledObjectElements 4).2 _ _ rfl rfl hassignment
  refine ⟨hcall, hplanned.trans ?_, hassignment, hgiven.trans ?_⟩ <;> decide +kernel

/-- In a script that makes an object of an imported class and calls it, the call is scheduled as the
making of another object. -/
theorem object_called_as_class :
    ((Analysis.ofScript "from acme import Model\nmodel = Model()\nmodel(3)\n"
        "models.py").toOption.map fun analysis =>
      (analysis.elements[3]?, (namesAt analysis.elements 3).objects.get? "model",
        (namesAt analysis.elements 3).imports.get? "model",
        (analysis.plan.targetAt? 3).map fun target => (target.kind, target.name))) =
      some (some (.functionCall ⟨"model", 1, 0, ⟨[.int], [], false⟩, 3⟩), some "acme.Model", none,
        some (.instantiation, .ofClass "acme.Model")) := by
  decide +kernel

/-- An assignment gives its name just the class that the callee leads to before, unless the callee
starts from that very name, the name is an import, and the callee leads to a class. Afterwards the
name is no import, and what starts from another name leads where it did. -/
theorem assignment_class_iff (before : List Element) (name callee : String) (line : Nat) :
    let names := namesThrough .empty before
    let after := namesAfter names (.variableAssign ⟨name, some callee, line⟩)
    ((∀ path, after.objects.get? name = some path ↔
          names.resolve callee = some (.ofClass path)) ↔
        ¬(firstSegment callee = name ∧ names.imports.has name = true ∧
          ∃ path, names.resolve callee = some (.ofClass path))) ∧
      after.imports.get? name = none ∧
      ∀ expression, firstSegment expression ≠ name →
        after.resolve expression = names.resolve expression := by
  intro names after
  have hsound : names.Sound := sound_namesThrough .empty before
  have hafter : after = names.assign name (some callee) := rfl
  refine ⟨?_, ?_, ?_⟩
  · have hclass (path : String) : after.objects.get? name = some path ↔
        ¬(firstSegment callee = name ∧ names.imports.has name = true) ∧
          names.resolve callee = some (.ofClass path) := by
      rw [hafter, Names.objects_assign_self hsound, Names.classMade_eq hsound,
        ← Names.bind_class?_eq_some_iff]
      split <;> simp_all
    constructor
    · rintro hsame ⟨hroot, himport, path, hpath⟩
      exact ((hclass path).mp ((hsame path).mpr hpath)).1 ⟨hroot, himport⟩
    · intro hkept path
      rw [hclass]
      refine ⟨fun h => h.2, fun hpath => ⟨?_, hpath⟩⟩
      rintro ⟨hroot, himport⟩
      exact hkept ⟨hroot, himport, path, hpath⟩
  · rw [hafter, Names.assign_eq]
    exact Ordered.get?_erase_self hsound.imports name
  · intro expression hother
    rw [hafter, Names.resolve_eq, Names.resolve_eq,
      Names.meaning?_assign_of_ne names _ (Ne.symm hother)]

/-- The import of a class. -/
def widgetImport : Import := ⟨"acme", some "Widget", none, 1⟩

/-- An assignment of an object of an imported class to the name of the class does not give the name
the class. -/
theorem widget_class_lost :
    (namesThrough .empty [.ofImport widgetImport]).resolve "Widget" =
        some (.ofClass "acme.Widget") ∧
      ¬∀ path, (namesAfter (namesThrough .empty [.ofImport widgetImport])
          (.variableAssign ⟨"Widget", some "Widget", 2⟩)).objects.get? "Widget" = some path ↔
        (namesThrough .empty [.ofImport widgetImport]).resolve "Widget" = some (.ofClass path) := by
  have hresolve : (namesThrough .empty [.ofImport widgetImport]).resolve "Widget" =
      some (.ofClass "acme.Widget") := by decide +kernel
  refine ⟨hresolve, ?_⟩
  intro hsame
  have hkept := (assignment_class_iff [.ofImport widgetImport] "Widget" "Widget" 2).1.mp hsame
  exact hkept ⟨by decide +kernel, by decide +kernel, _, hresolve⟩

/-- In a script that assigns an object of an imported class to the name of the class, the name has no
class afterwards, and the call of a method of the object is not scheduled. -/
theorem method_of_lost_class :
    ((Analysis.ofScript "from acme import Widget\nWidget = Widget()\nWidget.render()\n"
        "widgets.py").toOption.map fun analysis =>
      (analysis.elements, (namesAt analysis.elements 1).resolve "Widget",
        (namesAt analysis.elements 2).objects.get? "Widget", analysis.plan.nameAt? 3)) =
      some ([
          .ofImport widgetImport,
          .variableAssign ⟨"Widget", some "Widget", 2⟩,
          .functionCall ⟨"Widget", 0, 0, .empty, 2⟩,
          .methodCall ⟨"Widget", "render", 0, 0, .empty, 3⟩],
        some (.ofClass "acme.Widget"), none, none) := by
  decide +kernel

end Plan

end UsageAudit

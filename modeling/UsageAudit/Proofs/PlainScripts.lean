import UsageAudit.Proofs.CacheTransparency
import UsageAudit.Proofs.StatementShape

/-!
# Members without dots

A member of a script is named by a single name, so that no dot stands in what is looked up last. The
questions that a script gives rise to can therefore be told from the names under which their answers
are kept.
-/

namespace UsageAudit

namespace Script

/-- The name of a member in a tree that has its shape all through has no dot in it. -/
theorem Tree.WellShaped.dot_not_mem {tree node : Tree} (h : tree.WellShaped)
    (hnode : node ∈ tree.nodes) (hkind : node.kind ≠ .defaultParameter) {name : String}
    (hname : Extraction.fieldText node .memberName = .ok name) : '.' ∉ name.toList := by
  unfold Extraction.fieldText at hname
  split at hname
  · rename_i part hpart
    cases hname
    obtain ⟨hmem, hfield⟩ := Tree.of_child? hpart
    obtain ⟨field, line, blank, text, hdot, rfl⟩ :=
      ((h node hnode).roles hkind part hmem).isWord hfield
    simpa [Extraction.textOf, Tree.text] using hdot
  · cases hname

end Script

namespace Extraction

open Script (Tree)

/-- Only a call gives rise to a call, be it of a function or of a method. -/
theorem Place.kind_of_call_mem {place : Place} {kind : ElementKind}
    (hcall : kind = .functionCall ∨ kind = .methodCall) (h : kind ∈ place.kinds) :
    place.node.kind = .call := by
  unfold Place.kinds at h
  rcases hcall with rfl | rfl <;>
    split at h <;> first | assumption | (try split at h) <;> simp_all [List.mem_replicate]

/-- Only a member gives rise to an access, and only where it is not called. -/
theorem Place.kind_of_attributeAccess_mem {place : Place} (h : .attributeAccess ∈ place.kinds) :
    place.node.kind = .member ∧ place.role = .plain := by
  unfold Place.kinds at h
  split at h <;> (try split at h) <;> simp_all [List.mem_replicate]

/-- What a call gives: the call of a method where its callee is a member, of a function where it is
not. -/
theorem callElement_eq_ok {node : Tree} {element : Element} (h : callElement node = .ok element) :
    ∃ callee, node.child? .function = some callee ∧
      ((∃ e object, element = .methodCall e ∧ callee.kind = .member ∧
          callee.child? .object = some object ∧ render object = .ok e.object ∧
          fieldText callee .memberName = .ok e.method) ∨
        ∃ e, element = .functionCall e ∧ callee.kind ≠ .member ∧ render callee = .ok e.name) := by
  unfold callElement at h
  split at h
  · cases h
  · rename_i callee hcallee
    obtain ⟨⟨arguments, argCount, keywordCount⟩, -, h⟩ := bind_eq_ok_iff.mp h
    refine ⟨callee, hcallee, ?_⟩
    dsimp only at h
    split at h
    · rename_i hmember
      split at h
      · cases h
      · rename_i object hobject
        simp only [bind_eq_ok_iff] at h
        obtain ⟨text, htext, method, hmethod, ⟨⟩⟩ := h
        exact .inl ⟨_, object, rfl, hmember, hobject, htext, hmethod⟩
    · rename_i hother
      obtain ⟨name, hname, ⟨⟩⟩ := bind_eq_ok_iff.mp h
      exact .inr ⟨_, rfl, hother, hname⟩

/-- The object of which a method is called is rendered, and the method is the member of it. -/
theorem exists_object_of_methodCall {node : Tree} {e : MethodCall}
    (h : callElement node = .ok (.methodCall e)) :
    ∃ callee object, node.child? .function = some callee ∧ callee.kind = .member ∧
      callee.child? .object = some object ∧ render object = .ok e.object ∧
      fieldText callee .memberName = .ok e.method := by
  obtain ⟨callee, hcallee, ⟨_, object, ⟨⟩, hcall⟩ | ⟨_, ⟨⟩, _⟩⟩ := callElement_eq_ok h
  exact ⟨callee, object, hcallee, hcall⟩

/-- The function that is called is rendered. -/
theorem exists_callee_of_functionCall {node : Tree} {e : FunctionCall}
    (h : callElement node = .ok (.functionCall e)) :
    ∃ callee, node.child? .function = some callee ∧ render callee = .ok e.name := by
  obtain ⟨callee, hcallee, ⟨_, _, ⟨⟩, _⟩ | ⟨_, ⟨⟩, -, hname⟩⟩ := callElement_eq_ok h
  exact ⟨callee, hcallee, hname⟩

/-- The object of which a member is accessed is rendered, and the member is the one that the node
names. -/
theorem exists_object_of_attributeAccess {node : Tree} {e : AttributeAccess}
    (h : attributeElement node = .ok (.attributeAccess e)) :
    ∃ object, node.child? .object = some object ∧ render object = .ok e.object ∧
      fieldText node .memberName = .ok e.member := by
  unfold attributeElement at h
  split at h
  · cases h
  · rename_i object hobject
    simp only [bind_eq_ok_iff] at h
    obtain ⟨text, htext, member, hmember, ⟨⟩⟩ := h
    exact ⟨object, hobject, htext, hmember⟩

/-- A single element is found where a step gives one. -/
theorem eq_ok_of_mem_map_singleton {step : Except Fault Element} {elements : List Element}
    (h : (step.map fun e => [e]) = .ok elements) {element : Element} (hmem : element ∈ elements) :
    step = .ok element := by
  cases step with
  | error fault => cases h
  | ok first =>
    cases h
    rw [List.mem_singleton.mp hmem]

/-- A node of a tree that has its shape all through gives rise to plain elements. -/
theorem plain_of_ownElements {tree node : Tree} (htree : tree.WellShaped)
    (hnode : node ∈ tree.nodes) {scope : Scope} {role : Role} {elements : List Element}
    (h : ownElements scope role node = .ok elements) {element : Element}
    (hmem : element ∈ elements) : element.Plain := by
  have hkinds := (givesRise_of_ownElements h).kinds
  have hkind : element.kind ∈ Place.kinds ⟨role, node⟩ := hkinds ▸ List.mem_map_of_mem hmem
  cases element with
  | methodCall e =>
    have hcall : node.kind = .call := Place.kind_of_call_mem (.inr rfl) hkind
    simp only [ownElements, hcall] at h
    obtain ⟨callee, object, hcallee, hmember, -, -, hname⟩ :=
      exists_object_of_methodCall (eq_ok_of_mem_map_singleton h hmem)
    have hpart := (Script.Tree.of_child? hcallee).1
    have hin := Tree.mem_nodes_trans hnode (Tree.mem_nodes_of_mem_children hpart)
    exact htree.dot_not_mem hin (by simp [hmember]) hname
  | attributeAccess e =>
    obtain ⟨hmember, hplain⟩ := Place.kind_of_attributeAccess_mem hkind
    simp only at hmember hplain
    simp only [ownElements, hmember, if_pos hplain] at h
    obtain ⟨object, -, -, hname⟩ :=
      exists_object_of_attributeAccess (eq_ok_of_mem_map_singleton h hmem)
    exact htree.dot_not_mem hnode (by simp [hmember]) hname
  | ofImport | classDef | functionDef | functionCall | variableAssign => trivial

end Extraction

/-- The members that a script calls or accesses have no dots in their names. -/
theorem Analysis.plain_of_ofScript {script path : String} {analysis : Analysis}
    (h : Analysis.ofScript script path = .ok analysis) :
    ∀ element ∈ analysis.elements, element.Plain := by
  simp only [ofScript] at h
  split at h
  · rename_i tree htree
    cases h
    simp only [ofTree]
    split
    · rename_i found hfound
      intro element hmem
      obtain ⟨node, hnode, scope, role, elements, hown, hmem⟩ :=
        Extraction.exists_node_of_mem_visit hfound hmem
      exact Extraction.plain_of_ownElements (Script.wellShaped_of_parse htree) hnode hown hmem
    · simp
  · cases h

end UsageAudit

import UsageAudit.Proofs.ImportedNames

/-!
# Classes told by letter case

An import binds its name to a module or to a member of one. Of what is reached from there, a class is
told from a module by nothing but the first letter of the last segment. So a module whose name starts
with an upper-case letter is taken for a class, and what is reached through a class is taken for a
module. This file says exactly which usages of imported names are looked up in a module.
-/

namespace UsageAudit

/-- What a path leads to by the first letter of its last segment. -/
def Referent.ofPath (path : String) : Referent :=
  if Dotted.startsUpper (Dotted.lastSegment path.toList) then .ofClass path else .ofModule path

/-- A path leads to a module unless its last segment starts with an upper-case letter. -/
theorem Referent.ofPath_eq_ofModule_iff {path : String} :
    Referent.ofPath path = .ofModule path ↔
      Dotted.startsUpper (Dotted.lastSegment path.toList) = false := by
  unfold ofPath
  split <;> simp_all

/-- The path that is reached from another through members. -/
def memberPath (start : String) (members : List (List Char)) : String :=
  start ++ String.ofList (members.flatMap fun member => '.' :: member)

/-- Through no members nothing else is reached. -/
@[simp]
theorem memberPath_nil (start : String) : memberPath start [] = start := by simp [memberPath]

/-- The last segment of a path that is reached through members is the last member. -/
theorem lastSegment_memberPath (start : String) {members : List (List Char)} (h : members ≠ [])
    (hdots : ∀ member ∈ members, '.' ∉ member) :
    Dotted.lastSegment (memberPath start members).toList = members.getLast h := by
  have hlast : '.' ∉ members.getLast h := hdots _ (List.getLast_mem h)
  have hpath : (memberPath start members).toList =
      (start.toList ++ members.dropLast.flatMap fun member => '.' :: member) ++
        '.' :: members.getLast h := by
    conv_lhs => rw [← List.dropLast_append_getLast h]
    simp [memberPath]
  rw [hpath, Dotted.lastSegment_append hlast]

/-- What an expression refers to that starts from an import. -/
theorem Meaning.referent?_imported {expression : String} {root : List Char}
    {members : List (List Char)} (start : String)
    (h : Dotted.segments expression.toList = root :: members) :
    (Meaning.imported start).referent? expression =
      if (root :: members).all Dotted.isIdentifier then some (.ofPath (memberPath start members))
      else none := by
  by_cases hall : (root :: members).all Dotted.isIdentifier
  · have hsegments := Bool.and_eq_true_iff.mp hall
    rw [if_pos hall]
    simp only [referent?, h, hsegments, Bool.not_true, Bool.or_self, Bool.false_eq_true, if_false,
      Referent.ofPath, memberPath]
    exact (apply_ite some _ _ _).symm
  · have hsome : (!Dotted.isIdentifier root || !members.all Dotted.isIdentifier) = true := by
      rw [← Bool.not_and, ← List.all_cons]
      simpa only [Bool.not_eq_true', Bool.not_eq_true] using hall
    rw [if_neg hall]
    simp only [referent?, h, hsome, if_true]

/-- An expression that starts from an import leads to a module if and only if its segments are
identifiers and the last segment of the path does not start with an upper-case letter. -/
theorem Meaning.leads_to_module_iff {expression start : String} {root : List Char}
    {members : List (List Char)} (h : Dotted.segments expression.toList = root :: members) :
    (Meaning.imported start).referent? expression = some (.ofModule (memberPath start members)) ↔
      (∀ segment ∈ root :: members, Dotted.isIdentifier segment = true) ∧
        Dotted.startsUpper (Dotted.lastSegment (memberPath start members).toList) = false := by
  rw [referent?_imported start h, ← List.all_eq_true]
  cases (root :: members).all Dotted.isIdentifier <;> simp [Referent.ofPath_eq_ofModule_iff]

/-- An import binds its name to its path in the library, unless it imports all names. -/
theorem Import.importedPath_eq {e : Import} (h : e.name ≠ some "*") :
    Names.importedPath e = some e.libraryPath := by
  unfold Names.importedPath libraryPath
  cases hname : e.name with
  | some name => simp_all
  | none =>
    cases hnickname : e.nickname with
    | some nickname => rfl
    | none => simp [boundName, hname, hnickname]

/-- Whether something is looked up as a member of the module of the given path. -/
def TargetName.IsOfModule (path : String) : TargetName → Prop
  | .function owner _ => owner = path
  | .member owner _ ownerIsClass => owner = path ∧ ownerIsClass = false
  | .ofModule _ | .ofClass _ | .method _ _ => False

namespace Plan

/-- A method is looked up as a function of a module if and only if it is called of that module and
does not start with an upper-case letter. -/
theorem methodTarget_eq_function_iff {referent : Referent} {path method : String} :
    methodTarget referent method = .function path method ↔
      referent = .ofModule path ∧ Dotted.startsUpper method.toList = false := by
  cases hupper : Dotted.startsUpper method.toList <;> cases referent <;> simp [methodTarget, hupper]

/-- A member is looked up as that of a module if and only if it is accessed of that module. -/
theorem memberTarget_eq_member_iff {referent : Referent} {path name : String} :
    memberTarget referent name = .member path name false ↔ referent = .ofModule path := by
  cases referent <;> simp [memberTarget]

/-- What is called of something is looked up in a module only as a function of it. -/
theorem exists_isOfModule_methodTarget_iff {owner : Option Referent} {path method : String} :
    (∃ target, owner.map (methodTarget · method) = some target ∧ target.IsOfModule path) ↔
      owner.map (methodTarget · method) = some (.function path method) := by
  cases owner with
  | none => simp
  | some referent =>
    cases hupper : Dotted.startsUpper method.toList <;> cases referent <;>
      simp [methodTarget, hupper, TargetName.IsOfModule]

/-- What is accessed of something is looked up in a module only as a member of it. -/
theorem exists_isOfModule_memberTarget_iff {owner : Option Referent} {path name : String} :
    (∃ target, owner.map (memberTarget · name) = some target ∧ target.IsOfModule path) ↔
      owner.map (memberTarget · name) = some (.member path name false) := by
  cases owner with
  | none => simp
  | some referent => cases referent <;> simp [memberTarget, TargetName.IsOfModule]

/-- An element that does not bind a name leaves it standing for an import. -/
theorem rebinding?_eq_none_of_not_binds {names : Names} {name path : String} {element : Element}
    (hmeaning : names.meaning? name = some (.imported path)) (h : ¬element.Binds name) :
    rebinding? names name element = none := by
  have hobject : names.objects.get? name = none := by
    unfold Names.meaning? at hmeaning
    split at hmeaning
    · cases hmeaning
    · assumption
  cases element with
  | ofImport e =>
    simp only [rebinding?]
    split
    · rename_i hbound
      have hall : e.name = some "*" := by simpa [Element.Binds, hbound.2] using h
      simp [Names.importedPath, hall, hobject]
    · rfl
  | classDef e => simpa [rebinding?, Element.Binds] using h
  | functionDef e => simpa [rebinding?, Element.Binds] using h
  | variableAssign e => simpa [rebinding?, Element.Binds] using h
  | methodCall e => rfl
  | functionCall e => rfl
  | attributeAccess e => rfl

section Imported

variable {elements : List Element} {start position : Nat} {e : Import}
  (himport : elements[start]? = some (.ofImport e)) (hcheckable : e.isCheckable = true)
include himport hcheckable

/-- The name of an import of a library stands for what was imported as long as no element binds it
again. -/
theorem meaning?_of_inReach (hname : e.name ≠ some "*")
    (hreach : InReach elements e.boundName start position) :
    (namesAt elements position).meaning? e.boundName = some (.imported e.libraryPath) := by
  obtain ⟨hlt, hbetween⟩ := hreach
  induction position with
  | zero => omega
  | succ position ih =>
    rw [meaning?_namesAt_succ]
    by_cases hfirst : start = position
    · subst hfirst
      simp [himport, rebinding?, hcheckable, Import.importedPath_eq hname]
    · have hbefore := ih (by omega) fun between element hlt hlt' =>
        hbetween between element hlt (by omega)
      cases helement : elements[position]? with
      | none => exact hbefore
      | some element =>
        have hkeeps : rebinding? (namesAt elements position) e.boundName element = none :=
          rebinding?_eq_none_of_not_binds hbefore
            (hbetween position element (by omega) (by omega) helement)
        simpa [hkeeps] using hbefore

/-- A usage of the name of an import is looked up by what was imported. -/
theorem nameAt?_of_inReach (hname : e.name ≠ some "*")
    (hreach : InReach elements e.boundName start position) {element : Element}
    (helement : elements[position]? = some element) (hroot : element.root? = some e.boundName) :
    (ofElements elements).nameAt? position =
      scheduledBy? (some (.imported e.libraryPath)) element := by
  rw [nameAt?_ofElements, helement, Option.bind_some, scheduled?_eq _ hroot,
    meaning?_of_inReach himport hcheckable hname hreach]

variable {members : List (List Char)}

/-- What is called of something that is reached from an import is looked up by what the expression
refers to. -/
theorem nameAt?_methodCall (hname : e.name ≠ some "*")
    (hreach : InReach elements e.boundName start position) {call : MethodCall}
    (hcall : elements[position]? = some (.methodCall call))
    (hobject : Dotted.segments call.object.toList = e.boundName.toList :: members) :
    (ofElements elements).nameAt? position =
      ((Meaning.imported e.libraryPath).referent? call.object).map fun referent =>
        methodTarget referent call.method := by
  have hroot : (Element.methodCall call).root? = some e.boundName :=
    congrArg some (firstSegment_of_segments hobject)
  rw [nameAt?_of_inReach himport hcheckable hname hreach hcall hroot]
  rfl

/-- What is accessed of something that is reached from an import is looked up by what the expression
refers to. -/
theorem nameAt?_attributeAccess (hname : e.name ≠ some "*")
    (hreach : InReach elements e.boundName start position) {access : AttributeAccess}
    (haccess : elements[position]? = some (.attributeAccess access))
    (hobject : Dotted.segments access.object.toList = e.boundName.toList :: members) :
    (ofElements elements).nameAt? position =
      ((Meaning.imported e.libraryPath).referent? access.object).map fun referent =>
        memberTarget referent access.member := by
  have hroot : (Element.attributeAccess access).root? = some e.boundName :=
    congrArg some (firstSegment_of_segments hobject)
  rw [nameAt?_of_inReach himport hcheckable hname hreach haccess hroot]
  rfl

/-- A call of something that is reached from an import is looked up as a function of the module of
that path if and only if the segments of the expression are identifiers, the last segment of the
path does not start with an upper-case letter, and neither does what is called. -/
theorem methodCall_function_iff (hname : e.name ≠ some "*")
    (hreach : InReach elements e.boundName start position) {call : MethodCall}
    (hcall : elements[position]? = some (.methodCall call))
    (hobject : Dotted.segments call.object.toList = e.boundName.toList :: members) :
    let path := memberPath e.libraryPath members
    (ofElements elements).nameAt? position = some (.function path call.method) ↔
      ((∀ segment ∈ e.boundName.toList :: members, Dotted.isIdentifier segment = true) ∧
        Dotted.startsUpper (Dotted.lastSegment path.toList) = false) ∧
          Dotted.startsUpper call.method.toList = false := by
  intro path
  rw [nameAt?_methodCall himport hcheckable hname hreach hcall hobject,
    ← Meaning.leads_to_module_iff hobject]
  simp [methodTarget_eq_function_iff, path]

/-- An access to a member of something that is reached from an import is looked up in the module of
that path if and only if the segments of the expression are identifiers and the last segment of the
path does not start with an upper-case letter. -/
theorem attributeAccess_member_iff (hname : e.name ≠ some "*")
    (hreach : InReach elements e.boundName start position) {access : AttributeAccess}
    (haccess : elements[position]? = some (.attributeAccess access))
    (hobject : Dotted.segments access.object.toList = e.boundName.toList :: members) :
    let path := memberPath e.libraryPath members
    (ofElements elements).nameAt? position = some (.member path access.member false) ↔
      (∀ segment ∈ e.boundName.toList :: members, Dotted.isIdentifier segment = true) ∧
        Dotted.startsUpper (Dotted.lastSegment path.toList) = false := by
  intro path
  rw [nameAt?_attributeAccess himport hcheckable hname hreach haccess hobject,
    ← Meaning.leads_to_module_iff hobject]
  simp [memberTarget_eq_member_iff, path]

end Imported

/-- What is called and accessed of an imported module is looked up as a function and a member of the
module if and only if the name of the import is an identifier and the last segment of the path of
the module does not start with an upper-case letter. -/
theorem moduleMembers_iff {elements : List Element} {start position : Nat} {e : Import}
    (himport : elements[start]? = some (.ofImport e)) (hcheckable : e.isCheckable = true)
    (hmodule : e.name = none) (hreach : InReach elements e.boundName start position) :
    (∀ call, elements[position]? = some (.methodCall call) →
      Dotted.segments call.object.toList = [e.boundName.toList] →
      Dotted.startsUpper call.method.toList = false →
        ((ofElements elements).nameAt? position = some (.function e.libraryPath call.method) ↔
          Dotted.isIdentifier e.boundName.toList = true ∧
            Dotted.startsUpper (Dotted.lastSegment e.libraryPath.toList) = false)) ∧
      ∀ access, elements[position]? = some (.attributeAccess access) →
        Dotted.segments access.object.toList = [e.boundName.toList] →
          ((ofElements elements).nameAt? position =
              some (.member e.libraryPath access.member false) ↔
            Dotted.isIdentifier e.boundName.toList = true ∧
              Dotted.startsUpper (Dotted.lastSegment e.libraryPath.toList) = false) := by
  have hname : e.name ≠ some "*" := by simp [hmodule]
  constructor
  · intro call hcall hobject hlower
    have hiff := methodCall_function_iff himport hcheckable hname hreach hcall hobject
    simpa [hlower] using hiff
  · intro access haccess hobject
    have hiff := attributeAccess_member_iff himport hcheckable hname hreach haccess hobject
    simpa using hiff

/-- The import of a module whose name starts with an upper-case letter. -/
def databaseImport : Import := ⟨"MySQLdb", none, none, 1⟩

/-- The import of a module whose name does not. -/
def numbersImport : Import := ⟨"numpy", none, some "np", 2⟩

/-- The elements of a script that calls a function of the one and accesses a member of the other. -/
def databaseElements : List Element := [
  .ofImport databaseImport,
  .ofImport numbersImport,
  .methodCall ⟨"MySQLdb", "connect", 0, 0, .empty, 3⟩,
  .attributeAccess ⟨"np", "pi", 4⟩]

/-- Nothing binds the name of a module again before it is used. -/
theorem inReach_databaseElements :
    InReach databaseElements databaseImport.boundName 0 2 ∧
      InReach databaseElements numbersImport.boundName 1 3 := by
  refine ⟨⟨by omega, ?_⟩, ⟨by omega, ?_⟩⟩ <;> intro between element hlt hlt' helement
  · obtain rfl : between = 1 := by omega
    obtain rfl : .ofImport numbersImport = element := Option.some.inj helement
    have hother : numbersImport.boundName ≠ databaseImport.boundName := by decide +kernel
    exact fun hbinds => hother hbinds.2
  · obtain rfl : between = 2 := by omega
    obtain rfl := Option.some.inj helement
    simp [Element.Binds]

/-- The access to a member of the module with a lower-case name is looked up in the module, and the
call of a function of the other is not. -/
theorem moduleMembers_databaseElements :
    databaseImport.isCheckable = true ∧ numbersImport.isCheckable = true ∧
      (ofElements databaseElements).nameAt? 2 ≠ some (.function "MySQLdb" "connect") ∧
      (ofElements databaseElements).nameAt? 3 = some (.member "numpy" "pi" false) := by
  obtain ⟨hdatabase, hnumbers⟩ := inReach_databaseElements
  have hcheckable : databaseImport.isCheckable = true ∧ numbersImport.isCheckable = true := by
    decide +kernel
  have hcalls := (moduleMembers_iff rfl hcheckable.1 rfl hdatabase).1
  have haccesses := (moduleMembers_iff rfl hcheckable.2 rfl hnumbers).2
  refine ⟨hcheckable.1, hcheckable.2, ?_, ?_⟩
  · intro hfunction
    have hcase := (hcalls _ rfl (by decide +kernel) (by decide +kernel)).mp hfunction
    revert hcase
    decide +kernel
  · exact (haccesses _ rfl (by decide +kernel)).mpr (by decide +kernel)

/-- In a script that does no more than import a module whose name starts with an upper-case letter
and call a function of it, the call is looked up as a method of a class. -/
theorem module_taken_for_class :
    ((Analysis.ofScript "import MySQLdb\nMySQLdb.connect()\n" "database.py").toOption.map
      fun analysis => (analysis.elements, analysis.plan.nameAt? 1)) =
        some ([.ofImport ⟨"MySQLdb", none, none, 1⟩,
          .methodCall ⟨"MySQLdb", "connect", 0, 0, .empty, 2⟩],
          some (.method "MySQLdb" "connect")) := by
  decide +kernel

/-- What is called and accessed of something that is reached through an imported class, and whose
own name does not start with an upper-case letter, is looked up in a module if and only if the
segments of the expression are identifiers and what is called does not start with an upper-case
letter. -/
theorem classChains_iff {elements : List Element} {start position : Nat} {e : Import}
    (himport : elements[start]? = some (.ofImport e)) (hcheckable : e.isCheckable = true)
    {name : String} (hmember : e.name = some name)
    (hclass : Dotted.startsUpper name.toList = true)
    (hreach : InReach elements e.boundName start position) {members : List (List Char)}
    (hchain : members ≠ []) (hlast : Dotted.startsUpper (members.getLast hchain) = false) :
    let path := memberPath e.libraryPath members
    (∀ call, elements[position]? = some (.methodCall call) →
      Dotted.segments call.object.toList = e.boundName.toList :: members →
        ((∃ target, (ofElements elements).nameAt? position = some target ∧
            target.IsOfModule path) ↔
          (∀ segment ∈ e.boundName.toList :: members, Dotted.isIdentifier segment = true) ∧
            Dotted.startsUpper call.method.toList = false)) ∧
      ∀ access, elements[position]? = some (.attributeAccess access) →
        Dotted.segments access.object.toList = e.boundName.toList :: members →
          ((∃ target, (ofElements elements).nameAt? position = some target ∧
              target.IsOfModule path) ↔
            ∀ segment ∈ e.boundName.toList :: members, Dotted.isIdentifier segment = true) := by
  intro path
  have hname : e.name ≠ some "*" := by
    rintro hall
    obtain rfl : name = "*" := by simpa [hmember] using hall
    revert hclass
    decide +kernel
  have hlower {expression : String}
      (hobject : Dotted.segments expression.toList = e.boundName.toList :: members) :
      Dotted.startsUpper (Dotted.lastSegment path.toList) = false := by
    rw [lastSegment_memberPath e.libraryPath hchain, hlast]
    intro member hmem
    exact Dotted.dot_not_mem_of_mem_segments (hobject ▸ List.mem_cons_of_mem _ hmem)
  constructor
  · intro call hcall hobject
    have hiff : (ofElements elements).nameAt? position = some (.function path call.method) ↔ _ :=
      methodCall_function_iff himport hcheckable hname hreach hcall hobject
    rw [nameAt?_methodCall himport hcheckable hname hreach hcall hobject] at hiff ⊢
    rw [exists_isOfModule_methodTarget_iff, hiff]
    simp [hlower hobject, path]
  · intro access haccess hobject
    have hiff : (ofElements elements).nameAt? position =
        some (.member path access.member false) ↔ _ :=
      attributeAccess_member_iff himport hcheckable hname hreach haccess hobject
    rw [nameAt?_attributeAccess himport hcheckable hname hreach haccess hobject] at hiff ⊢
    rw [exists_isOfModule_memberTarget_iff, hiff]
    simp [hlower hobject, path]

/-- The import of a class. -/
def modelImport : Import := ⟨"acme", some "Model", none, 1⟩

/-- The elements of a script that calls a function of what the class holds. -/
def modelElements : List Element := [
  .ofImport modelImport,
  .methodCall ⟨"Model.objects", "filter", 0, 0, .empty, 2⟩,
  .attributeAccess ⟨"Model", "objects", 2⟩]

/-- The call stands right behind the import. -/
theorem inReach_modelElements : InReach modelElements modelImport.boundName 0 1 := by
  refine ⟨by omega, ?_⟩
  intro between element hlt hlt'
  omega

/-- What the class holds is taken for a module when a function of it is called. -/
theorem classChains_modelElements :
    modelImport.isCheckable = true ∧ InReach modelElements modelImport.boundName 0 1 ∧
      ∃ target, (ofElements modelElements).nameAt? 1 = some target ∧
        target.IsOfModule "acme.Model.objects" := by
  have hcheckable : modelImport.isCheckable = true := by decide +kernel
  have hchain : ["objects".toList] ≠ [] := by simp
  have hlast : Dotted.startsUpper (["objects".toList].getLast hchain) = false := by
    simp only [List.getLast_singleton]
    decide +kernel
  have hcalls := (classChains_iff rfl hcheckable rfl (by decide +kernel) inReach_modelElements
    hchain hlast).1
  refine ⟨hcheckable, inReach_modelElements, ?_⟩
  exact (hcalls _ rfl (by decide +kernel)).mpr (by decide +kernel)

/-- In a script that does no more than import a class and call a function of what the class holds,
the call is looked up in a module. -/
theorem chain_taken_for_module :
    ((Analysis.ofScript "from acme import Model\nModel.objects.filter()\n" "models.py").toOption.map
      fun analysis => (analysis.elements, analysis.plan.nameAt? 1)) =
        some (modelElements, some (.function "acme.Model.objects" "filter")) := by
  decide +kernel

end Plan

end UsageAudit

import UsageAudit.Binding
import Mathlib.Data.Set.Card
import Mathlib.Order.Interval.Finset.Nat

/-!
# How the arguments of a call are bound

Which parameter an argument reaches is said here of each argument on its own: the parameters by
position are taken in their order, a keyword goes to the parameter of its name, and what is left
over is collected if something collects it. The binding of a call is built step by step. It is shown
that it comes to the same, and so that the verdict on a call tells what is wrong with it.
-/

namespace UsageAudit

/-- A call with the parameters that are declared for it. -/
structure Invocation where
  params : List Param
  positional : List ArgKind
  keywords : List KeywordArg

/-- One of the arguments of a call. -/
inductive Argument where
  | position (index : Nat)
  | keyword (name : String)

namespace Invocation

variable (call : Invocation)

/-- Whether the call gives an argument, and of which kind. -/
inductive Given : Argument → ArgKind → Prop where
  | position (index : Nat) (kind : ArgKind) (h : call.positional[index]? = some kind) :
      Given (.position index) kind
  | keyword (argument : KeywordArg) (h : argument ∈ call.keywords) :
      Given (.keyword argument.name) argument.kind

/-- Whether an argument goes to a parameter: one by position to the parameter at this place among
those by position, and one by keyword to the parameter of this name. -/
inductive Reaches : Argument → Param → Prop where
  | position (index : Nat) (param : Param)
      (h : (call.params.filter fun param => param.kind == .positional)[index]? = some param) :
      Reaches (.position index) param
  | keyword (param : Param) (h : param ∈ call.params)
      (hkind : param.kind = .positional ∨ param.kind = .keywordOnly) :
      Reaches (.keyword param.name) param

/-- Whether arguments of this form that are left over are collected. -/
def Collects : Argument → Prop
  | .position _ => ∃ param ∈ call.params, param.kind = .varPositional
  | .keyword _ => ∃ param ∈ call.params, param.kind = .varKeyword

/-- Whether the parameter has an argument of the kind. -/
def Binds (param : Param) (kind : ArgKind) : Prop :=
  ∃ argument, call.Given argument kind ∧ call.Reaches argument param

/-- Whether the parameter has an argument by position and another by keyword. -/
def BindsTwice (param : Param) : Prop :=
  ∃ index name first second, call.Given (.position index) first ∧
    call.Reaches (.position index) param ∧ call.Given (.keyword name) second ∧
    call.Reaches (.keyword name) param

/-- Whether an argument has nowhere to go. -/
def Strays (argument : Argument) : Prop :=
  (∃ kind, call.Given argument kind) ∧ (∀ param, ¬call.Reaches argument param) ∧
    ¬call.Collects argument

/-- Whether a parameter needs an argument and has none. -/
def Lacks (param : Param) : Prop :=
  param ∈ call.params ∧ param.isVariadic = false ∧ param.hasDefault = false ∧
    ∀ kind, ¬call.Binds param kind

end Invocation

/-- Whether the names are those of a row that pass a test, in the order of the row. -/
structure Picks (names row : List String) (test : String → Prop) : Prop where
  sublist : names.Sublist row
  mem_iff : ∀ name, name ∈ names ↔ test name

namespace Picks

variable {names row : List String} {test : String → Prop}

/-- No names are picked if and only if none pass the test. -/
theorem eq_nil_iff (h : Picks names row test) : names = [] ↔ ∀ name, ¬test name := by
  rw [List.eq_nil_iff_forall_not_mem]
  exact forall_congr' fun name => not_congr (h.mem_iff name)

/-- If names are picked, some pass the test. -/
theorem exists_of_ne_nil (h : Picks names row test) (hne : names ≠ []) : ∃ name, test name := by
  by_contra hnone
  exact hne (h.eq_nil_iff.mpr (not_exists.mp hnone))

end Picks

namespace Binding

/-- Arguments by position are bound to the slots one by one, and what is left over is counted unless
more are taken. -/
theorem positionals_eq (takesMore : Bool) {binding : Binding} {slots : List Param}
    (hnew : ∀ slot ∈ slots, slot.name ∉ binding.bound.keys) (hnodup : (slots.map Param.name).Nodup)
    (kinds : List ArgKind) :
    positionals takesMore binding slots kinds =
      { binding with
        bound := binding.bound ++ (slots.zip kinds).map fun (slot, kind) => (slot.name, kind, slot)
        excess := binding.excess + if takesMore then 0 else kinds.length - slots.length } := by
  induction slots generalizing binding kinds with
  | nil =>
    cases kinds with
    | nil => simp [positionals]
    | cons kind kinds => cases takesMore <;> simp [positionals]
  | cons slot slots ih =>
    cases kinds with
    | nil => simp [positionals]
    | cons kind kinds =>
      obtain ⟨hfirst, hrest⟩ := List.nodup_cons.mp hnodup
      have hput := Ordered.put_of_not_mem (hnew slot List.mem_cons_self) (kind, slot)
      rw [positionals, ih ?_ hrest, bind, hput]
      · simp
      · intro other hother
        have hne : other.name ≠ slot.name := by
          intro heq
          exact hfirst (heq ▸ List.mem_map_of_mem hother)
        have hold := hnew other (List.mem_cons_of_mem slot hother)
        rw [bind, hput]
        simpa [Ordered.keys, hne] using hold

/-- The parameter that a keyword names has its name. -/
theorem name_of_named? {params : List Param} {name : String} {param : Param}
    (h : named? params name = some param) : param.name = name := by
  have hfound := List.find?_some h
  simp only [Bool.and_eq_true, beq_iff_eq] at hfound
  exact hfound.1

section Keyword

variable {params : List Param} {binding : Binding} {argument : KeywordArg} {param : Param}

/-- A keyword for a parameter that has an argument is given twice. -/
theorem keyword_of_bound (h : named? params argument.name = some param)
    (hbound : argument.name ∈ binding.bound.keys) :
    keyword params binding argument =
      { binding with duplicates := binding.duplicates ++ [argument.name] } := by
  have hhas : binding.bound.has param.name = true := by
    rwa [Ordered.has_iff, name_of_named? h]
  simp only [keyword, h, if_pos hhas]

/-- A keyword for any other parameter is bound to it. -/
theorem keyword_of_free (h : named? params argument.name = some param)
    (hfree : argument.name ∉ binding.bound.keys) :
    keyword params binding argument =
      { binding with bound := binding.bound ++ [(argument.name, argument.kind, param)] } := by
  rw [← name_of_named? h] at hfree
  have hhas : ¬binding.bound.has param.name = true := by rwa [Ordered.has_iff]
  simp only [keyword, h, if_neg hhas, bind, Ordered.put_of_not_mem hfree]
  rw [name_of_named? h]

/-- A keyword that names no parameter is unexpected unless it is collected. -/
theorem keyword_of_unknown (h : named? params argument.name = none) :
    keyword params binding argument =
      { binding with
        unexpected := binding.unexpected ++
          if takesKeywords params then [] else [argument.name] } := by
  cases htakes : takesKeywords params <;> simp [keyword, h, htakes]

end Keyword

/-- Arguments by keyword are bound one by one. Those to parameters that are taken are given twice,
and those that name no parameter are unexpected unless they are collected. -/
theorem foldl_keyword (params : List Param) (taken : List String) {keywords : List KeywordArg}
    (hnodup : (keywords.map KeywordArg.name).Nodup) {binding : Binding}
    (htaken : ∀ argument ∈ keywords,
      argument.name ∈ binding.bound.keys ↔ argument.name ∈ taken) :
    keywords.foldl (keyword params) binding =
      { bound := binding.bound ++ keywords.filterMap fun argument =>
          if argument.name ∈ taken then none
          else (named? params argument.name).map fun param => (argument.name, argument.kind, param)
        excess := binding.excess
        duplicates := binding.duplicates ++ (keywords.filter fun argument =>
          (named? params argument.name).isSome &&
            decide (argument.name ∈ taken)).map KeywordArg.name
        unexpected := binding.unexpected ++ (keywords.filter fun argument =>
          (named? params argument.name).isNone && !takesKeywords params).map KeywordArg.name } := by
  induction keywords generalizing binding with
  | nil => simp
  | cons argument rest ih =>
    obtain ⟨hfirst, hrest⟩ := List.nodup_cons.mp hnodup
    have hothers : ∀ other ∈ rest, other.name ∈ binding.bound.keys ↔ other.name ∈ taken :=
      fun other hother => htaken other (List.mem_cons_of_mem argument hother)
    have hargument := htaken argument List.mem_cons_self
    rw [List.foldl_cons]
    cases hnamed : named? params argument.name with
    | none =>
      rw [keyword_of_unknown hnamed, ih hrest (by exact hothers)]
      cases htakes : takesKeywords params <;> simp [hnamed]
    | some param =>
      by_cases hmem : argument.name ∈ taken
      · rw [keyword_of_bound hnamed (hargument.mpr hmem), ih hrest (by exact hothers)]
        simp [hnamed, hmem]
      · have hlater : ∀ other ∈ rest,
            other.name ∈ Ordered.keys (binding.bound ++ [(argument.name, argument.kind, param)]) ↔
              other.name ∈ taken := by
          intro other hother
          have hne : other.name ≠ argument.name := by
            intro heq
            exact hfirst (heq ▸ List.mem_map_of_mem hother)
          rw [← hothers other hother]
          simp [Ordered.keys, hne]
        rw [keyword_of_free hnamed fun h => hmem (hargument.mp h), ih hrest (by exact hlater)]
        simp [hnamed, hmem]

section Steps

variable {binding : Binding}

/-- No parameter is bound to two arguments by position. -/
theorem nodup_positionals (takesMore : Bool) (slots : List Param) (kinds : List ArgKind)
    (h : binding.bound.keys.Nodup) :
    (positionals takesMore binding slots kinds).bound.keys.Nodup := by
  induction slots generalizing binding kinds with
  | nil => cases kinds <;> cases takesMore <;> exact h
  | cons slot slots ih =>
    cases kinds with
    | nil => exact h
    | cons kind kinds => exact ih kinds (Ordered.nodup_keys_put h _ _)

/-- No parameter that is bound is bound again by a keyword. -/
theorem nodup_keyword (params : List Param) (argument : KeywordArg)
    (h : binding.bound.keys.Nodup) : (keyword params binding argument).bound.keys.Nodup := by
  unfold keyword
  split
  · split
    · exact h
    · exact Ordered.nodup_keys_put h _ _
  · split <;> exact h

/-- A call binds no parameter to two arguments. -/
theorem nodup_ofCall (params : List Param) (positional : List ArgKind)
    (keywords : List KeywordArg) : (ofCall params positional keywords).bound.keys.Nodup := by
  have hkeywords (binding : Binding) (h : binding.bound.keys.Nodup) :
      (keywords.foldl (keyword params) binding).bound.keys.Nodup := by
    induction keywords generalizing binding with
    | nil => exact h
    | cons argument rest ih => exact ih _ (nodup_keyword params argument h)
  exact hkeywords _ (nodup_positionals _ _ _ List.nodup_nil)

end Steps

end Binding

namespace Invocation

variable (call : Invocation)

/-- The binding of the call, as it is built. -/
def binding : Binding := .ofCall call.params call.positional call.keywords

/-- The names of the parameters that have an argument by position. -/
def taken : List String :=
  ((Binding.slots call.params).zip call.positional).map fun pair => pair.1.name

variable {call}

/-- An argument by position is given where the call has one. -/
@[simp]
theorem given_position_iff {index : Nat} {kind : ArgKind} :
    call.Given (.position index) kind ↔ call.positional[index]? = some kind := by
  constructor
  · rintro ⟨⟩
    assumption
  · exact .position index kind

/-- An argument by keyword is given if the call has it. -/
@[simp]
theorem given_keyword_iff {name : String} {kind : ArgKind} :
    call.Given (.keyword name) kind ↔ ⟨name, kind⟩ ∈ call.keywords := by
  constructor
  · rintro ⟨⟩
    assumption
  · exact .keyword ⟨name, kind⟩

/-- An argument by position reaches the slot at its place. -/
@[simp]
theorem reaches_position_iff {index : Nat} {param : Param} :
    call.Reaches (.position index) param ↔ (Binding.slots call.params)[index]? = some param := by
  constructor
  · rintro ⟨⟩
    assumption
  · exact .position index param

/-- A keyword reaches the parameters of its name that take keywords. -/
theorem reaches_keyword_iff {name : String} {param : Param} :
    call.Reaches (.keyword name) param ↔ param ∈ call.params ∧ param.name = name ∧
      (param.kind = .positional ∨ param.kind = .keywordOnly) := by
  constructor
  · rintro ⟨⟩
    exact ⟨by assumption, rfl, by assumption⟩
  · rintro ⟨hmem, rfl, hkind⟩
    exact .keyword param hmem hkind

/-- What an argument reaches is a parameter of the call. -/
theorem Reaches.mem {argument : Argument} {param : Param} (h : call.Reaches argument param) :
    param ∈ call.params := by
  cases h with
  | position index _ h => exact List.mem_of_mem_filter (List.mem_of_getElem? h)
  | keyword _ h _ => exact h

/-- Arguments that are left over are collected by a parameter for those by position. -/
theorem collects_position_iff {index : Nat} :
    call.Collects (.position index) ↔ Binding.takesPositional call.params = true := by
  simp [Collects, Binding.takesPositional]

/-- Arguments that are left over are collected by a parameter for those by keyword. -/
theorem collects_keyword_iff {name : String} :
    call.Collects (.keyword name) ↔ Binding.takesKeywords call.params = true := by
  simp [Collects, Binding.takesKeywords]

/-- The arguments by position are told off against the parameters by position. -/
theorem mem_zip_iff {param : Param} {kind : ArgKind} :
    (param, kind) ∈ (Binding.slots call.params).zip call.positional ↔
      ∃ index, call.Given (.position index) kind ∧ call.Reaches (.position index) param := by
  simp only [List.mem_iff_getElem?, List.getElem?_zip_eq_some, given_position_iff,
    reaches_position_iff, and_comm]

/-- A parameter has its argument by position, or by the keyword that is its name. -/
theorem binds_iff {param : Param} {kind : ArgKind} :
    call.Binds param kind ↔
      (∃ index, call.Given (.position index) kind ∧ call.Reaches (.position index) param) ∨
        call.Given (.keyword param.name) kind ∧ call.Reaches (.keyword param.name) param := by
  constructor
  · rintro ⟨argument, hgiven, hreaches⟩
    cases argument with
    | position index => exact .inl ⟨index, hgiven, hreaches⟩
    | keyword name =>
      obtain ⟨-, rfl, -⟩ := reaches_keyword_iff.mp hreaches
      exact .inr ⟨hgiven, hreaches⟩
  · rintro (⟨index, hgiven, hreaches⟩ | ⟨hgiven, hreaches⟩)
    · exact ⟨.position index, hgiven, hreaches⟩
    · exact ⟨.keyword param.name, hgiven, hreaches⟩

/-- A name that stands for no parameter reaches none. -/
theorem named?_eq_none_iff {name : String} :
    Binding.named? call.params name = none ↔ ∀ param, ¬call.Reaches (.keyword name) param := by
  simp [Binding.named?, reaches_keyword_iff]

section Distinct

variable (hparams : (call.params.map Param.name).Nodup)
include hparams

/-- Parameters are told apart by their names. -/
theorem eq_of_name_eq {param other : Param} (hparam : param ∈ call.params)
    (hother : other ∈ call.params) (hname : param.name = other.name) : param = other :=
  List.inj_on_of_nodup_map hparams hparam hother hname

/-- The parameter that a keyword names is the one that it reaches. -/
theorem named?_eq_some_iff {name : String} {param : Param} :
    Binding.named? call.params name = some param ↔ call.Reaches (.keyword name) param := by
  have hsound {param : Param} (h : Binding.named? call.params name = some param) :
      call.Reaches (.keyword name) param := by
    have hfound := List.find?_some h
    simp only [Bool.and_eq_true, Bool.or_eq_true, beq_iff_eq] at hfound
    exact reaches_keyword_iff.mpr ⟨List.mem_of_find?_eq_some h, hfound⟩
  refine ⟨hsound, ?_⟩
  intro hreaches
  cases hnamed : Binding.named? call.params name with
  | none => exact absurd hreaches (named?_eq_none_iff.mp hnamed param)
  | some other =>
    obtain ⟨hmem, hname, -⟩ := reaches_keyword_iff.mp hreaches
    obtain ⟨hmem', hname', -⟩ := reaches_keyword_iff.mp (hsound hnamed)
    rw [eq_of_name_eq hparams hmem' hmem (hname'.trans hname.symm)]

/-- A parameter is taken if it has an argument by position. -/
theorem mem_taken_iff {param : Param} (hparam : param ∈ call.params) :
    param.name ∈ call.taken ↔ ∃ index kind, call.Given (.position index) kind ∧
      call.Reaches (.position index) param := by
  simp only [taken, List.mem_map, Prod.exists]
  constructor
  · rintro ⟨slot, kind, hmem, hname⟩
    obtain ⟨index, hgiven, hreaches⟩ := mem_zip_iff.mp hmem
    rw [eq_of_name_eq hparams hreaches.mem hparam hname] at hreaches
    exact ⟨index, kind, hgiven, hreaches⟩
  · rintro ⟨index, kind, hgiven, hreaches⟩
    exact ⟨param, kind, mem_zip_iff.mpr ⟨index, hgiven, hreaches⟩, rfl⟩

/-- What is bound by keyword are the arguments by keyword that reach a parameter which is not taken. -/
theorem mem_filterMap_keywords_iff {name : String} {kind : ArgKind} {param : Param} :
    (name, kind, param) ∈ (call.keywords.filterMap fun argument =>
      if argument.name ∈ call.taken then none
      else (Binding.named? call.params argument.name).map fun param =>
        (argument.name, argument.kind, param)) ↔
      call.Given (.keyword name) kind ∧ call.Reaches (.keyword name) param ∧ name ∉ call.taken := by
  rw [List.mem_filterMap, given_keyword_iff]
  constructor
  · rintro ⟨argument, hmem, hsome⟩
    split at hsome
    · cases hsome
    · rename_i hfree
      obtain ⟨other, hnamed, ⟨⟩⟩ := Option.map_eq_some_iff.mp hsome
      exact ⟨hmem, (named?_eq_some_iff hparams).mp hnamed, hfree⟩
  · rintro ⟨hmem, hreaches, hfree⟩
    refine ⟨_, hmem, ?_⟩
    rw [if_neg hfree, (named?_eq_some_iff hparams).mpr hreaches]
    rfl

variable (hkeywords : (call.keywords.map KeywordArg.name).Nodup)
include hkeywords

/-- What the binding of a call comes to. -/
theorem binding_eq :
    call.binding =
      { bound := (((Binding.slots call.params).zip call.positional).map fun (slot, kind) =>
            (slot.name, kind, slot)) ++
          call.keywords.filterMap fun argument =>
            if argument.name ∈ call.taken then none
            else (Binding.named? call.params argument.name).map fun param =>
              (argument.name, argument.kind, param)
        excess :=
          if Binding.takesPositional call.params then 0
          else call.positional.length - (Binding.slots call.params).length
        duplicates := (call.keywords.filter fun argument =>
          (Binding.named? call.params argument.name).isSome &&
            decide (argument.name ∈ call.taken)).map KeywordArg.name
        unexpected := (call.keywords.filter fun argument =>
          (Binding.named? call.params argument.name).isNone &&
            !Binding.takesKeywords call.params).map KeywordArg.name } := by
  have hslots : ((Binding.slots call.params).map Param.name).Nodup :=
    hparams.sublist (List.filter_sublist.map Param.name)
  have hpositionals := @Binding.positionals_eq (Binding.takesPositional call.params) ⟨[], 0, [], []⟩
    (Binding.slots call.params) (fun _ _ => List.not_mem_nil) hslots call.positional
  rw [binding, Binding.ofCall, hpositionals, Binding.foldl_keyword call.params call.taken hkeywords]
  · simp
  · intro argument _
    simp [Ordered.keys, taken]

/-- The names that are given twice are those of the parameters that have two arguments. -/
theorem picks_duplicates :
    Picks call.binding.duplicates (call.keywords.map KeywordArg.name) fun name =>
      ∃ param, call.BindsTwice param ∧ param.name = name := by
  rw [binding_eq hparams hkeywords]
  refine ⟨List.filter_sublist.map _, ?_⟩
  intro name
  simp only [List.mem_map, List.mem_filter, Bool.and_eq_true, decide_eq_true_eq,
    Option.isSome_iff_exists, named?_eq_some_iff hparams]
  constructor
  · rintro ⟨argument, ⟨hmem, ⟨param, hreaches⟩, htaken⟩, rfl⟩
    obtain ⟨hparam, hname, -⟩ := reaches_keyword_iff.mp hreaches
    rw [← hname] at htaken
    obtain ⟨index, kind, hgiven, hslot⟩ := (mem_taken_iff hparams hparam).mp htaken
    exact ⟨param, ⟨index, argument.name, kind, argument.kind, hgiven, hslot,
      .keyword argument hmem, hreaches⟩, hname⟩
  · rintro ⟨param, ⟨index, name', first, second, hgiven, hslot, hsecond, hreaches⟩, rfl⟩
    obtain ⟨hparam, rfl, -⟩ := reaches_keyword_iff.mp hreaches
    have htaken := (mem_taken_iff hparams hparam).mpr ⟨index, first, hgiven, hslot⟩
    exact ⟨⟨param.name, second⟩, ⟨given_keyword_iff.mp hsecond, ⟨param, hreaches⟩, htaken⟩, rfl⟩

/-- The names that are unexpected are those of the keywords that have nowhere to go. -/
theorem picks_unexpected :
    Picks call.binding.unexpected (call.keywords.map KeywordArg.name) fun name =>
      call.Strays (.keyword name) := by
  rw [binding_eq hparams hkeywords]
  refine ⟨List.filter_sublist.map _, ?_⟩
  intro name
  simp only [List.mem_map, List.mem_filter, Bool.and_eq_true, Option.isNone_iff_eq_none,
    named?_eq_none_iff, Bool.not_eq_true', Strays, given_keyword_iff, collects_keyword_iff,
    Bool.not_eq_true]
  constructor
  · rintro ⟨argument, ⟨hmem, hnone, hcollects⟩, rfl⟩
    exact ⟨⟨argument.kind, hmem⟩, hnone, hcollects⟩
  · rintro ⟨⟨kind, hmem⟩, hnone, hcollects⟩
    exact ⟨⟨name, kind⟩, ⟨hmem, hnone, hcollects⟩, rfl⟩

/-- The arguments in excess are those by position that have nowhere to go. -/
theorem excess_eq : call.binding.excess = {index | call.Strays (.position index)}.ncard := by
  have hstrays : {index | call.Strays (.position index)} =
      if Binding.takesPositional call.params then ∅
      else Set.Ico (Binding.slots call.params).length call.positional.length := by
    ext index
    have hgiven : (∃ kind, call.positional[index]? = some kind) ↔
        index < call.positional.length := by
      simp [List.getElem?_eq_some_iff]
    have hnone : (∀ param, ¬(Binding.slots call.params)[index]? = some param) ↔
        (Binding.slots call.params).length ≤ index := by
      rw [← Option.eq_none_iff_forall_ne_some, List.getElem?_eq_none_iff]
    simp only [Set.mem_ofPred_eq, Strays, given_position_iff, reaches_position_iff, hgiven, hnone,
      collects_position_iff]
    split <;> simp_all [and_comm]
  rw [binding_eq hparams hkeywords, hstrays]
  split
  · simp
  · rw [← Finset.coe_Ico, Set.ncard_coe_finset, Nat.card_Ico]

/-- What the binding holds: the parameters with the kinds of their arguments. -/
theorem mem_bound_iff {name : String} {kind : ArgKind} {param : Param} :
    (name, kind, param) ∈ call.binding.bound ↔ name = param.name ∧
      ((∃ index, call.Given (.position index) kind ∧ call.Reaches (.position index) param) ∨
        call.Given (.keyword name) kind ∧ call.Reaches (.keyword name) param ∧
          name ∉ call.taken) := by
  have hposition : (name, kind, param) ∈ (((Binding.slots call.params).zip call.positional).map
      fun (slot, kind) => (slot.name, kind, slot)) ↔ name = param.name ∧
        ∃ index, call.Given (.position index) kind ∧ call.Reaches (.position index) param := by
    rw [← mem_zip_iff, List.mem_map]
    constructor
    · rintro ⟨_, hmem, ⟨⟩⟩
      exact ⟨rfl, hmem⟩
    · rintro ⟨rfl, hmem⟩
      exact ⟨_, hmem, rfl⟩
  rw [binding_eq hparams hkeywords, List.mem_append, hposition, mem_filterMap_keywords_iff hparams,
    and_or_left]
  refine or_congr Iff.rfl ⟨fun h => ⟨?_, h⟩, fun h => h.2⟩
  exact (reaches_keyword_iff.mp h.2.1).2.1.symm

/-- What the binding holds is an argument of the parameter. -/
theorem binds_of_mem_bound {name : String} {kind : ArgKind} {param : Param}
    (h : (name, kind, param) ∈ call.binding.bound) :
    name = param.name ∧ call.Binds param kind := by
  obtain ⟨rfl, hreached⟩ := (mem_bound_iff hparams hkeywords).mp h
  refine ⟨rfl, binds_iff.mpr ?_⟩
  rcases hreached with hposition | ⟨hgiven, hreaches, -⟩
  · exact .inl hposition
  · exact .inr ⟨hgiven, hreaches⟩

/-- A parameter is among those that are bound if it has an argument. -/
theorem mem_keys_iff {param : Param} (hparam : param ∈ call.params) :
    param.name ∈ call.binding.bound.keys ↔ ∃ kind, call.Binds param kind := by
  have hbound {kind : ArgKind} := @mem_bound_iff call hparams hkeywords param.name kind param
  constructor
  · intro h
    obtain ⟨⟨_, kind, other⟩, hentry, rfl⟩ := List.mem_map.mp h
    obtain ⟨hname, hbinds⟩ := binds_of_mem_bound hparams hkeywords hentry
    have hother : other ∈ call.params := by
      obtain ⟨argument, -, hreaches⟩ := hbinds
      exact hreaches.mem
    obtain rfl := eq_of_name_eq hparams hother hparam hname.symm
    exact ⟨kind, hbinds⟩
  · rintro ⟨kind, hbinds⟩
    by_cases htaken : param.name ∈ call.taken
    · obtain ⟨index, kind', hposition⟩ := (mem_taken_iff hparams hparam).mp htaken
      exact List.mem_map.mpr ⟨_, hbound.mpr ⟨rfl, .inl ⟨index, hposition⟩⟩, rfl⟩
    · have hentry : (param.name, kind, param) ∈ call.binding.bound := by
        refine hbound.mpr ⟨rfl, ?_⟩
        rcases binds_iff.mp hbinds with hposition | ⟨hgiven, hreaches⟩
        · exact .inl hposition
        · exact .inr ⟨hgiven, hreaches, htaken⟩
      exact List.mem_map.mpr ⟨_, hentry, rfl⟩

/-- The names that are missing are those of the parameters that need an argument and have none. -/
theorem picks_missing :
    Picks ((call.binding.missing call.params).map Param.name) (call.params.map Param.name)
      fun name => ∃ param, call.Lacks param ∧ param.name = name := by
  refine ⟨List.filter_sublist.map _, ?_⟩
  intro name
  have hlacks {param : Param} (hparam : param ∈ call.params) :
      (¬call.binding.bound.has param.name = true) ↔ ∀ kind, ¬call.Binds param kind := by
    rw [Ordered.has_iff, mem_keys_iff hparams hkeywords hparam, not_exists]
  simp only [Binding.missing, List.mem_map, List.mem_filter, Bool.and_eq_true, Bool.not_eq_true',
    Lacks]
  constructor
  · rintro ⟨param, ⟨hparam, ⟨hvariadic, hdefault⟩, hunbound⟩, hname⟩
    exact ⟨param, ⟨hparam, hvariadic, hdefault, (hlacks hparam).mp (by simp [hunbound])⟩, hname⟩
  · rintro ⟨param, ⟨hparam, hvariadic, hdefault, hunbound⟩, hname⟩
    refine ⟨param, ⟨hparam, ⟨hvariadic, hdefault⟩, ?_⟩, hname⟩
    simpa using (hlacks hparam).mpr hunbound

/-- Where no parameter has two arguments, the binding holds each parameter that has one. -/
theorem mem_bound_iff_binds (honce : ∀ param, ¬call.BindsTwice param) {name : String}
    {kind : ArgKind} {param : Param} :
    (name, kind, param) ∈ call.binding.bound ↔ name = param.name ∧ call.Binds param kind := by
  refine ⟨binds_of_mem_bound hparams hkeywords, ?_⟩
  rintro ⟨rfl, hbinds⟩
  refine (mem_bound_iff hparams hkeywords).mpr ⟨rfl, ?_⟩
  rcases binds_iff.mp hbinds with hposition | ⟨hgiven, hreaches⟩
  · exact .inl hposition
  · refine .inr ⟨hgiven, hreaches, ?_⟩
    intro htaken
    obtain ⟨index, first, hfirst, hslot⟩ := (mem_taken_iff hparams hreaches.mem).mp htaken
    exact honce param ⟨index, _, first, kind, hfirst, hslot, hgiven, hreaches⟩

end Distinct

/-- No argument has nowhere to go if and only if the binding counts and names none. -/
theorem not_exists_strays_iff (hparams : (call.params.map Param.name).Nodup)
    (hkeywords : (call.keywords.map KeywordArg.name).Nodup) :
    (¬∃ argument, call.Strays argument) ↔
      call.binding.excess = 0 ∧ call.binding.unexpected = [] := by
  have hfinite : {index | call.Strays (.position index)}.Finite := by
    refine (Set.finite_Iio call.positional.length).subset ?_
    rintro index ⟨⟨kind, hgiven⟩, -⟩
    exact (List.getElem?_eq_some_iff.mp (given_position_iff.mp hgiven)).1
  rw [excess_eq hparams hkeywords, Set.ncard_eq_zero hfinite, Set.eq_empty_iff_forall_notMem,
    (picks_unexpected hparams hkeywords).eq_nil_iff, not_exists]
  constructor
  · intro h
    exact ⟨fun index => h (.position index), fun name => h (.keyword name)⟩
  · rintro ⟨hpositions, hnames⟩ (index | name)
    · exact hpositions index
    · exact hnames name

end Invocation

end UsageAudit

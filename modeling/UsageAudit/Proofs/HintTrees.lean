import UsageAudit.Proofs.HintTexts

/-!
# Declared types as they are written

A declared type is a tree of names with parameters, of options and of unions, and a union is written
in one of two ways: `Union[A, B]` or `A | B`. What a declared type says of a literal is defined on
the tree, and is the same as what is read from its text, with one exception. Since the first bracket
is taken with the last one, `Union[A] | B[C]` is read as a union of the pieces of `A] | B[C`.
-/

namespace UsageAudit

open TypeHint

/-- Whether the character may stand in a name: it is not taken off the ends of a text, and it is
neither a bracket nor a separator. -/
def isNameChar (c : Char) : Bool := !isLoose c && nesting c == 0 && c != ',' && c != '|'

/-- Whether a text is made of the characters of names. -/
structure NameText (text : List Char) : Prop where
  nonempty : text ≠ []
  plain : ∀ c ∈ text, isNameChar c = true

namespace NameText

variable {text : List Char}

instance : Decidable (NameText text) :=
  decidable_of_iff (text ≠ [] ∧ text.all isNameChar = true)
    ⟨fun h => ⟨h.1, List.all_eq_true.mp h.2⟩, fun h => ⟨h.1, List.all_eq_true.mpr h.2⟩⟩

/-- Nothing is taken off the ends of a name. -/
theorem tight (h : NameText text) : Tight text := by
  have hloose (c : Char) (hc : c ∈ text) : isLoose c = false := by
    have hplain := h.plain c hc
    simp_all [isNameChar]
  constructor
  · obtain ⟨c, rest, rfl⟩ := List.exists_cons_of_ne_nil h.nonempty
    exact ⟨c, rest, rfl, hloose c List.mem_cons_self⟩
  · exact ⟨text.dropLast, text.getLast h.nonempty, (List.dropLast_append_getLast _).symm,
      hloose _ (List.getLast_mem _)⟩

/-- A name is not cut. -/
theorem passes (h : NameText text) {separator : Char}
    (hseparator : separator = ',' ∨ separator = '|') (depth : Int) : Passes separator depth text := by
  refine .of_forall ?_
  intro c hc
  have hplain := h.plain c hc
  simp only [isNameChar, Bool.and_eq_true, beq_iff_eq, bne_iff_ne] at hplain
  obtain ⟨⟨⟨-, hnesting⟩, hcomma⟩, hbar⟩ := hplain
  refine ⟨hnesting, ?_⟩
  rcases hseparator with rfl | rfl
  · exact hcomma
  · exact hbar

/-- There is no bracket in a name. -/
theorem not_mem (h : NameText text) {c : Char} (hc : nesting c ≠ 0) : c ∉ text := by
  intro hmem
  have hplain := h.plain c hmem
  simp_all [isNameChar]

end NameText

/-- A name that means neither an option nor a union. -/
structure TypeName where
  text : List Char
  isName : NameText text
  notOption : withoutPackage text ≠ "Optional".toList
  notUnion : isUnionName text = false

/-- A declared type. `packaged` says whether the package of an option or a union is written, too. -/
inductive HintTree where
  | name (base : TypeName) (params : List HintTree)
  | option (packaged : Bool) (inner : HintTree)
  | union (packaged : Bool) (members : List HintTree)
  | alternatives (members : List HintTree)

namespace HintTree

/-- The word for an option or a union. -/
def special (word : String) (packaged : Bool) : List Char :=
  if packaged then "typing.".toList ++ word.toList else word.toList

mutual

/-- The text of a declared type. -/
def print : HintTree → List Char
  | .name base params =>
    if params.isEmpty then base.text
    else bracketed base.text ([',', ' '].intercalate (printAll params))
  | .option packaged inner => bracketed (special "Optional" packaged) inner.print
  | .union packaged members =>
    bracketed (special "Union" packaged) ([',', ' '].intercalate (printAll members))
  | .alternatives members => [' ', '|', ' '].intercalate (printAll members)

/-- The texts of several declared types. -/
def printAll : List HintTree → List (List Char)
  | [] => []
  | member :: rest => member.print :: printAll rest

end

/-- Whether a declared type is a union that is written with bars. -/
def isAlternatives : HintTree → Bool
  | .alternatives _ => true
  | .name .. | .option .. | .union .. => false

/-- Whether unions have members, and no alternative of a union is written with bars itself. -/
inductive WellFormed : HintTree → Prop where
  | name (base : TypeName) (params : List HintTree) (h : ∀ param ∈ params, param.WellFormed) :
      WellFormed (.name base params)
  | option (packaged : Bool) (inner : HintTree) (h : inner.WellFormed) :
      WellFormed (.option packaged inner)
  | union (packaged : Bool) (members : List HintTree) (hne : members ≠ [])
      (h : ∀ member ∈ members, member.WellFormed) : WellFormed (.union packaged members)
  | alternatives (members : List HintTree) (hmany : 1 < members.length)
      (hflat : ∀ member ∈ members, member.isAlternatives = false)
      (h : ∀ member ∈ members, member.WellFormed) : WellFormed (.alternatives members)

/-- Whether the alternatives do not begin with a union in brackets and end in the brackets of
another type. -/
def KeptApart (members : List HintTree) : Prop :=
  ∀ packaged inner rest, members = .union packaged inner :: rest →
    ∃ base, members.getLast? = some (.name base [])

/-- Whether no union that is read has its brackets mixed up. The parameters of a name are not read.
-/
inductive Legible : HintTree → Prop where
  | name (base : TypeName) (params : List HintTree) : Legible (.name base params)
  | option (packaged : Bool) (inner : HintTree) (h : inner.Legible) :
      Legible (.option packaged inner)
  | union (packaged : Bool) (members : List HintTree)
      (h : ∀ member ∈ members, member.Legible) : Legible (.union packaged members)
  | alternatives (members : List HintTree) (hapart : KeptApart members)
      (h : ∀ member ∈ members, member.Legible) : Legible (.alternatives members)

/-- What several types say together: that one of them accepts a literal, else that this depends on
one of which nothing can be said, else that none of them does. -/
def anyMember (judgements : List (Option Bool)) : Option Bool :=
  if some true ∈ judgements then some true
  else if none ∈ judgements then none
  else some false

mutual

/-- What a declared type says of a literal of the given kind. A parameter with a default may always
be given nothing. -/
def meaning (kind : ArgKind) (hasDefault : Bool) : HintTree → Option Bool
  | .name base _ =>
    if kind = .none ∧ hasDefault then some true
    else (admitted? (String.ofList (withoutPackage base.text))).map fun kinds => kinds.contains kind
  | .option _ inner => if kind = .none then some true else meaning kind hasDefault inner
  | .union _ members | .alternatives members => anyMember (meanings kind hasDefault members)

/-- What each of several declared types says. -/
def meanings (kind : ArgKind) (hasDefault : Bool) : List HintTree → List (Option Bool)
  | [] => []
  | member :: rest => meaning kind hasDefault member :: meanings kind hasDefault rest

end

section Lists

variable (kind : ArgKind) (hasDefault : Bool) (members : List HintTree)

/-- Each type is printed on its own. -/
theorem printAll_eq_map : printAll members = members.map print := by
  induction members with
  | nil => rfl
  | cons member rest ih => simp [printAll, ih]

/-- Each type has its own meaning. -/
theorem meanings_eq_map :
    meanings kind hasDefault members = members.map (meaning kind hasDefault) := by
  induction members with
  | nil => rfl
  | cons member rest ih => simp [meanings, ih]

end Lists

/-- What several judgements come to together. -/
theorem anyOf_eq_anyMember (judgements : List (Option Bool)) :
    anyOf judgements = anyMember judgements := by
  induction judgements with
  | nil => rfl
  | cons first rest ih =>
    rcases first with _ | _ | _
    · simp only [anyOf, ih, anyMember, List.mem_cons]
      split <;> simp_all
    · simp [anyOf, ih, anyMember]
    · simp [anyOf, anyMember]

section Printing

variable {tree : HintTree}

/-- The words for options and unions are made of the characters of names. -/
theorem nameText_special {word : String} (hword : word = "Optional" ∨ word = "Union")
    (packaged : Bool) : NameText (special word packaged) := by
  rcases hword with rfl | rfl <;> cases packaged <;> decide

/-- What stands in brackets behind a name is not cut, if it is not cut one step deeper. -/
theorem passes_bracketed {base inner : List Char} (hbase : NameText base) {separator : Char}
    (hseparator : separator = ',' ∨ separator = '|') {depth : Int}
    (hinner : Passes separator (depth + 1) inner) :
    Passes separator depth (bracketed base inner) := by
  have hopening : separator ≠ '[' := by rcases hseparator with rfl | rfl <;> decide
  have hclosing : separator ≠ ']' := by rcases hseparator with rfl | rfl <;> decide
  exact (hbase.passes hseparator depth).append (.brackets hopening hclosing hinner)

/-- Texts that are not cut in brackets are not cut there with commas between them. -/
theorem passes_commas {separator : Char} {depth : Int} (hdepth : 0 < depth)
    {members : List HintTree}
    (h : ∀ member ∈ members, Passes separator depth member.print) :
    Passes separator depth ([',', ' '].intercalate (printAll members)) := by
  have hglue : Passes separator depth [',', ' '] :=
    .cons rfl (by omega) (.cons rfl (by omega) .nil)
  rw [printAll_eq_map]
  exact .intercalate hglue (List.forall_mem_map.mpr h)

/-- The text of a declared type is not cut at commas, nor at bars unless it is written with bars
itself and does not stand in brackets. -/
theorem WellFormed.passes (h : tree.WellFormed) {separator : Char}
    (hseparator : separator = ',' ∨ separator = '|') {depth : Int} (hdepth : 0 ≤ depth)
    (hcut : tree.isAlternatives = true → separator = ',' ∨ 0 < depth) :
    Passes separator depth tree.print := by
  induction h generalizing depth with
  | name base params _ ih =>
    rw [print]
    split
    · exact base.isName.passes hseparator depth
    · refine passes_bracketed base.isName hseparator (passes_commas (by omega) ?_)
      intro param hparam
      exact ih param hparam (by omega) fun _ => Or.inr (by omega)
  | option packaged inner _ ih =>
    refine passes_bracketed (nameText_special (.inl rfl) packaged) hseparator ?_
    exact ih (by omega) fun _ => Or.inr (by omega)
  | union packaged members hne _ ih =>
    refine passes_bracketed (nameText_special (.inr rfl) packaged) hseparator
      (passes_commas (by omega) ?_)
    intro member hmember
    exact ih member hmember (by omega) fun _ => Or.inr (by omega)
  | alternatives members hmany hflat _ ih =>
    have hglue : Passes separator depth [' ', '|', ' '] := by
      have hblank : ¬(' ' = separator ∧ depth = 0) := by
        rcases hseparator with rfl | rfl <;> simp
      have hbar : ¬('|' = separator ∧ depth = 0) := by
        rintro ⟨rfl, rfl⟩
        simp [isAlternatives] at hcut
      exact .cons rfl hblank (.cons rfl hbar (.cons rfl hblank .nil))
    rw [print, printAll_eq_map]
    refine .intercalate hglue (List.forall_mem_map.mpr ?_)
    intro member hmember
    refine ih member hmember hdepth ?_
    simp [hflat member hmember]

/-- Nothing is taken off the text of a declared type. -/
theorem WellFormed.tight (h : tree.WellFormed) : Tight tree.print := by
  induction h with
  | name base params _ _ =>
    rw [print]
    split
    · exact base.isName.tight
    · exact base.isName.tight.bracketed _
  | option packaged inner _ _ => exact (nameText_special (.inl rfl) packaged).tight.bracketed _
  | union packaged members _ _ _ => exact (nameText_special (.inr rfl) packaged).tight.bracketed _
  | alternatives members hmany _ _ ih =>
    rw [print, printAll_eq_map]
    refine .intercalate _ ?_ (List.forall_mem_map.mpr ih)
    rintro hnil
    simp [List.map_eq_nil_iff.mp hnil] at hmany

/-- The members of a union in brackets are the parts between its commas. -/
theorem parts_commas {members : List HintTree} (hne : members ≠ [])
    (h : ∀ member ∈ members, member.WellFormed) :
    parts ',' ([',', ' '].intercalate (printAll members)) = printAll members := by
  have hglue : Passes ',' 0 [' '] := .cons rfl (by simp) .nil
  rw [printAll_eq_map]
  refine parts_intercalate (List.forall_mem_nil _) (List.forall_mem_singleton.mpr rfl) .nil hglue
    (by simpa using hne) ?_
  refine List.forall_mem_map.mpr fun member hmember => ⟨?_, (h member hmember).tight⟩
  exact (h member hmember).passes (.inl rfl) (Int.le_refl 0) fun _ => Or.inl rfl

/-- The alternatives of a union are the parts between its bars. -/
theorem parts_bars {members : List HintTree} (hne : members ≠ [])
    (hflat : ∀ member ∈ members, member.isAlternatives = false)
    (h : ∀ member ∈ members, member.WellFormed) :
    parts '|' ([' ', '|', ' '].intercalate (printAll members)) = printAll members := by
  have hblank : ∀ c ∈ [' '], Text.isBlank c = true := List.forall_mem_singleton.mpr rfl
  have hglue : Passes '|' 0 [' '] := .cons rfl (by simp) .nil
  rw [printAll_eq_map]
  refine parts_intercalate hblank hblank hglue hglue (by simpa using hne) ?_
  refine List.forall_mem_map.mpr fun member hmember => ⟨?_, (h member hmember).tight⟩
  refine (h member hmember).passes (.inr rfl) (Int.le_refl 0) ?_
  simp [hflat member hmember]

end Printing

/-- The outermost construct of a declared type, with the texts of its parts. -/
def shape : HintTree → Shape
  | .name base _ => .named (withoutPackage base.text)
  | .option _ inner => .option (some inner.print)
  | .union _ members | .alternatives members => .union (printAll members)

/-- A text with a bar or a bracket in it is not the word for a union. -/
theorem isUnionName_of_mem {text : List Char} {c : Char} (hc : c = '|' ∨ c = '[') (h : c ∈ text) :
    isUnionName text = false := by
  by_contra hname
  simp only [isUnionName, Bool.not_eq_false, Bool.or_eq_true, beq_iff_eq] at hname
  rcases hname with rfl | rfl <;> rcases hc with rfl | rfl <;> simp at h

/-- The word before the brackets of a text with a bar in it is the word for a union only if the text
ends in a bracket and begins with that word. -/
theorem isUnionName_splitBrackets {text : List Char} (hbar : '|' ∈ text)
    (h : text.getLast? = some ']' →
      isUnionName (Text.trimmed (text.takeWhile fun c => c != '[')) = false) :
    isUnionName (splitBrackets text).1 = false := by
  unfold splitBrackets
  split
  · split
    · rename_i hlast
      exact h hlast
    · exact isUnionName_of_mem (.inl rfl) hbar
  · exact isUnionName_of_mem (.inl rfl) hbar

/-- Alternatives whose brackets are kept apart are not taken for a union in brackets. -/
theorem isUnionName_alternatives {members : List HintTree} (hmany : 1 < members.length)
    (hflat : ∀ member ∈ members, member.isAlternatives = false) (hapart : KeptApart members) :
    isUnionName (splitBrackets (HintTree.alternatives members).print).1 = false := by
  obtain ⟨first, second, more, rfl⟩ : ∃ first second more, members = first :: second :: more := by
    rcases members with _ | ⟨first, _ | ⟨second, more⟩⟩ <;> simp at hmany
    exact ⟨first, second, more, rfl⟩
  have htext : (HintTree.alternatives (first :: second :: more)).print =
      first.print ++
        ([' ', '|', ' '] ++ [' ', '|', ' '].intercalate (printAll (second :: more))) := by
    rw [print, printAll, printAll, List.intercalate_cons_cons, List.append_assoc]
  have hbracketed {base inner : List Char} (hbase : NameText base)
      (hunion : isUnionName base = false) (rest : List Char) :
      isUnionName (Text.trimmed ((bracketed base inner ++ rest).takeWhile fun c => c != '[')) =
        false := by
    rw [takeWhile_bracketed (hbase.not_mem (by decide)), hbase.tight.trimmed, hunion]
  refine isUnionName_splitBrackets (by simp [htext]) ?_
  intro hlast
  cases first with
  | name base params =>
    rw [htext, print]
    split
    · refine isUnionName_of_mem (.inl rfl) (Text.mem_stripped ?_ (by decide))
      have hnone : '[' ∉ base.text := base.isName.not_mem (by decide)
      rw [List.takeWhile_append_of_pos (all_before_bracket hnone)]
      simp
    · exact hbracketed base.isName base.notUnion _
  | option packaged inner =>
    rw [htext, print]
    exact hbracketed (nameText_special (.inl rfl) packaged) (by cases packaged <;> rfl) _
  | union packaged inner =>
    obtain ⟨base, hbase⟩ := hapart packaged inner _ rfl
    have hends : ((HintTree.union packaged inner :: second :: more).map print).getLast? =
        some base.text := by
      rw [List.getLast?_map, hbase]
      rfl
    rw [print, printAll_eq_map, Text.getLast?_intercalate _ hends base.isName.nonempty] at hlast
    exact absurd (List.mem_of_getLast? hlast) (base.isName.not_mem (by decide))
  | alternatives inner => simpa [isAlternatives] using hflat _ List.mem_cons_self

/-- A name that does not mean a union, with brackets behind it, is told from what is in them. -/
theorem shapeOfStripped_bracketed {base : List Char} (hbase : NameText base)
    (hunion : isUnionName base = false) {inner : List Char} (hinner : Passes '|' 1 inner) :
    shapeOfStripped (bracketed base inner) =
      if withoutPackage base = "Optional".toList then .option (some inner)
      else .named (withoutPackage base) := by
  have htight := hbase.tight.bracketed inner
  have hpasses : Passes '|' 0 (bracketed base inner) := passes_bracketed hbase (.inr rfl) hinner
  exact shapeOfStripped_of_name htight.ne_nil
    (splitBrackets_bracketed (hbase.not_mem (by decide)) hbase.tight inner) hunion
    (parts_eq_singleton hpasses htight)

/-- The text of a declared type shows its outermost construct. -/
theorem WellFormed.shapeOf_print {tree : HintTree} (h : tree.WellFormed)
    (hlegible : tree.Legible) : shapeOf tree.print = tree.shape := by
  rw [shapeOf, h.tight.trimmed, h.tight.unquoted]
  have hne := h.tight.ne_nil
  have hinside {param : HintTree} (hparam : param.WellFormed) : Passes '|' 1 param.print :=
    hparam.passes (.inr rfl) (by omega) fun _ => .inr (by omega)
  cases h with
  | name base params hparams =>
    rw [print] at hne ⊢
    split
    · have hplain : splitBrackets base.text = (base.text, none) :=
        splitBrackets_of_getLast? fun hlast =>
          base.isName.not_mem (by decide) (List.mem_of_getLast? hlast)
      have hpart := parts_eq_singleton (base.isName.passes (.inr rfl) 0) base.isName.tight
      rw [shapeOfStripped_of_name base.isName.nonempty hplain base.notUnion hpart,
        if_neg base.notOption, shape]
    · rw [shapeOfStripped_bracketed base.isName base.notUnion
        (passes_commas (by omega) fun param hparam => hinside (hparams param hparam)),
        if_neg base.notOption, shape]
  | option packaged inner hinner =>
    rw [print, shapeOfStripped_bracketed (nameText_special (.inl rfl) packaged)
      (by cases packaged <;> rfl) (hinside hinner), if_pos (by cases packaged <;> decide), shape]
  | union packaged members hmembers hall =>
    have hbase := nameText_special (.inr rfl) packaged
    have hunion : isUnionName (special "Union" packaged) = true := by cases packaged <;> rfl
    rw [print] at hne ⊢
    rw [shapeOfStripped_of_isUnionName hne
      (splitBrackets_bracketed (hbase.not_mem (by decide)) hbase.tight _) hunion,
      parts_commas hmembers hall, shape]
  | alternatives members hmany hflat hall =>
    have hmembers : members ≠ [] := by
      rintro rfl
      simp at hmany
    have hparts := parts_bars hmembers hflat hall
    have hcount : 1 < (printAll members).length := by simpa [printAll_eq_map] using hmany
    cases hlegible with
    | alternatives _ hapart _ =>
      have hunion := isUnionName_alternatives hmany hflat hapart
      rw [print] at hne hunion ⊢
      rw [shapeOfStripped_of_bars hne hunion (by rwa [hparts]), hparts, shape]

/-- A union whose members are read right says what it means. -/
theorem admits_unionOf_printAll {kind : ArgKind} {hasDefault : Bool} {members : List HintTree}
    (h : ∀ member ∈ members,
      admits kind hasDefault (ofText member.print) = member.meaning kind hasDefault) :
    admits kind hasDefault (.unionOf ((printAll members).map ofText)) =
      anyMember (meanings kind hasDefault members) := by
  rw [admits, anyOf_eq_anyMember, judgements_eq_map, meanings_eq_map, printAll_eq_map, List.map_map,
    List.map_map]
  exact congrArg anyMember (List.map_congr_left h)

/-- What is read from the text of a declared type says of every literal what the type means. -/
theorem admits_ofText_print {tree : HintTree} (h : tree.WellFormed)
    (hlegible : tree.Legible) (kind : ArgKind) (hasDefault : Bool) :
    admits kind hasDefault (ofText tree.print) = tree.meaning kind hasDefault := by
  have hshape := h.shapeOf_print hlegible
  induction h with
  | name base params _ _ => rw [ofText_of_named hshape, admits, meaning]
  | option packaged inner hinner ih =>
    cases hlegible with
    | option _ _ hlegible =>
      rw [ofText_of_option hshape, admits, meaning, ih hlegible (hinner.shapeOf_print hlegible)]
  | union packaged members _ hall ih =>
    cases hlegible with
    | union _ _ hlegible =>
      rw [ofText_of_union hshape, meaning, admits_unionOf_printAll]
      intro member hmember
      exact ih member hmember (hlegible member hmember)
        ((hall member hmember).shapeOf_print (hlegible member hmember))
  | alternatives members _ _ hall ih =>
    cases hlegible with
    | alternatives _ _ hlegible =>
      rw [ofText_of_union hshape, meaning, admits_unionOf_printAll]
      intro member hmember
      exact ih member hmember (hlegible member hmember)
        ((hall member hmember).shapeOf_print (hlegible member hmember))

/-- Matching an argument with a declared type goes by the parts of the type, however options, unions
of both forms and names with parameters are put together: what is said of a literal is what the type
means, and nothing is said of an argument whose kind is not known. Only a union whose alternatives
begin with a union in brackets and end in the brackets of another type is misread. -/
theorem accepts_print {tree : HintTree} (h : tree.WellFormed)
    (hlegible : tree.Legible) (kind : ArgKind) (hasDefault : Bool) :
    accepts (String.ofList tree.print) kind hasDefault =
      if kind = .unknown then none else tree.meaning kind hasDefault := by
  rw [accepts, String.toList_ofList, admits_ofText_print h hlegible]
  cases kind <;> rfl

/-- A name without parameters is well-formed. -/
theorem WellFormed.plain (base : TypeName) : WellFormed (.name base []) :=
  .name base [] (List.forall_mem_nil _)

/-- The name of integers. -/
def intName : TypeName := ⟨"int".toList, by decide, by decide, by decide⟩

/-- The name of texts. -/
def strName : TypeName := ⟨"str".toList, by decide, by decide, by decide⟩

/-- The name of lists. -/
def listName : TypeName := ⟨"List".toList, by decide, by decide, by decide⟩

/-- The name of a class of which nothing is known. -/
def widgetName : TypeName := ⟨"acme.Widget".toList, by decide, by decide, by decide⟩

/-- A declared type that holds unions of both forms, an option and parameters. -/
def nested : HintTree :=
  .alternatives [.name listName [.name intName [], .name widgetName []],
    .union true [.option false (.alternatives [.union false [.name intName []], .name strName []])]]

/-- A declared type with parts of every form is read as it is meant. -/
theorem accepts_print_nested :
    String.ofList nested.print =
        "List[int, acme.Widget] | typing.Union[Optional[Union[int] | str]]" ∧
      nested.WellFormed ∧ nested.Legible ∧
      accepts (String.ofList nested.print) .str false = some true ∧
      accepts (String.ofList nested.print) .none false = some true ∧
      accepts (String.ofList nested.print) .dict false = some false := by
  have hwell : nested.WellFormed := by
    have hinner :
        WellFormed (.alternatives [.union false [.name intName []], .name strName []]) := by
      have hunion : WellFormed (.union false [.name intName []]) :=
        .union _ _ (by simp) (List.forall_mem_singleton.mpr (.plain intName))
      exact .alternatives _ (by decide) (by decide) (by simp [hunion, WellFormed.plain])
    have hlist : WellFormed (.name listName [.name intName [], .name widgetName []]) :=
      .name _ _ (by simp [WellFormed.plain])
    have hunion := WellFormed.union true _ (by simp)
      (List.forall_mem_singleton.mpr (.option false _ hinner))
    exact .alternatives _ (by decide) (by decide) (by simp [hlist, hunion])
  have hlegible : nested.Legible := by
    have hinner : Legible (.alternatives [.union false [.name intName []], .name strName []]) := by
      have hunion : Legible (.union false [.name intName []]) :=
        .union _ _ (List.forall_mem_singleton.mpr (.name ..))
      exact .alternatives _ (fun _ _ _ _ => ⟨strName, rfl⟩) (by simp [hunion, Legible.name])
    have hunion := Legible.union true _ (List.forall_mem_singleton.mpr (.option false _ hinner))
    refine .alternatives _ ?_ (by simp [hunion, Legible.name])
    rintro packaged inner rest ⟨⟩
  refine ⟨by decide +kernel, hwell, hlegible, ?_, ?_, ?_⟩ <;>
    rw [accepts_print hwell hlegible] <;> decide +kernel

/-- The union of integers, texts and lists, written in both ways at once. -/
def mixedUnion : HintTree :=
  .alternatives [.union false [.name intName [], .name strName []],
    .name listName [.name intName []]]

/-- Nothing is said of a list whose declared type is that union, although one of the alternatives
accepts it. -/
theorem mixedUnion_misread :
    mixedUnion.WellFormed ∧ String.ofList mixedUnion.print = "Union[int, str] | List[int]" ∧
      mixedUnion.meaning .list false = some true ∧
      accepts "Union[int, str] | List[int]" .list false = none := by
  refine ⟨?_, by decide +kernel, by decide +kernel, by decide +kernel⟩
  have hunion : WellFormed (.union false [.name intName [], .name strName []]) :=
    .union _ _ (by simp) (by simp [WellFormed.plain])
  have hlist : WellFormed (.name listName [.name intName []]) :=
    .name _ _ (by simp [WellFormed.plain])
  exact .alternatives _ (by decide) (by decide) (by simp [hunion, hlist])

end HintTree

end UsageAudit

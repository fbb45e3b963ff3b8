import Mathlib
import UsageAudit.Proofs.ArgumentConfidence
import UsageAudit.Proofs.NodeReadings
import UsageAudit.Script.Parse

/-!
# The types of literals

Which types the values of an expression may have is told here by the rules of the language, for
every kind of expression and without a look at tags. The tag of a literal is held against these
rules: it names the type of the value, but for text literals in a row. These are always tagged as
text, also where they are joined into bytes. So a declared type refuses an argument for what its
value is, unless the argument is such a row.
-/

namespace UsageAudit

/-- The type of a value. -/
inductive ValueType where
  | str | bytes | int | float | complex | bool | nothing | list | dict | tuple | set
  /-- Any other type; an instance of a class is of the type of this name. -/
  | other (name : String)
  deriving DecidableEq, Repr

/-- The type that the kind of an argument stands for. -/
def ArgKind.valueType? : ArgKind → Option ValueType
  | .str => some .str
  | .bytes => some .bytes
  | .int => some .int
  | .float => some .float
  | .complex => some .complex
  | .bool => some .bool
  | .none => some .nothing
  | .list => some .list
  | .dict => some .dict
  | .tuple => some .tuple
  | .set => some .set
  | .unknown => Option.none

/-- The type of what a sign makes of a number of the given type: the type stays, but truth values
count as integers, and only integers have a complement. Other built-in values take no sign. -/
def ValueType.signed? (sign : List Char) : ValueType → Option ValueType
  | .int | .bool => some .int
  | .float => if sign = ['~'] then none else some .float
  | .complex => if sign = ['~'] then none else some .complex
  | _ => none

/-- A sign leaves the type of a number. -/
theorem ValueType.eq_of_signed? {sign : List Char} {type type' : ValueType}
    (hnumber : type = .int ∨ type = .float ∨ type = .complex)
    (hsigned : type.signed? sign = some type') : type' = type := by
  rcases hnumber with rfl | rfl | rfl <;> simp_all [signed?]

namespace Script

/-- The type that all values of expressions of this kind have. -/
def Kind.valueType? : Kind → Option ValueType
  | .trueLiteral | .falseLiteral | .notOperator => some .bool
  | .noneLiteral => some .nothing
  | .list | .listComprehension => some .list
  | .dictionary | .dictionaryComprehension => some .dict
  | .tuple => some .tuple
  | .set | .setComprehension => some .set
  | .ellipsis => some (.other "ellipsis")
  | .lambdaExpression => some (.other "function")
  | .generator => some (.other "generator")
  | _ => none

/-- Whether the type of an expression of this kind shows in its text or its parts. -/
def Kind.showsType : Kind → Bool
  | .string | .concatenatedString | .integer | .float | .parenthesized | .unaryOperator => true
  | _ => false

namespace Tree

/-- Whether the opening of a text literal has the letter for bytes. -/
def OpensBytes (opening : Tree) : Prop := 'b' ∈ opening.text ∨ 'B' ∈ opening.text

/-- Whether a number ends with the letter for the imaginary unit. -/
def EndsImaginary (tree : Tree) : Prop :=
  tree.text.getLast? = some 'j' ∨ tree.text.getLast? = some 'J'

/-- The expression in parentheses: their first part that is more than a sign or a comment. -/
def enclosed? (tree : Tree) : Option Tree :=
  tree.children.find? fun part => part.isNamed && !part.isExtra

/-- Whether the value of an expression, if it has one, may be of the type. -/
inductive HasType : Tree → ValueType → Prop where
  | bytes {tree opening : Tree} {rest : List Tree} (hkind : tree.kind = .string)
      (hparts : tree.children = opening :: rest) (hopens : opening.OpensBytes) :
      HasType tree .bytes
  | str {tree opening : Tree} {rest : List Tree} (hkind : tree.kind = .string)
      (hparts : tree.children = opening :: rest) (hopens : ¬opening.OpensBytes) :
      HasType tree .str
  /-- Text literals in a row are joined, and bytes are never joined with text. -/
  | joined {tree : Tree} {type : ValueType} (hkind : tree.kind = .concatenatedString)
      (hsome : ∃ part ∈ tree.children, part.kind = .string)
      (hparts : ∀ part ∈ tree.children, part.kind = .string → HasType part type) :
      HasType tree type
  | imaginary {tree : Tree} (hkind : tree.kind = .integer ∨ tree.kind = .float)
      (hends : tree.EndsImaginary) : HasType tree .complex
  | integer {tree : Tree} (hkind : tree.kind = .integer) (hends : ¬tree.EndsImaginary) :
      HasType tree .int
  | float {tree : Tree} (hkind : tree.kind = .float) (hends : ¬tree.EndsImaginary) :
      HasType tree .float
  | fixed {tree : Tree} {type : ValueType} (hkind : tree.kind.valueType? = some type) :
      HasType tree type
  | enclosed {tree inner : Tree} {type : ValueType} (hkind : tree.kind = .parenthesized)
      (hinner : tree.enclosed? = some inner) (h : HasType inner type) : HasType tree type
  /-- Parentheses around nothing are the empty tuple. -/
  | empty {tree : Tree} (hkind : tree.kind = .parenthesized) (hnone : tree.enclosed? = none) :
      HasType tree .tuple
  | signed {tree argument : Tree} {type type' : ValueType} (hkind : tree.kind = .unaryOperator)
      (hargument : tree.child? .argument = some argument) (h : HasType argument type)
      (hsigned : type.signed? (Extraction.firstText tree) = some type') : HasType tree type'
  /-- What a sign makes of an instance of a class is up to the class. -/
  | overloaded {tree argument : Tree} {name : String} {type : ValueType}
      (hkind : tree.kind = .unaryOperator) (hargument : tree.child? .argument = some argument)
      (h : HasType argument (.other name)) : HasType tree type
  /-- Of names, calls and all other expressions the type does not show. -/
  | hidden {tree : Tree} {type : ValueType} (hfixed : tree.kind.valueType? = none)
      (hshows : tree.kind.showsType = false) : HasType tree type

/-- Whether the expression is a row of literals, of which one holds bytes, in any number of
parentheses. -/
inductive JoinsBytes : Tree → Prop where
  | joined {tree part : Tree} (hkind : tree.kind = .concatenatedString)
      (hpart : part ∈ tree.children) (hstring : part.kind = .string) (h : part.HasType .bytes) :
      JoinsBytes tree
  | enclosed {tree inner : Tree} (hkind : tree.kind = .parenthesized)
      (hinner : tree.enclosed? = some inner) (h : JoinsBytes inner) : JoinsBytes tree

variable {tree inner : Tree} {type type' : ValueType}

/-- A text literal has one type. -/
theorem HasType.eq_of_string (h : tree.HasType type) (h' : tree.HasType type')
    (hkind : tree.kind = .string) : type = type' := by
  have hdecides {type : ValueType} (h : tree.HasType type) : ∃ opening rest,
      tree.children = opening :: rest ∧
        (opening.OpensBytes ∧ type = .bytes ∨ ¬opening.OpensBytes ∧ type = .str) := by
    cases h with
    | bytes _ hparts hopens => exact ⟨_, _, hparts, .inl ⟨hopens, rfl⟩⟩
    | str _ hparts hopens => exact ⟨_, _, hparts, .inr ⟨hopens, rfl⟩⟩
    | _ => simp_all [Kind.valueType?, Kind.showsType]
  obtain ⟨opening, rest, hparts, hcases⟩ := hdecides h
  obtain ⟨opening', rest', hparts', hcases'⟩ := hdecides h'
  obtain ⟨rfl, rfl⟩ : opening = opening' ∧ rest = rest' := by simpa [hparts] using hparts'
  rcases hcases with ⟨hopens, rfl⟩ | ⟨hopens, rfl⟩ <;>
    rcases hcases' with ⟨hopens', rfl⟩ | ⟨hopens', rfl⟩ <;> first | rfl | contradiction

/-- A single expression joins nothing. -/
theorem not_joinsBytes (hjoined : tree.kind ≠ .concatenatedString)
    (henclosed : tree.kind ≠ .parenthesized) : ¬tree.JoinsBytes := by
  rintro (⟨hkind⟩ | ⟨hkind⟩)
  · exact hjoined hkind
  · exact henclosed hkind

/-- Parentheses join what the expression in them does. -/
theorem joinsBytes_iff_of_enclosed (hkind : tree.kind = .parenthesized)
    (hinner : tree.enclosed? = some inner) : tree.JoinsBytes ↔ inner.JoinsBytes := by
  refine ⟨?_, .enclosed hkind hinner⟩
  rintro (⟨hkind'⟩ | ⟨-, hinner', h⟩)
  · rw [hkind] at hkind'
    cases hkind'
  · rw [hinner] at hinner'
    cases hinner'
    exact h

/-- Literals of one type that are joined are joined into bytes if and only if they are bytes. -/
theorem joinsBytes_iff_of_joined (hkind : tree.kind = .concatenatedString)
    (hsome : ∃ part ∈ tree.children, part.kind = .string)
    (hparts : ∀ part ∈ tree.children, part.kind = .string → part.HasType type) :
    tree.JoinsBytes ↔ type = .bytes := by
  constructor
  · rintro (⟨-, hpart, hstring, h⟩ | ⟨hkind'⟩)
    · exact (hparts _ hpart hstring).eq_of_string h hstring
    · rw [hkind] at hkind'
      cases hkind'
  · rintro rfl
    obtain ⟨part, hpart, hstring⟩ := hsome
    exact .joined hkind hpart hstring (hparts part hpart hstring)

end Tree

end Script

namespace Extraction

open Script (Tree Kind Field)

variable {tree inner argument : Tree} {type type' : ValueType} {kind : ArgKind}

/-- The letters in front of a text literal decide whether it holds bytes. -/
theorem isBytesPrefix_iff {opening : Tree} :
    isBytesPrefix opening.text = true ↔ opening.OpensBytes := by
  simp only [isBytesPrefix, List.any_eq_true, Bool.or_eq_true, beq_iff_eq, Tree.OpensBytes]
  constructor
  · rintro ⟨c, hc, rfl | rfl⟩
    · exact .inl hc
    · exact .inr hc
  · rintro (hc | hc)
    · exact ⟨_, hc, .inl rfl⟩
    · exact ⟨_, hc, .inr rfl⟩

/-- The last letter of a number decides whether it is imaginary. -/
theorem isImaginary_iff : isImaginary tree.text = true ↔ tree.EndsImaginary := by
  unfold isImaginary Tree.EndsImaginary
  cases tree.text.getLast? <;> simp

/-- A text literal is tagged by the letters in front of it. -/
theorem literalKind_of_string {opening : Tree} {rest : List Tree} (hkind : tree.kind = .string)
    (hparts : tree.children = opening :: rest) :
    literalKind tree = if isBytesPrefix opening.text then .bytes else .str := by
  rw [literalKind_eq, hkind]
  simp [literalKindOf, firstText, hparts]

/-- A number is tagged by its last letter. -/
theorem literalKind_of_number (hkind : tree.kind = .integer ∨ tree.kind = .float) :
    literalKind tree =
      if isImaginary tree.text then .complex
      else if tree.kind = .integer then .int else .float := by
  rw [literalKind_eq]
  rcases hkind with hkind | hkind <;> simp [hkind, literalKindOf]

/-- A signed expression has a tag only if what follows the sign is tagged as a number, and it has
the same. -/
theorem literalKind_of_unary (hkind : tree.kind = .unaryOperator)
    (hargument : tree.child? .argument = some argument) (hknown : (literalKind tree).isKnown) :
    literalKind tree = literalKind argument ∧
      (literalKind argument = .int ∨ literalKind argument = .float ∨
        literalKind argument = .complex) := by
  have htag : literalKind tree = literalKindOf .unaryOperator tree.text (firstText tree)
      (literalKind argument) (((tree.children.find? Tree.isNamed).map literalKind).getD
        (if tree.isToken then .unknown else .tuple)) := by
    rw [literalKind_eq tree, hkind, hargument, Option.map_some, Option.getD_some]
  rw [htag] at hknown ⊢
  cases hnumber : literalKind argument <;> simp_all [literalKindOf, ArgKind.isKnown]

/-- Comments have no tag. -/
theorem literalKind_of_isExtra (h : tree.isExtra = true) : literalKind tree = .unknown := by
  rw [Tree.isExtra] at h
  rw [literalKind_eq]
  cases hkind : tree.kind <;> rw [hkind] at h <;> first | rfl | cases h

/-- Parentheses have a tag only if nothing stands in front of the expression in them, and it is the
tag of this expression. -/
theorem literalKind_of_parenthesized (hkind : tree.kind = .parenthesized)
    (hinner : tree.enclosed? = some inner) (hknown : (literalKind tree).isKnown) :
    literalKind tree = literalKind inner := by
  have hfind := List.find?_some hinner
  have hmem := List.mem_of_find?_eq_some hinner
  obtain ⟨first, hfirst⟩ : ∃ first, tree.children.find? Tree.isNamed = some first := by
    rw [← Option.isSome_iff_exists, List.find?_isSome]
    exact ⟨inner, hmem, (Bool.and_eq_true_iff.mp hfind).1⟩
  have htag : literalKind tree = literalKind first := by
    rw [literalKind_eq tree, hkind, hfirst]
    rfl
  have hextra : first.isExtra = false := by
    by_contra hextra
    rw [htag, literalKind_of_isExtra (by simpa using hextra)] at hknown
    cases hknown
  have hsame : tree.enclosed? = some first := by
    obtain ⟨hnamed, before, behind, hparts, hbefore⟩ := List.find?_eq_some_iff_append.mp hfirst
    refine List.find?_eq_some_iff_append.mpr ⟨by simp [hnamed, hextra], before, behind, hparts, ?_⟩
    intro part hpart
    simp [hbefore part hpart]
  rw [hinner, Option.some.injEq] at hsame
  rw [htag, hsame]

/-- Parentheses around nothing have a tag only if there is no comment in them either, and it is that
of a tuple. -/
theorem literalKind_of_empty (hkind : tree.kind = .parenthesized) (hnone : tree.enclosed? = none)
    (hknown : (literalKind tree).isKnown) : literalKind tree = .tuple := by
  rw [literalKind_eq tree, hkind] at hknown ⊢
  cases hfirst : tree.children.find? Tree.isNamed with
  | none =>
    rw [hfirst] at hknown
    cases htoken : tree.isToken
    · rfl
    · rw [htoken] at hknown
      cases hknown
  | some first =>
    have hextra : first.isExtra = true := by
      have hnamed := List.find?_some hfirst
      have hno := List.find?_eq_none.mp hnone first (List.mem_of_find?_eq_some hfirst)
      simpa [hnamed] using hno
    rw [hfirst, Option.map_some, Option.getD_some, literalKindOf,
      literalKind_of_isExtra hextra] at hknown
    cases hknown

/-- What joins bytes is tagged as text. -/
theorem literalKind_of_joinsBytes (h : tree.JoinsBytes) (hknown : (literalKind tree).isKnown) :
    literalKind tree = .str := by
  induction h with
  | joined hkind =>
    rw [literalKind_eq, hkind]
    rfl
  | enclosed hkind hinner _ ih =>
    have htag := literalKind_of_parenthesized hkind hinner hknown
    rw [htag] at hknown ⊢
    exact ih hknown

/-- A signed expression that has a tag is tagged with the type of what follows the sign, and this is
a type of numbers. -/
theorem type_of_unary (hkind : tree.kind = .unaryOperator)
    (hargument : tree.child? .argument = some argument) (hknown : (literalKind tree).isKnown)
    (hnames : (literalKind argument).isKnown →
      ((literalKind argument).valueType? = some type ↔ ¬argument.JoinsBytes)) :
    (literalKind tree).valueType? = some type ∧
      (type = .int ∨ type = .float ∨ type = .complex) := by
  obtain ⟨htag, hnumber⟩ := literalKind_of_unary hkind hargument hknown
  rw [htag] at hknown ⊢
  have hjoins : ¬argument.JoinsBytes := by
    intro hjoins
    rw [literalKind_of_joinsBytes hjoins hknown] at hnumber
    simp at hnumber
  have htype := (hnames hknown).mpr hjoins
  refine ⟨htype, ?_⟩
  rcases hnumber with hnumber | hnumber | hnumber <;> rw [hnumber] at htype <;> cases htype <;> simp

/-- An expression of a fixed type that has a tag is tagged with this type. -/
theorem valueType?_of_fixed (hkind : tree.kind.valueType? = some type)
    (hknown : (literalKind tree).isKnown) : (literalKind tree).valueType? = some type := by
  rw [literalKind_eq] at hknown ⊢
  cases hfixed : tree.kind <;>
    simp_all [Kind.valueType?, literalKindOf, ArgKind.valueType?, ArgKind.isKnown]

/-- An expression has no tag if its type does not show. -/
theorem literalKind_of_hidden (hfixed : tree.kind.valueType? = none)
    (hshows : tree.kind.showsType = false) : literalKind tree = .unknown := by
  rw [literalKind_eq]
  cases hkind : tree.kind <;> rw [hkind] at hfixed hshows <;>
    first | cases hfixed; done | cases hshows; done | rfl

/-- The tag of an expression names the type of its value if and only if the expression does not
join literals into bytes. -/
theorem valueType?_literalKind (htype : tree.HasType type) (hknown : (literalKind tree).isKnown) :
    (literalKind tree).valueType? = some type ↔ ¬tree.JoinsBytes := by
  induction htype with
  | bytes hkind hparts hopens =>
    rw [literalKind_of_string hkind hparts, if_pos (isBytesPrefix_iff.mpr hopens)]
    exact iff_of_true rfl (Tree.not_joinsBytes (by simp [hkind]) (by simp [hkind]))
  | str hkind hparts hopens =>
    rw [literalKind_of_string hkind hparts, if_neg (mt isBytesPrefix_iff.mp hopens)]
    exact iff_of_true rfl (Tree.not_joinsBytes (by simp [hkind]) (by simp [hkind]))
  | @joined tree type hkind hsome hparts =>
    have htag : literalKind tree = .str := by
      rw [literalKind_eq, hkind]
      rfl
    have htype : type = .bytes ∨ type = .str := by
      obtain ⟨part, hpart, hstring⟩ := hsome
      cases hparts part hpart hstring with
      | bytes => exact .inl rfl
      | str => exact .inr rfl
      | _ => simp_all [Kind.valueType?, Kind.showsType]
    rw [htag, Tree.joinsBytes_iff_of_joined hkind hsome hparts]
    rcases htype with rfl | rfl <;> simp [ArgKind.valueType?]
  | imaginary hkind hends =>
    rw [literalKind_of_number hkind, if_pos (isImaginary_iff.mpr hends)]
    refine iff_of_true rfl (Tree.not_joinsBytes ?_ ?_) <;> rcases hkind with hkind | hkind <;>
      simp [hkind]
  | integer hkind hends =>
    rw [literalKind_of_number (.inl hkind), if_neg (mt isImaginary_iff.mp hends), if_pos hkind]
    exact iff_of_true rfl (Tree.not_joinsBytes (by simp [hkind]) (by simp [hkind]))
  | float hkind hends =>
    rw [literalKind_of_number (.inr hkind), if_neg (mt isImaginary_iff.mp hends),
      if_neg (by simp [hkind])]
    exact iff_of_true rfl (Tree.not_joinsBytes (by simp [hkind]) (by simp [hkind]))
  | fixed hkind =>
    refine iff_of_true (valueType?_of_fixed hkind hknown) (Tree.not_joinsBytes ?_ ?_) <;>
      intro hother <;> simp [hother, Kind.valueType?] at hkind
  | enclosed hkind hinner _ ih =>
    have htag := literalKind_of_parenthesized hkind hinner hknown
    rw [htag] at hknown ⊢
    rw [ih hknown, Tree.joinsBytes_iff_of_enclosed hkind hinner]
  | @empty tree hkind hnone =>
    have hjoins : ¬tree.JoinsBytes := by
      rintro (⟨hkind'⟩ | ⟨-, hinner⟩)
      · rw [hkind] at hkind'
        cases hkind'
      · rw [hnone] at hinner
        cases hinner
    rw [literalKind_of_empty hkind hnone hknown]
    exact iff_of_true rfl hjoins
  | signed hkind hargument _ hsigned ih =>
    obtain ⟨htype, hnumber⟩ := type_of_unary hkind hargument hknown ih
    rw [ValueType.eq_of_signed? hnumber hsigned]
    exact iff_of_true htype (Tree.not_joinsBytes (by simp [hkind]) (by simp [hkind]))
  | overloaded hkind hargument _ ih =>
    obtain ⟨-, hnumber⟩ := type_of_unary hkind hargument hknown ih
    simp at hnumber
  | hidden hfixed hshows =>
    rw [literalKind_of_hidden hfixed hshows] at hknown
    cases hknown

end Extraction

namespace Binding

variable {params : List Param} {kinds : List ArgKind} {binding : Binding}

/-- Whether every entry of a binding is a parameter under its name with one of the kinds. -/
def HoldsOnly (binding : Binding) (params : List Param) (kinds : List ArgKind) : Prop :=
  ∀ entry ∈ binding.bound, entry.1 = entry.2.2.name ∧ entry.2.2 ∈ params ∧ entry.2.1 ∈ kinds

/-- Binding a parameter brings in no other entry. -/
theorem HoldsOnly.bind (h : binding.HoldsOnly params kinds) {param : Param} {kind : ArgKind}
    (hparam : param ∈ params) (hkind : kind ∈ kinds) :
    (binding.bind param kind).HoldsOnly params kinds := by
  intro entry hentry
  rcases Ordered.mem_of_mem_put hentry with hentry | rfl
  · exact h entry hentry
  · exact ⟨rfl, hparam, hkind⟩

/-- Arguments by position are bound to the slots. -/
theorem HoldsOnly.positionals (takesMore : Bool) (h : binding.HoldsOnly params kinds)
    {slots : List Param} (hslots : ∀ slot ∈ slots, slot ∈ params) {given : List ArgKind}
    (hgiven : ∀ kind ∈ given, kind ∈ kinds) :
    (Binding.positionals takesMore binding slots given).HoldsOnly params kinds := by
  induction slots generalizing binding given with
  | nil =>
    cases given with
    | nil => exact h
    | cons kind rest => cases takesMore <;> exact h
  | cons slot slots ih =>
    cases given with
    | nil => exact h
    | cons kind rest =>
      rw [List.forall_mem_cons] at hslots hgiven
      exact ih (h.bind hslots.1 hgiven.1) hslots.2 hgiven.2

/-- An argument by keyword is bound to a parameter. -/
theorem HoldsOnly.keyword (h : binding.HoldsOnly params kinds) {argument : KeywordArg}
    (hkind : argument.kind ∈ kinds) :
    (Binding.keyword params binding argument).HoldsOnly params kinds := by
  unfold Binding.keyword
  split
  · rename_i param hnamed
    split
    · exact h
    · exact h.bind (List.mem_of_find?_eq_some hnamed) hkind
  · split <;> exact h

/-- Arguments by keyword are bound to parameters. -/
theorem HoldsOnly.keywords (h : binding.HoldsOnly params kinds) {given : List KeywordArg}
    (hgiven : ∀ argument ∈ given, argument.kind ∈ kinds) :
    (given.foldl (Binding.keyword params) binding).HoldsOnly params kinds := by
  induction given generalizing binding with
  | nil => exact h
  | cons argument rest ih =>
    rw [List.forall_mem_cons] at hgiven
    exact ih (h.keyword hgiven.1) hgiven.2

/-- The binding of a call holds nothing but its parameters and its arguments. -/
theorem holdsOnly_ofCall (params : List Param) (positional : List ArgKind)
    (keywords : List KeywordArg) :
    (ofCall params positional keywords).HoldsOnly params
      (positional ++ keywords.map KeywordArg.kind) := by
  refine HoldsOnly.keywords (HoldsOnly.positionals _ ?_ ?_ ?_) ?_
  · simp [HoldsOnly]
  · exact fun slot hslot => List.mem_of_mem_filter hslot
  · exact fun kind hkind => List.mem_append_left _ hkind
  · exact fun argument hargument => List.mem_append_right _ (List.mem_map_of_mem hargument)

/-- The mismatches in the verdict on a call are those of the parameters whose declared type refuses
the argument. -/
theorem mismatches_of_details {α : Type} [Scalar α] {declared : List Param}
    {positional : List ArgKind} {keywords : List KeywordArg} {found : List (Datum α)}
    (h : ("type_mismatches", .arr found) ∈
      (checkArguments declared positional keywords : Verdict α).details) :
    found = (ofCall (expected declared) positional keywords).offenders.map mismatch := by
  unfold checkArguments at h
  dsimp only at h
  split at h
  · simp [duplicateVerdict, Verdict.withDetail, Verdict.plain, Ordered.put] at h
  split at h
  · unfold surplusVerdict at h
    dsimp only at h
    split at h <;>
      simp [Verdict.withSuggestion, Verdict.withDetail, Verdict.plain, Ordered.put] at h
  split at h
  · simp [missingVerdict, Verdict.withSuggestion, Verdict.withDetail, Verdict.plain,
      Ordered.put] at h
  unfold typeVerdict at h
  dsimp only at h
  split at h
  · simp [Verdict.withDetail, Verdict.plain, Ordered.put] at h
  · rw [← map_toDatum_typeChecks]
    simpa [Verdict.withDetail, Verdict.plain, Ordered.put] using h

end Binding

namespace Extraction

open Script (Tree Kind Field)

/-- The expression whose value an argument of a call hands over. None is handed over by a comment,
and what is unpacked hands over its parts. -/
def handedOver? (argument : Tree) : Option Tree :=
  match argument.kind with
  | .comment | .listSplat | .dictionarySplat => none
  | .keywordArgument => argument.child? .value
  | _ => some argument

/-- Whether a call hands over the value of an expression. -/
def HandsOver (call value : Tree) : Prop :=
  ∃ arguments, call.child? .arguments = some arguments ∧
    ∃ argument ∈ arguments.namedChildren, handedOver? argument = some value

/-- The kinds of the arguments of a call, by position and by keyword. -/
def kindsOf (shape : CallArguments) : List ArgKind :=
  shape.positional ++ shape.keywords.map KeywordArg.kind

variable {call argument : Tree} {tally tally' : ArgumentTally} {shape : CallArguments}
  {kind : ArgKind}

/-- A known kind that an argument adds to the shape of a call is the tag of what it hands over. -/
theorem tag_of_mem_add (h : tally.add argument = .ok tally') (hkind : kind ∈ kindsOf tally'.shape)
    (hknown : kind.isKnown) : kind ∈ kindsOf tally.shape ∨
      ∃ value, handedOver? argument = some value ∧ kind = literalKind value := by
  unfold ArgumentTally.add at h
  split at h
  · cases h
    exact .inl hkind
  · rename_i hargument
    obtain ⟨name, -, heq⟩ := bind_eq_ok_iff.mp h
    cases heq
    simp only [kindsOf, List.map_append, ← List.append_assoc, List.mem_append] at hkind ⊢
    rcases hkind with hkind | hkind
    · exact .inl hkind
    · refine .inr ?_
      rw [List.mem_map] at hkind
      obtain ⟨keyword, hkeyword, rfl⟩ := hkind
      rw [List.mem_singleton] at hkeyword
      subst hkeyword
      dsimp only at hknown ⊢
      rw [literalKindAt_eq] at hknown ⊢
      simp only [handedOver?, hargument, Tree.child?]
      cases hvalue : argument.children.find? fun tree => tree.field == some .value with
      | none =>
        rw [hvalue] at hknown
        cases hknown
      | some value => exact ⟨value, rfl, rfl⟩
  · cases h
    exact .inl hkind
  · cases h
    exact .inl hkind
  · rename_i hcomment hkeyword hlist hdictionary
    cases h
    simp only [kindsOf, List.append_assoc, List.mem_append, List.mem_singleton] at hkind ⊢
    rcases hkind with hkind | rfl | hkind
    · exact .inl (.inl hkind)
    · refine .inr ⟨argument, ?_, rfl⟩
      unfold handedOver?
      split <;> first | rfl | contradiction
    · exact .inl (.inr hkind)

/-- A known kind in the shape of several arguments is the tag of what one of them hands over. -/
theorem tag_of_mem_foldlM {arguments : List Tree}
    (h : arguments.foldlM ArgumentTally.add tally = .ok tally')
    (hkind : kind ∈ kindsOf tally'.shape) (hknown : kind.isKnown) : kind ∈ kindsOf tally.shape ∨
      ∃ argument ∈ arguments, ∃ value, handedOver? argument = some value ∧
        kind = literalKind value := by
  induction arguments generalizing tally with
  | nil =>
    cases h
    exact .inl hkind
  | cons argument rest ih =>
    rw [List.foldlM_cons] at h
    obtain ⟨middle, hmiddle, hrest⟩ := bind_eq_ok_iff.mp h
    rcases ih hrest with hmem | ⟨other, hother, hvalue⟩
    · rcases tag_of_mem_add hmiddle hmem hknown with hmem | hvalue
      · exact .inl hmem
      · exact .inr ⟨argument, List.mem_cons_self, hvalue⟩
    · exact .inr ⟨other, List.mem_cons_of_mem _ hother, hvalue⟩

/-- A known kind in the shape of a call is the tag of an expression that the call hands over. -/
theorem exists_handsOver {counts : Nat × Nat}
    (h : callArguments (call.child? .arguments) = .ok (shape, counts))
    (hkind : kind ∈ kindsOf shape) (hknown : kind.isKnown) :
    ∃ value, HandsOver call value ∧ kind = literalKind value := by
  cases harguments : call.child? .arguments with
  | none =>
    rw [harguments] at h
    cases h
    simp [kindsOf, CallArguments.empty] at hkind
  | some arguments =>
    simp only [harguments, callArguments] at h
    split at h
    · cases h
      obtain rfl : kind = .unknown := by simpa [kindsOf, CallArguments.empty] using hkind
      cases hknown
    · obtain ⟨tally, hfold, heq⟩ := bind_eq_ok_iff.mp h
      cases heq
      rcases tag_of_mem_foldlM hfold hkind hknown with hmem | ⟨argument, hmem, value, hvalue, rfl⟩
      · simp [kindsOf, CallArguments.empty] at hmem
      · exact ⟨value, ⟨arguments, harguments, argument, hmem, hvalue⟩, rfl⟩

/-- A tag names the type of the value of an expression if and only if the expression does not join
literals into bytes. So every mismatch of types that is reported for a call tells of an expression
that the call hands over, and of the type of its value, unless it joins literals into bytes. -/
theorem literal_types (tree : Tree) :
    (∀ type, tree.HasType type → (literalKind tree).isKnown →
      ((literalKind tree).valueType? = some type ↔ ¬tree.JoinsBytes)) ∧
      ∀ {α : Type} [Scalar α] (declared : List Param) (shape : CallArguments) (counts : Nat × Nat)
        (found : List (Datum α)), callArguments (tree.child? .arguments) = .ok (shape, counts) →
        ("type_mismatches", .arr found) ∈
          (checkArguments declared shape.positional shape.keywords : Verdict α).details →
        ∀ mismatch ∈ found, ∃ value, HandsOver tree value ∧ ∃ param ∈ Binding.expected declared,
          mismatch = Binding.mismatch (param.name, literalKind value, param) ∧
            Binding.judgement? (param.name, literalKind value, param) = some false ∧
            ∀ type, value.HasType type →
              ((literalKind value).valueType? = some type ↔ ¬value.JoinsBytes) := by
  refine ⟨fun type htype hknown => valueType?_literalKind htype hknown, ?_⟩
  intro α _ declared shape counts found hshape hfound mismatch hmismatch
  rw [Binding.mismatches_of_details hfound] at hmismatch
  obtain ⟨⟨name, kind, param⟩, hentry, rfl⟩ := List.mem_map.mp hmismatch
  obtain ⟨hbound, hrefused⟩ := List.mem_filter.mp hentry
  obtain ⟨hname, hparam, hkind⟩ := Binding.holdsOnly_ofCall _ _ _ _ hbound
  obtain rfl : name = param.name := hname
  rw [beq_iff_eq] at hrefused
  have hknown : kind.isKnown := by
    by_contra hunknown
    cases hdeclared : param.declared <;>
      simp [Binding.judgement?, hdeclared, TypeHint.accepts, hunknown] at hrefused
  obtain ⟨value, hvalue, rfl⟩ := exists_handsOver hshape hkind hknown
  exact ⟨value, hvalue, param, hparam, rfl, hrefused,
    fun type htype => valueType?_literalKind htype hknown⟩

/-- The tree of a call with one argument. -/
def callWith (argument : Tree) : Tree :=
  .branch none .call 1 [
    .token (some .function) .identifier 1 [] ['f'],
    .branch (some .arguments) .argumentList 1 [
      .token none .sign 1 [] ['('], argument, .token none .sign 1 [] [')']]]

/-- The tree of a script that is one call. -/
def scriptWith (argument : Tree) : Tree :=
  .branch none .script 1 [.branch none .expressionStatement 1 [callWith argument]]

/-- The tree of an imaginary number with a sign, in parentheses. -/
def enclosedNumber : Tree :=
  .branch none .parenthesized 1 [
    .token none .sign 1 [] ['('],
    .branch none .unaryOperator 1 [
      .token none .sign 1 [] ['-'], .token (some .argument) .integer 1 [] ['2', 'j']],
    .token none .sign 1 [] [')']]

/-- A parameter that takes an integer. -/
def countParam : Param := ⟨"count", some "int", false, .positional⟩

/-- An imaginary number is tagged as one in parentheses and behind a sign. Where it is handed over
for an integer, a mismatch is reported, and it tells of this number. -/
theorem literal_types_enclosedNumber :
    let call := callWith enclosedNumber
    let shape : CallArguments := ⟨[literalKind enclosedNumber], [], false⟩
    let mismatch : Datum Rat :=
      Binding.mismatch ("count", literalKind enclosedNumber, countParam)
    Script.parse "f((-2j))".toList = .ok (scriptWith enclosedNumber) ∧
      enclosedNumber.HasType .complex ∧ (literalKind enclosedNumber).isKnown ∧
      (literalKind enclosedNumber).valueType? = some .complex ∧
      callArguments (call.child? .arguments) = .ok (shape, 1, 0) ∧
      ("type_mismatches", .arr [mismatch]) ∈
        (checkArguments [countParam] shape.positional shape.keywords : Verdict Rat).details ∧
      ∃ value, HandsOver call value ∧ mismatch =
        Binding.mismatch ("count", literalKind value, countParam) := by
  intro call shape mismatch
  have hparse : Script.parse "f((-2j))".toList = .ok (scriptWith enclosedNumber) := by cbv
  have hnumber : (Tree.token (some .argument) .integer 1 [] ['2', 'j']).HasType .complex :=
    .imaginary (.inl rfl) (.inl rfl)
  have htype : enclosedNumber.HasType .complex :=
    .enclosed rfl rfl (.signed rfl rfl hnumber rfl)
  have hjoins : ¬enclosedNumber.JoinsBytes := by
    rw [Tree.joinsBytes_iff_of_enclosed rfl rfl]
    exact Tree.not_joinsBytes (by decide) (by decide)
  have hshape : callArguments (call.child? .arguments) = .ok (shape, 1, 0) := by decide +kernel
  have hdetails : ("type_mismatches", .arr [mismatch]) ∈
      (checkArguments [countParam] shape.positional shape.keywords : Verdict Rat).details := by
    have hcomplete : (Binding.ofCall (Binding.expected [countParam]) shape.positional
        shape.keywords).Complete (Binding.expected [countParam]) := by
      constructor <;> decide +kernel
    have hoffenders : (Binding.ofCall (Binding.expected [countParam]) shape.positional
        shape.keywords).offenders = [("count", .complex, countParam)] := by decide +kernel
    have hwrong := congrArg (List.map (Binding.mismatch (α := Rat))) hoffenders
    rw [← Binding.map_toDatum_typeChecks] at hwrong
    rw [Binding.checkArguments_of_complete hcomplete,
      (Binding.typeVerdict_of_mismatch _ (by intro hnone; simp [hnone] at hwrong)).2.2, hwrong]
    exact List.mem_singleton_self _
  have hnames := ((literal_types enclosedNumber).1 _ htype rfl).mpr hjoins
  obtain ⟨value, hvalue, param, hparam, heq, -⟩ := (literal_types call).2 [countParam] shape (1, 0)
    [mismatch] hshape hdetails mismatch (List.mem_singleton_self _)
  obtain rfl : param = countParam := List.mem_singleton.mp hparam
  exact ⟨hparse, htype, rfl, hnames, hshape, hdetails, value, hvalue, heq⟩

/-- The tree of two literals of bytes in a row. -/
def joinedBytes : Tree :=
  .branch none .concatenatedString 1 [
    .branch none .string 1 [
      .token none .stringStart 1 [] ['b', '\''],
      .branch none .stringContent 1 [.token none .sign 1 [] ['a']],
      .token none .stringEnd 1 [] ['\'']],
    .branch none .string 1 [
      .token none .stringStart 1 [' '] ['b', '\''],
      .branch none .stringContent 1 [.token none .sign 1 [] ['b']],
      .token none .stringEnd 1 [] ['\'']]]

/-- Bytes in a row are tagged as text, so tags do not always name the type of the value, and a
mismatch is reported where such bytes are handed over for bytes. -/
theorem joined_bytes_tagged_as_text :
    Script.parse "f(b'a' b'b')\n".toList = .ok (scriptWith joinedBytes) ∧
      joinedBytes.HasType .bytes ∧ literalKind joinedBytes = .str ∧
      (¬∀ (tree : Tree) (type : ValueType), tree.HasType type → (literalKind tree).isKnown →
        (literalKind tree).valueType? = some type) ∧
      Binding.judgement? ("data", literalKind joinedBytes,
        ⟨"data", some "bytes", false, .positional⟩) = some false := by
  have htype : joinedBytes.HasType .bytes := by
    refine .joined rfl ⟨_, List.mem_cons_self, rfl⟩ ?_
    intro part hpart hstring
    simp only [joinedBytes, Tree.children, List.mem_cons, List.not_mem_nil, or_false] at hpart
    rcases hpart with rfl | rfl <;> exact .bytes rfl rfl (.inl List.mem_cons_self)
  refine ⟨by cbv, htype, rfl, ?_, by decide +kernel⟩
  intro hnames
  have hwrong := hnames joinedBytes .bytes htype rfl
  cases hwrong

end Extraction

end UsageAudit

import UsageAudit.Element
import UsageAudit.Text.Blank

/-!
# Declared types

The text of a declared type is read as a tree of unions and options over names, which may have
parameters in brackets. A name stands for the kinds of literals that it admits; of a type that is not
known nothing can be said. Every part of a text is shorter than the text, so that reading ends.
-/

namespace UsageAudit

/-- A declared type. -/
inductive TypeHint where
  | blank
  /-- A type by its name; parameters in brackets are left out. -/
  | named (base : List Char)
  /-- The option of nothing in particular. -/
  | bareOption
  | optionOf (inner : TypeHint)
  | unionOf (members : List TypeHint)

namespace TypeHint

/-- How much deeper in brackets the text behind the character stands. -/
def nesting (c : Char) : Int := if c = '[' then 1 else if c = ']' then -1 else 0

/-- The pieces of a text between separators that stand outside of brackets. -/
def segments (separator : Char) : Int → List Char → List (List Char)
  | _, [] => [[]]
  | depth, c :: rest =>
    if c = separator ∧ depth = 0 then [] :: segments separator 0 rest
    else
      match segments separator (depth + nesting c) rest with
      | [] => [[c]]
      | first :: more => (c :: first) :: more

/-- The pieces of a text and the separators between them make up the text. -/
theorem length_segments (separator : Char) (depth : Int) (text : List Char) :
    (segments separator depth text).flatten.length + (segments separator depth text).length =
      text.length + 1 := by
  induction text generalizing depth with
  | nil => simp [segments]
  | cons c rest ih =>
    by_cases h : c = separator ∧ depth = 0
    · have hrest := ih 0
      simp only [segments, if_pos h, List.flatten_cons, List.nil_append, List.length_cons]
      omega
    · simp only [segments, if_neg h]
      have hrest := ih (depth + nesting c)
      split <;> rename_i hpieces
      · simp [hpieces] at hrest
      · simp only [hpieces, List.flatten_cons, List.length_append, List.length_cons] at hrest ⊢
        omega

section Pieces

variable {pieces : List (List Char)} {total : Nat}
  (hpieces : pieces.flatten.length + pieces.length = total + 1)
include hpieces

/-- None of the pieces that make up a text with separators between them is longer than the text. -/
theorem length_le_of_pieces {piece : List Char} (hmem : piece ∈ pieces) : piece.length ≤ total := by
  obtain ⟨before, behind, rfl⟩ := List.append_of_mem hmem
  simp only [List.flatten_append, List.flatten_cons, List.length_append, List.length_cons]
    at hpieces
  omega

/-- One of several pieces that make up a text with separators between them is shorter than the
text. -/
theorem length_lt_of_pieces (hseveral : 1 < pieces.length) {piece : List Char}
    (hmem : piece ∈ pieces) : piece.length < total := by
  obtain ⟨before, behind, rfl⟩ := List.append_of_mem hmem
  simp only [List.flatten_append, List.flatten_cons, List.length_append, List.length_cons]
    at hpieces hseveral
  omega

/-- What is left of a piece without blanks around it is no longer than the text. -/
theorem length_le_of_mem_trimmed {part : List Char}
    (hmem : part ∈ (pieces.map Text.trimmed).filter fun part => !part.isEmpty) :
    part.length ≤ total := by
  simp only [List.mem_filter, List.mem_map] at hmem
  obtain ⟨⟨piece, hmem, rfl⟩, -⟩ := hmem
  exact Nat.le_trans (Text.length_trimmed_le piece) (length_le_of_pieces hpieces hmem)

/-- If something is left of several pieces, each is shorter than the text. -/
theorem length_lt_of_mem_trimmed
    (hseveral : 1 < ((pieces.map Text.trimmed).filter fun part => !part.isEmpty).length)
    {part : List Char} (hmem : part ∈ (pieces.map Text.trimmed).filter fun part => !part.isEmpty) :
    part.length < total := by
  have hparts : ((pieces.map Text.trimmed).filter fun part => !part.isEmpty).length ≤
      pieces.length := by
    simpa using List.length_filter_le (fun part => !part.isEmpty) (pieces.map Text.trimmed)
  simp only [List.mem_filter, List.mem_map] at hmem
  obtain ⟨⟨piece, hmem, rfl⟩, -⟩ := hmem
  exact Nat.lt_of_le_of_lt (Text.length_trimmed_le piece)
    (length_lt_of_pieces hpieces (by omega) hmem)

end Pieces

/-- The pieces of a text that hold more than white space. -/
def parts (separator : Char) (text : List Char) : List (List Char) :=
  ((segments separator 0 text).map Text.trimmed).filter fun part => !part.isEmpty

/-- No part of a text is longer than the text. -/
theorem length_le_of_mem_parts {separator : Char} {text part : List Char}
    (hmem : part ∈ parts separator text) : part.length ≤ text.length :=
  length_le_of_mem_trimmed (length_segments separator 0 text) hmem

/-- One of several parts of a text is shorter than the text. -/
theorem length_lt_of_mem_parts {separator : Char} {text part : List Char}
    (hseveral : 1 < (parts separator text).length) (hmem : part ∈ parts separator text) :
    part.length < text.length :=
  length_lt_of_mem_trimmed (length_segments separator 0 text) hseveral hmem

/-- A name with the text in the brackets behind it, if the text ends with a bracket. -/
def splitBrackets (text : List Char) : List Char × Option (List Char) :=
  match text.dropWhile fun c => c != '[' with
  | _ :: inner =>
    if text.getLast? = some ']' then
      (Text.trimmed (text.takeWhile fun c => c != '['), some inner.dropLast)
    else (text, none)
  | [] => (text, none)

/-- The text in brackets is shorter than the text. -/
theorem length_lt_of_splitBrackets {text inner : List Char}
    (h : (splitBrackets text).2 = some inner) : inner.length < text.length := by
  unfold splitBrackets at h
  split at h
  · rename_i c rest hrest
    have hsuffix := (List.dropWhile_suffix (fun c => c != '[') (l := text)).length_le
    rw [hrest, List.length_cons] at hsuffix
    split at h
    · simp only [Option.some.injEq] at h
      subst h
      simp only [List.length_dropLast]
      omega
    · simp at h
  · simp at h

/-- The text without quotation marks at its ends. -/
def unquoted (text : List Char) : List Char :=
  Text.stripped (fun c => c == '"' || c == '\'') text

/-- Packages whose types may be named with the package in front. -/
def packages : List (List Char) :=
  ["typing.".toList, "builtins.".toList, "collections.abc.".toList]

/-- A name without the package in front. -/
def withoutPackage (name : List Char) : List Char :=
  match packages.find? fun package => package.isPrefixOf name with
  | some package => name.drop package.length
  | none => name

/-- The outermost construct of a declared type, with the texts of its parts. -/
inductive Shape where
  | blank
  | named (base : List Char)
  | option (inner : Option (List Char))
  | union (members : List (List Char))

/-- The texts inside a construct. -/
def Shape.inside : Shape → List (List Char)
  | .blank | .named _ => []
  | .option inner => inner.toList
  | .union members => members

/-- Whether a name stands for a union. -/
def isUnionName (name : List Char) : Bool :=
  name == "Union".toList || name == "typing.Union".toList

/-- The outermost construct of a text without blanks and quotation marks around it. -/
def shapeOfStripped (text : List Char) : Shape :=
  if text.isEmpty then .blank
  else
    let (base, inner) := splitBrackets text
    -- The members of a union in brackets are cut at commas, and bars in them are left to these
    -- members.
    let alternatives :=
      if isUnionName base then inner.map (parts ',')
      else if 1 < (parts '|' text).length then some (parts '|' text)
      else none
    match alternatives with
    | some members => .union members
    | none =>
      let base := withoutPackage base
      if base = "Optional".toList then .option inner else .named base

/-- The outermost construct of a text. -/
def shapeOf (text : List Char) : Shape := shapeOfStripped (unquoted (Text.trimmed text))

/-- The texts inside a construct are shorter than its text. -/
theorem length_lt_of_mem_inside_stripped {text part : List Char}
    (hmem : part ∈ (shapeOfStripped text).inside) : part.length < text.length := by
  unfold shapeOfStripped at hmem
  split at hmem
  · simp [Shape.inside] at hmem
  · simp only at hmem
    split at hmem
    · rename_i members hmembers
      simp only [Shape.inside] at hmem
      split at hmembers
      · obtain ⟨inner, hinner, rfl⟩ := Option.map_eq_some_iff.mp hmembers
        exact Nat.lt_of_le_of_lt (length_le_of_mem_parts hmem)
          (length_lt_of_splitBrackets hinner)
      · split at hmembers
        · simp only [Option.some.injEq] at hmembers
          subst hmembers
          rename_i hseveral
          exact length_lt_of_mem_parts hseveral hmem
        · simp at hmembers
    · split at hmem
      · simp only [Shape.inside, Option.mem_toList] at hmem
        exact length_lt_of_splitBrackets hmem
      · simp [Shape.inside] at hmem

/-- Taking blanks and quotation marks off the ends of a text leaves no more than the text. -/
theorem length_unquoted_trimmed_le (text : List Char) :
    (unquoted (Text.trimmed text)).length ≤ text.length :=
  Nat.le_trans (Text.length_stripped_le _ (Text.trimmed text)) (Text.length_trimmed_le text)

/-- The texts inside a construct are shorter than its text with blanks and quotation marks. -/
theorem length_lt_of_mem_inside {text part : List Char} (hmem : part ∈ (shapeOf text).inside) :
    part.length < text.length :=
  Nat.lt_of_lt_of_le (length_lt_of_mem_inside_stripped hmem) (length_unquoted_trimmed_le text)

/-- Reads a declared type. -/
def ofText (text : List Char) : TypeHint :=
  match _shape : shapeOf text with
  | .blank => .blank
  | .named base => .named base
  | .option none => .bareOption
  | .option (some inner) => .optionOf (ofText inner)
  | .union members => .unionOf (members.attach.map fun member => ofText member.1)
termination_by text.length
decreasing_by
  · exact length_lt_of_mem_inside (by simp [_shape, Shape.inside])
  · exact length_lt_of_mem_inside (by simpa [_shape, Shape.inside] using member.2)

/-- The kinds of literals that a type of the given name admits, if the name is known. -/
def admitted? (base : String) : Option (List ArgKind) :=
  match base with
  | "Any" | "object" => some ArgKind.all
  | "str" => some [.str]
  | "bytes" => some [.bytes]
  | "int" => some [.int, .bool]
  | "float" => some [.float, .int, .bool]
  | "complex" => some [.complex, .float, .int, .bool]
  | "bool" => some [.bool]
  | "None" | "NoneType" => some [.none]
  | "list" | "List" => some [.list]
  | "dict" | "Dict" | "Mapping" | "MutableMapping" => some [.dict]
  | "tuple" | "Tuple" => some [.tuple]
  | "set" | "Set" | "frozenset" | "FrozenSet" | "AbstractSet" => some [.set]
  | "Sequence" => some [.list, .tuple, .str, .bytes]
  | "Iterable" | "Collection" => some [.list, .tuple, .set, .dict, .str, .bytes]
  | _ => none

/-- Whether one of several judgements is favourable; none if that depends on one not made. -/
def anyOf : List (Option Bool) → Option Bool
  | [] => some false
  | some true :: _ => some true
  | some false :: rest => anyOf rest
  | none :: rest => if anyOf rest = some true then some true else none

mutual

/-- Whether the type admits a literal of the given kind; none if that cannot be said. A parameter with
a default may always be given nothing. -/
def admits (kind : ArgKind) (hasDefault : Bool) : TypeHint → Option Bool
  | .blank => none
  | .named base =>
    if kind = .none ∧ hasDefault then some true
    else (admitted? (String.ofList base)).map fun kinds => kinds.contains kind
  | .bareOption => if kind = .none then some true else none
  | .optionOf inner => if kind = .none then some true else admits kind hasDefault inner
  | .unionOf members => anyOf (judgements kind hasDefault members)

/-- What each of several types says of a kind. -/
def judgements (kind : ArgKind) (hasDefault : Bool) : List TypeHint → List (Option Bool)
  | [] => []
  | member :: rest => admits kind hasDefault member :: judgements kind hasDefault rest

end

/-- Whether a declared type accepts an argument; none if that cannot be said, as for an argument whose
kind is not known. -/
def accepts (declared : String) (kind : ArgKind) (hasDefault : Bool) : Option Bool :=
  if kind.isKnown then admits kind hasDefault (ofText declared.toList) else none

end TypeHint

end UsageAudit

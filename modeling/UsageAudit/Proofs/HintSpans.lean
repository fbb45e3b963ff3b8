import UsageAudit.Proofs.HintTexts
import UsageAudit.Proofs.Spans
import Mathlib.Algebra.Group.Nat.Defs
import Mathlib.Data.List.TakeWhile

/-!
# Matching a declared type by stretches of its text

Matching an argument with a declared type can be done on stretches of the text alone, given by numbers
of bytes: the text is cut at its first and its last bracket, and at the separators outside of brackets,
and matching goes on with what was cut out. `DepthCount.matched?` does so and gives up where a stretch
does not lie in its text, or where matching would go on with a text that is not shorter. This file shows
that it never gives up and says what `accepts` says, whatever brackets, separators, quotation marks and
characters of several bytes the text is made of.
-/

namespace UsageAudit.TypeHint

open Text (Span size)

/-! ## Cutting at brackets -/

/-- The stretches of the name in front of the first bracket and of the text between this bracket and a
bracket at the end. -/
def bracketSpans (text : List Char) : Option (Span × Span) :=
  if '[' ∈ text ∧ text.getLast? = some ']' then
    let opening := size (text.takeWhile fun c => c != '[')
    some (⟨0, opening⟩, ⟨opening + 1, size text - 1⟩)
  else none

/-- A name with the text in the brackets behind it, both cut out of the text. -/
def splitBrackets? (text : List Char) : Option (List Char × Option (List Char)) :=
  match bracketSpans text with
  | some (base, inner) => do return (Text.trimmed (← base.cut? text), some (← inner.cut? text))
  | none => some (text, none)

/-- A text with an opening bracket that ends in a closing one is a name with brackets behind it. -/
theorem exists_bracketed {text : List Char} (hopening : '[' ∈ text)
    (hclosing : text.getLast? = some ']') :
    ∃ base inner, '[' ∉ base ∧ text = bracketed base inner := by
  obtain ⟨base, behind, rfl, hbase⟩ := List.eq_append_cons_of_mem hopening
  have hlast : ('[' :: behind).getLast? = some ']' := by
    rwa [List.getLast?_append_of_ne_nil _ (by simp)] at hclosing
  obtain ⟨front, hfront⟩ := List.getLast?_eq_some_iff.mp hlast
  cases front with
  | nil => simp at hfront
  | cons c inner =>
    obtain ⟨rfl, rfl⟩ := List.cons_eq_cons.mp hfront
    exact ⟨base, inner, hbase, rfl⟩

/-- The stretches at the brackets of a name with brackets behind it. -/
theorem bracketSpans_bracketed {base : List Char} (hbase : '[' ∉ base) (inner : List Char) :
    bracketSpans (bracketed base inner) =
      some (⟨0, size base⟩, ⟨size base + 1, size base + 1 + size inner⟩) := by
  have htaken : (bracketed base inner).takeWhile (fun c => c != '[') = base := by
    simpa using takeWhile_bracketed hbase inner []
  have hbrackets : '[' ∈ bracketed base inner ∧ (bracketed base inner).getLast? = some ']' := by
    simp [bracketed, List.getLast?_cons]
  have hsize : size (bracketed base inner) - 1 = size base + 1 + size inner := by
    have hopening : '['.utf8Size = 1 := rfl
    have hclosing : ']'.utf8Size = 1 := rfl
    simp only [bracketed, Text.size_append, Text.size_cons, Text.size_nil, hopening, hclosing]
    omega
  rw [bracketSpans, if_pos hbrackets, htaken, hsize]

/-- What stands before the brackets is cut out of the text. -/
theorem cut?_base (base inner : List Char) :
    Span.cut? ⟨0, size base⟩ (bracketed base inner) = some base := by
  have htext : bracketed base inner = [] ++ base ++ '[' :: (inner ++ [']']) := rfl
  simpa using Span.cut?_append htext

/-- What stands in the brackets is cut out of the text. -/
theorem cut?_inner (base inner : List Char) :
    Span.cut? ⟨size base + 1, size base + 1 + size inner⟩ (bracketed base inner) = some inner := by
  have htext : bracketed base inner = (base ++ ['[']) ++ inner ++ [']'] := by simp [bracketed]
  have hbefore : size (base ++ ['[']) = size base + 1 := by
    rw [Text.size_append]
    rfl
  simpa only [hbefore] using Span.cut?_append htext

/-- A text without an opening bracket, or without a closing one at its end, is not split. -/
theorem splitBrackets_of_not {text : List Char}
    (h : ¬('[' ∈ text ∧ text.getLast? = some ']')) : splitBrackets text = (text, none) := by
  by_cases hclosing : text.getLast? = some ']'
  · have hopening : '[' ∉ text := fun hmem => h ⟨hmem, hclosing⟩
    have hdropped : text.dropWhile (fun c => c != '[') = [] :=
      List.dropWhile_eq_nil_iff.mpr (all_before_bracket hopening)
    rw [splitBrackets, hdropped]
  · exact splitBrackets_of_getLast? hclosing

/-- The stretches at the brackets of a text lie in it. -/
theorem fits_of_bracketSpans {text : List Char} {base inner : Span}
    (h : bracketSpans text = some (base, inner)) : base.Fits text ∧ inner.Fits text := by
  by_cases hbrackets : '[' ∈ text ∧ text.getLast? = some ']'
  · obtain ⟨name, inside, hname, rfl⟩ := exists_bracketed hbrackets.1 hbrackets.2
    rw [bracketSpans_bracketed hname] at h
    obtain ⟨rfl, rfl⟩ := Prod.mk.inj (Option.some.inj h)
    exact ⟨Span.fits_of_cut? (cut?_base name inside), Span.fits_of_cut? (cut?_inner name inside)⟩
  · rw [bracketSpans, if_neg hbrackets] at h
    cases h

/-- Cutting at the brackets tells the name and what is in the brackets. -/
@[simp]
theorem splitBrackets?_eq (text : List Char) :
    splitBrackets? text = some (splitBrackets text) := by
  by_cases hbrackets : '[' ∈ text ∧ text.getLast? = some ']'
  · obtain ⟨base, inner, hbase, rfl⟩ := exists_bracketed hbrackets.1 hbrackets.2
    rw [splitBrackets?, bracketSpans_bracketed hbase, splitBrackets_eq_trimmed hbase]
    simp [cut?_base, cut?_inner]
  · have hnone : bracketSpans text = none := if_neg hbrackets
    rw [splitBrackets?, hnone, splitBrackets_of_not hbrackets]

/-! ## Cutting at separators -/

/-- Nothing in front of pieces leaves them as they are. -/
theorem onFirst_nil {pieces : List (List Char)} (h : pieces ≠ []) : onFirst [] pieces = pieces := by
  cases pieces with
  | nil => exact absurd rfl h
  | cons first rest => rfl

/-- With a text in front of pieces there is a piece. -/
theorem onFirst_ne_nil (text : List Char) (pieces : List (List Char)) :
    onFirst text pieces ≠ [] := by
  cases pieces <;> simp [onFirst]

/-- A text in front of pieces is added to what they make up. -/
theorem length_onFirst (text : List Char) {pieces : List (List Char)} (h : pieces ≠ []) :
    (onFirst text pieces).flatten.length + (onFirst text pieces).length =
      text.length + (pieces.flatten.length + pieces.length) := by
  cases pieces with
  | nil => exact absurd rfl h
  | cons first rest =>
    simp only [onFirst, List.flatten_cons, List.length_append, List.length_cons]
    omega

/-- If every member of a list has an outcome, they all have. -/
theorem mapM_eq_some_of_map {α β : Type} {step : α → Option β} {members : List α}
    {outcomes : List β} (h : members.map step = outcomes.map some) :
    members.mapM step = some outcomes := by
  induction members generalizing outcomes with
  | nil => simp_all
  | cons member rest ih =>
    cases outcomes with
    | nil => cases h
    | cons outcome others =>
      obtain ⟨hfirst, hrest⟩ := List.cons_eq_cons.mp h
      simp [List.mapM_cons, hfirst, ih hrest]

/-- A way to count how deep in brackets a place of a text is. It need not be a right one: what is shown
for any way to count holds also of a count that goes below zero or leaves its range. -/
structure DepthCount (Depth : Type) where
  outside : Depth
  isOutside : Depth → Bool
  deeper : Depth → Depth
  shallower : Depth → Depth

namespace DepthCount

/-- Counting in whole numbers. -/
def exact : DepthCount Int where
  outside := 0
  isOutside depth := depth == 0
  deeper depth := depth + 1
  shallower depth := depth - 1

/-- Counting in a word of 32 bits, which wraps around. -/
def word : DepthCount Int32 where
  outside := 0
  isOutside depth := depth == 0
  deeper depth := depth + 1
  shallower depth := depth - 1

variable {Depth : Type} (count : DepthCount Depth) (separator : Char)

/-- The depth behind a character. -/
def past (depth : Depth) (c : Char) : Depth :=
  if c = '[' then count.deeper depth else if c = ']' then count.shallower depth else depth

/-- Whether a text is cut at a character: it is a separator outside of brackets. -/
def cutsAt (depth : Depth) (c : Char) : Bool :=
  c != '[' && c != ']' && c == separator && count.isOutside depth

/-- The stretches between cuts of the rest of a text. The current one has its start behind the last
cut, and the rest begins at the given place. -/
def spansFrom : Depth → (start place : Nat) → List Char → List Span
  | _, start, place, [] => [⟨start, place⟩]
  | depth, start, place, c :: rest =>
    let behind := place + c.utf8Size
    if count.cutsAt separator depth c then
      ⟨start, place⟩ :: spansFrom depth behind behind rest
    else spansFrom (count.past depth c) start behind rest

/-- The stretches of a text between its separators outside of brackets. -/
def separatorSpans (text : List Char) : List Span :=
  count.spansFrom separator count.outside 0 0 text

/-- The parts of a text that hold more than white space, each cut out of the text. -/
def parts? (text : List Char) : Option (List (List Char)) := do
  let pieces ← (count.separatorSpans separator text).mapM fun span => span.cut? text
  return (pieces.map Text.trimmed).filter fun part => !part.isEmpty

/-- The pieces of the rest of a text between cuts. -/
def piecesFrom : Depth → List Char → List (List Char)
  | _, [] => [[]]
  | depth, c :: rest =>
    if count.cutsAt separator depth c then [] :: piecesFrom depth rest
    else onFirst [c] (piecesFrom (count.past depth c) rest)

/-- The pieces of a text that hold more than white space. -/
def partsOf (text : List Char) : List (List Char) :=
  ((count.piecesFrom separator count.outside text).map Text.trimmed).filter fun part =>
    !part.isEmpty

variable {count separator}

/-- There is always a piece. -/
theorem piecesFrom_ne_nil (depth : Depth) (text : List Char) :
    count.piecesFrom separator depth text ≠ [] := by
  cases text with
  | nil => simp [piecesFrom]
  | cons c rest =>
    rw [piecesFrom]
    split
    · simp
    · exact onFirst_ne_nil _ _

/-- The pieces are what is cut out at the stretches between cuts. Something was cut off before the
current piece, which stands right in front of the rest. -/
theorem map_cut?_spansFrom {text before piece rest : List Char} (depth : Depth)
    (htext : text = before ++ piece ++ rest) :
    (count.spansFrom separator depth (size before) (size before + size piece) rest).map
        (fun span => span.cut? text) =
      (onFirst piece (count.piecesFrom separator depth rest)).map some := by
  have hcut := Span.cut?_append htext
  induction rest generalizing before piece depth with
  | nil => simp [spansFrom, piecesFrom, onFirst, hcut]
  | cons c rest ih =>
    by_cases h : count.cutsAt separator depth c = true
    · have hnext : text = (before ++ piece ++ [c]) ++ [] ++ rest := by simp [htext]
      have hrest := ih depth hnext (Span.cut?_append hnext)
      have hplace : size (before ++ piece ++ [c]) = size before + size piece + c.utf8Size := by
        simp [Nat.add_assoc]
      rw [hplace, Text.size_nil, Nat.add_zero, onFirst_nil (piecesFrom_ne_nil _ _)] at hrest
      rw [spansFrom, if_pos h, piecesFrom, if_pos h, onFirst, List.append_nil, List.map_cons, hcut,
        hrest, List.map_cons]
    · have hnext : text = before ++ (piece ++ [c]) ++ rest := by simp [htext]
      have hrest := ih (count.past depth c) hnext (Span.cut?_append hnext)
      have hplace : size before + size (piece ++ [c]) = size before + size piece + c.utf8Size := by
        simp [Nat.add_assoc]
      rw [hplace] at hrest
      rw [spansFrom, if_neg h, piecesFrom, if_neg h, onFirst_onFirst, hrest]

/-- The pieces of a text are what is cut out at the stretches between its separators. -/
theorem map_cut?_separatorSpans (text : List Char) :
    (count.separatorSpans separator text).map (fun span => span.cut? text) =
      (count.piecesFrom separator count.outside text).map some := by
  have hwhole : text = [] ++ [] ++ text := rfl
  have hspans := @map_cut?_spansFrom _ count separator text [] [] text count.outside hwhole
  rwa [onFirst_nil (piecesFrom_ne_nil _ _)] at hspans

/-- The stretches between the separators of a text lie in it. -/
theorem fits_of_mem_separatorSpans {text : List Char} {span : Span}
    (h : span ∈ count.separatorSpans separator text) : span.Fits text := by
  have hcut : span.cut? text ∈ (count.piecesFrom separator count.outside text).map some := by
    rw [← map_cut?_separatorSpans]
    exact List.mem_map_of_mem h
  obtain ⟨piece, -, hpiece⟩ := List.mem_map.mp hcut
  exact Span.fits_of_cut? hpiece.symm

/-- Cutting at the separators tells the parts of a text. -/
@[simp]
theorem parts?_eq (text : List Char) :
    count.parts? separator text = some (count.partsOf separator text) := by
  rw [parts?, mapM_eq_some_of_map (map_cut?_separatorSpans text)]
  rfl

/-- The pieces of a text and the separators between them make up the text. -/
theorem length_piecesFrom (depth : Depth) (text : List Char) :
    (count.piecesFrom separator depth text).flatten.length +
      (count.piecesFrom separator depth text).length = text.length + 1 := by
  induction text generalizing depth with
  | nil => rfl
  | cons c rest ih =>
    rw [piecesFrom]
    split
    · have hrest := ih depth
      simp only [List.flatten_cons, List.nil_append, List.length_cons]
      omega
    · rw [length_onFirst _ (piecesFrom_ne_nil _ _), ih]
      simp only [List.length_cons, List.length_nil]
      omega

/-- No part of a text is longer than the text. -/
theorem length_le_of_mem_partsOf {text part : List Char}
    (h : part ∈ count.partsOf separator text) : part.length ≤ text.length :=
  length_le_of_mem_trimmed (length_piecesFrom ..) h

/-- One of several parts of a text is shorter than the text. -/
theorem length_lt_of_mem_partsOf {text part : List Char}
    (hseveral : 1 < (count.partsOf separator text).length)
    (h : part ∈ count.partsOf separator text) : part.length < text.length :=
  length_lt_of_mem_trimmed (length_piecesFrom ..) hseveral h

/-- No part of a text is empty. -/
theorem ne_nil_of_mem_partsOf {text part : List Char} (h : part ∈ count.partsOf separator text) :
    part ≠ [] := by
  simpa using (List.mem_filter.mp h).2

/-- Where depths are counted in whole numbers, each bracket changes the depth by one. -/
theorem past_exact (depth : Int) (c : Char) : exact.past depth c = depth + nesting c := by
  unfold past nesting
  split_ifs
  · rfl
  · rfl
  · exact (Int.add_zero depth).symm

section Exact

variable (hopening : separator ≠ '[') (hclosing : separator ≠ ']')
include hopening hclosing

/-- Where depths are counted in whole numbers, a separator at depth zero is a cut. -/
theorem cutsAt_exact_iff (depth : Int) (c : Char) :
    exact.cutsAt separator depth c = true ↔ c = separator ∧ depth = 0 := by
  simp only [cutsAt, exact, Bool.and_eq_true, bne_iff_ne, beq_iff_eq]
  constructor
  · rintro ⟨⟨-, hc⟩, hdepth⟩
    exact ⟨hc, hdepth⟩
  · rintro ⟨rfl, hdepth⟩
    exact ⟨⟨⟨hopening, hclosing⟩, rfl⟩, hdepth⟩

/-- Where depths are counted in whole numbers, the pieces are the segments of the text. -/
theorem piecesFrom_exact (depth : Int) (text : List Char) :
    exact.piecesFrom separator depth text = segments separator depth text := by
  induction text generalizing depth with
  | nil => rfl
  | cons c rest ih =>
    have hcut := cutsAt_exact_iff hopening hclosing depth c
    by_cases h : c = separator ∧ depth = 0
    · rw [piecesFrom, if_pos (hcut.mpr h), segments, if_pos h, h.2, ih]
    · rw [piecesFrom, if_neg (mt hcut.mp h), segments_cons h, past_exact, ih]

/-- Where depths are counted in whole numbers, the parts of a text are its parts. -/
theorem partsOf_exact (text : List Char) : exact.partsOf separator text = parts separator text :=
  congrArg (fun pieces => (pieces.map Text.trimmed).filter fun part => !part.isEmpty)
    (piecesFrom_exact hopening hclosing 0 text)

end Exact

section Word

/-- In a word a small depth is outside of brackets if it is zero. -/
theorem isOutside_word {depth : Int} (h : depth.natAbs < 2 ^ 31) :
    word.isOutside (Int32.ofInt depth) = exact.isOutside depth := by
  have hback : (Int32.ofInt depth).toInt = depth :=
    Int32.toInt_ofInt_of_le (by omega) (by omega)
  have hzero : Int32.ofInt depth = 0 ↔ depth = 0 := by
    rw [← Int32.toInt_inj, hback]
    rfl
  rw [Bool.eq_iff_iff]
  simpa [word, exact] using hzero

/-- In a word the depth changes at brackets as it does in whole numbers. -/
theorem past_word (depth : Int) (c : Char) :
    word.past (Int32.ofInt depth) c = Int32.ofInt (exact.past depth c) := by
  unfold past
  split_ifs
  · exact (Int32.ofInt_add depth 1).symm
  · exact (Int32.ofInt_sub depth 1).symm
  · rfl

/-- No character changes the depth by more than one. -/
theorem natAbs_past_exact_le (depth : Int) (c : Char) :
    (exact.past depth c).natAbs ≤ depth.natAbs + 1 := by
  rw [past_exact, nesting]
  split_ifs <;> omega

/-- Counting in a word cuts the rest of a text as counting in whole numbers does, if the depth cannot
leave the range of the word. -/
theorem piecesFrom_word {depth : Int} {text : List Char}
    (h : depth.natAbs + text.length < 2 ^ 31) :
    word.piecesFrom separator (Int32.ofInt depth) text = exact.piecesFrom separator depth text := by
  induction text generalizing depth with
  | nil => rfl
  | cons c rest ih =>
    rw [List.length_cons] at h
    have hcuts : word.cutsAt separator (Int32.ofInt depth) c = exact.cutsAt separator depth c := by
      rw [cutsAt, cutsAt, isOutside_word (by omega)]
    have hpast := natAbs_past_exact_le depth c
    rw [piecesFrom, piecesFrom, hcuts, past_word, ih (by omega), ih (by omega)]

/-- Counting in a word tells the parts of a text of less than 2 ^ 31 characters. -/
theorem partsOf_word {text : List Char} (h : text.length < 2 ^ 31) :
    word.partsOf separator text = exact.partsOf separator text := by
  have hpieces : word.piecesFrom separator (Int32.ofInt 0) text = exact.piecesFrom separator 0 text :=
    piecesFrom_word (by simpa using h)
  exact congrArg (fun pieces => (pieces.map Text.trimmed).filter fun part => !part.isEmpty) hpieces

end Word

end DepthCount

/-! ## Judging by the outermost construct -/

/-- Asks one member of a union after the other until one is favourable. Without one nothing can be
said if that depends on a judgement that was not made, which is the case from the start if
`undecided`. -/
def anyMember? (ask : List Char → Option (Option Bool)) (undecided : Bool) :
    List (List Char) → Option (Option Bool)
  | [] => some (if undecided then none else some false)
  | member :: rest => do
    match ← ask member with
    | some true => return some true
    | some false => anyMember? ask undecided rest
    | none => anyMember? ask true rest

/-- What an outermost construct says of a kind, if it is known whom to ask about the texts inside. -/
def judge? (kind : ArgKind) (hasDefault : Bool) (ask : List Char → Option (Option Bool)) :
    Shape → Option (Option Bool)
  | .blank => some (admits kind hasDefault .blank)
  | .named base => some (admits kind hasDefault (.named base))
  | .option none => some (admits kind hasDefault .bareOption)
  | .option (some inner) => if kind = .none then some (some true) else ask inner
  | .union members => anyMember? ask false members

/-- Asking the members of a union one after the other comes to what all of their answers say, and an
undecided start counts as a member of which nothing can be said. -/
theorem anyMember?_eq {ask : List Char → Option (Option Bool)} {answer : List Char → Option Bool}
    {members : List (List Char)} (h : ∀ member ∈ members, ask member = some (answer member))
    (undecided : Bool) :
    anyMember? ask undecided members =
      some (anyOf (if undecided then none :: members.map answer else members.map answer)) := by
  induction members generalizing undecided with
  | nil => cases undecided <;> rfl
  | cons member rest ih =>
    have hrest := ih fun other hother => h other (List.mem_cons_of_mem member hother)
    rw [anyMember?, h member List.mem_cons_self, List.map_cons]
    rcases answer member with _ | _ | _
    · cases undecided <;> simp [hrest, anyOf]
    · cases undecided
      · exact hrest false
      · exact hrest true
    · cases undecided <;> simp [anyOf]

section Judge

variable {kind : ArgKind} {hasDefault : Bool} {ask : List Char → Option (Option Bool)}

/-- A construct is judged if there is an answer about each of the texts inside. -/
theorem exists_judge? {shape : Shape}
    (h : ∀ part ∈ shape.inside, ∃ answer, ask part = some answer) :
    ∃ judgement, judge? kind hasDefault ask shape = some judgement := by
  rcases shape with _ | base | (_ | inner) | members
  · exact ⟨_, rfl⟩
  · exact ⟨_, rfl⟩
  · exact ⟨_, rfl⟩
  · rw [judge?]
    split
    · exact ⟨_, rfl⟩
    · exact h inner (by simp [Shape.inside])
  · have hanswers : ∀ member ∈ members, ask member = some ((ask member).getD none) := by
      intro member hmember
      obtain ⟨answer, hanswer⟩ := h member hmember
      rw [hanswer, Option.getD_some]
    exact ⟨_, anyMember?_eq hanswers false⟩

/-- The construct that a text shows is judged as the type that is read from the text, if the texts
inside are. -/
theorem judge?_shapeOf {text : List Char}
    (h : ∀ part ∈ (shapeOf text).inside, ask part = some (admits kind hasDefault (ofText part))) :
    judge? kind hasDefault ask (shapeOf text) = some (admits kind hasDefault (ofText text)) := by
  rcases hshape : shapeOf text with _ | base | (_ | inner) | members <;> rw [hshape] at h
  · rw [ofText_of_blank hshape, judge?]
  · rw [ofText_of_named hshape, judge?]
  · rw [ofText_of_bareOption hshape, judge?]
  · rw [ofText_of_option hshape, judge?, admits, h inner (by simp [Shape.inside])]
    split <;> rfl
  · have hmembers : ∀ member ∈ members,
        ask member = some (admits kind hasDefault (ofText member)) := h
    rw [ofText_of_union hshape, judge?, anyMember?_eq hmembers, admits, judgements_eq_map,
      List.map_map]
    rfl

end Judge

/-! ## Matching -/

namespace DepthCount

variable {Depth : Type} (count : DepthCount Depth)

/-- The members of a union that is written in one of two ways, cut out of the text. -/
def unionMembers? (text : List Char) : Option (Option (List (List Char))) := do
  let (base, inner) ← splitBrackets? text
  if isUnionName base then
    match inner with
    | some inner => return some (← count.parts? ',' inner)
    | none => return none
  else
    let members ← count.parts? '|' text
    return if 1 < members.length then some members else none

/-- The outermost construct of a text, with the texts of its parts cut out of it. -/
def shapeOf? (text : List Char) : Option Shape := do
  let text := unquoted (Text.trimmed text)
  if text.isEmpty then return .blank
  match ← count.unionMembers? text with
  | some members => return .union members
  | none =>
    let (base, inner) ← splitBrackets? text
    let base := withoutPackage base
    return if base = "Optional".toList then .option inner else .named base

/-- What a declared type says of a kind, matched by stretches of its text: none if a stretch does not
lie in the text that it is cut out of, or if a text is not shorter than its limit. The limit of what is
cut out of a text is the length of the text. -/
def matched? (kind : ArgKind) (hasDefault : Bool) (limit : Nat) (text : List Char) :
    Option (Option Bool) :=
  if _shorter : text.length < limit then
    if kind.isKnown then do
      let shape ← count.shapeOf? text
      judge? kind hasDefault (fun part => matched? kind hasDefault text.length part) shape
    else some none
  else none
termination_by limit

/-- The members of a union are told from the name and from the parts of the text. -/
theorem unionMembers?_eq (text : List Char) :
    count.unionMembers? text =
      some (if isUnionName (splitBrackets text).1 = true then
        (splitBrackets text).2.map (count.partsOf ',')
      else if 1 < (count.partsOf '|' text).length then some (count.partsOf '|' text) else none) := by
  rcases hsplit : splitBrackets text with ⟨base, _ | inner⟩ <;>
    by_cases hunion : isUnionName base = true <;> simp [unionMembers?, hsplit, hunion]

variable {count}

/-- The members of a union are shorter than its text: the brackets around them are gone, or there are
several. -/
theorem length_lt_of_mem_unionMembers? {text member : List Char} {members : List (List Char)}
    (h : count.unionMembers? text = some (some members)) (hmember : member ∈ members) :
    member.length < text.length := by
  rw [unionMembers?_eq, Option.some_inj] at h
  split at h
  · obtain ⟨inner, hinner, rfl⟩ := Option.map_eq_some_iff.mp h
    exact Nat.lt_of_le_of_lt (length_le_of_mem_partsOf hmember)
      (length_lt_of_splitBrackets hinner)
  · split at h
    · rename_i hseveral
      obtain rfl := Option.some.inj h
      exact length_lt_of_mem_partsOf hseveral hmember
    · cases h

section Shape

variable {text : List Char}

/-- A text with nothing in it shows nothing. -/
theorem shapeOf?_of_isEmpty (h : (unquoted (Text.trimmed text)).isEmpty = true) :
    count.shapeOf? text = some .blank := by
  simp only [shapeOf?, if_pos h]
  rfl

variable (hne : ¬(unquoted (Text.trimmed text)).isEmpty = true)
include hne

/-- A text that has the members of a union shows the union. -/
theorem shapeOf?_of_union {members : List (List Char)}
    (h : count.unionMembers? (unquoted (Text.trimmed text)) = some (some members)) :
    count.shapeOf? text = some (.union members) := by
  simp only [shapeOf?, if_neg hne, h, Option.bind_eq_bind, Option.bind_some, Option.pure_def]

/-- A text without the members of a union shows an option or a name. -/
theorem shapeOf?_of_name {base : List Char} {inner : Option (List Char)}
    (h : count.unionMembers? (unquoted (Text.trimmed text)) = some none)
    (hsplit : splitBrackets (unquoted (Text.trimmed text)) = (base, inner)) :
    count.shapeOf? text =
      some (if withoutPackage base = "Optional".toList then .option inner
      else .named (withoutPackage base)) := by
  simp only [shapeOf?, if_neg hne, h, splitBrackets?_eq, hsplit, Option.bind_eq_bind,
    Option.bind_some, Option.pure_def]

end Shape

variable (count) in
/-- The outermost construct of a text is always found, and the texts inside it are shorter. -/
theorem exists_shapeOf? (text : List Char) :
    ∃ shape, count.shapeOf? text = some shape ∧
      ∀ part ∈ shape.inside, part.length < text.length := by
  have hlength := length_unquoted_trimmed_le text
  by_cases hempty : (unquoted (Text.trimmed text)).isEmpty = true
  · exact ⟨.blank, shapeOf?_of_isEmpty hempty, by simp [Shape.inside]⟩
  rcases hfound : count.unionMembers? (unquoted (Text.trimmed text)) with _ | _ | members
  · rw [unionMembers?_eq] at hfound
    cases hfound
  · rcases hsplit : splitBrackets (unquoted (Text.trimmed text)) with ⟨base, inner⟩
    refine ⟨_, shapeOf?_of_name hempty hfound hsplit, ?_⟩
    intro part hpart
    split at hpart
    · have hinner : (splitBrackets (unquoted (Text.trimmed text))).2 = some part := by
        rw [hsplit]
        exact Option.mem_toList.mp hpart
      exact Nat.lt_of_lt_of_le (length_lt_of_splitBrackets hinner) hlength
    · cases hpart
  · refine ⟨.union members, shapeOf?_of_union hempty hfound, ?_⟩
    intro member hmember
    exact Nat.lt_of_lt_of_le (length_lt_of_mem_unionMembers? hfound hmember) hlength

/-- The construct that is found is the one that the text shows, if the parts of the text and of what is
in its brackets are right. -/
theorem shapeOf?_eq {text : List Char}
    (h : ∀ part : List Char, part.length ≤ text.length →
      count.partsOf ',' part = parts ',' part ∧ count.partsOf '|' part = parts '|' part) :
    count.shapeOf? text = some (shapeOf text) := by
  have hlength := length_unquoted_trimmed_le text
  by_cases hempty : (unquoted (Text.trimmed text)).isEmpty = true
  · rw [shapeOf?_of_isEmpty hempty, shapeOf, shapeOfStripped, if_pos hempty]
  have hmembers := unionMembers?_eq count (unquoted (Text.trimmed text))
  rcases hsplit : splitBrackets (unquoted (Text.trimmed text)) with ⟨base, inner⟩
  have hcommas : inner.map (count.partsOf ',') = inner.map (parts ',') := by
    refine Option.map_congr ?_
    intro inside hinside
    have hshorter : inside.length < (unquoted (Text.trimmed text)).length :=
      length_lt_of_splitBrackets (by rw [hsplit, hinside])
    exact (h inside (by omega)).1
  rw [(h _ hlength).2, hsplit, hcommas] at hmembers
  simp only [shapeOf, shapeOfStripped, if_neg hempty, hsplit]
  split
  · rename_i members hsome
    rw [hsome] at hmembers
    exact shapeOf?_of_union hempty hmembers
  · rename_i hnone
    rw [hnone] at hmembers
    exact shapeOf?_of_name hempty hmembers hsplit

/-- Counting in whole numbers shows the outermost construct of every text. -/
theorem shapeOf?_exact (text : List Char) : exact.shapeOf? text = some (shapeOf text) :=
  shapeOf?_eq fun part _ =>
    ⟨partsOf_exact (by decide) (by decide) part, partsOf_exact (by decide) (by decide) part⟩

/-- Counting in a word shows the outermost construct of a text of less than 2 ^ 31 characters. -/
theorem shapeOf?_word {text : List Char} (h : text.length < 2 ^ 31) :
    word.shapeOf? text = some (shapeOf text) := by
  refine shapeOf?_eq ?_
  intro part hpart
  rw [partsOf_word (by omega), partsOf_word (by omega)]
  exact ⟨partsOf_exact (by decide) (by decide) part, partsOf_exact (by decide) (by decide) part⟩

section Matched

variable {kind : ArgKind} {hasDefault : Bool} {limit : Nat} {text : List Char}

/-- Of an argument whose kind is not known nothing is said. -/
theorem matched?_of_not_isKnown (h : text.length < limit) (hknown : ¬kind.isKnown = true) :
    count.matched? kind hasDefault limit text = some none := by
  rw [matched?, dif_pos h, if_neg hknown]

/-- Matching goes by the outermost construct of a text that is shorter than the limit. -/
theorem matched?_of_shapeOf? (h : text.length < limit) (hknown : kind.isKnown = true)
    {shape : Shape} (hshape : count.shapeOf? text = some shape) :
    count.matched? kind hasDefault limit text =
      judge? kind hasDefault (fun part => count.matched? kind hasDefault text.length part) shape := by
  rw [matched?, dif_pos h, if_pos hknown, hshape]
  rfl

/-- Matching never gives up, however depths are counted. -/
theorem exists_matched? (h : text.length < limit) :
    ∃ answer, count.matched? kind hasDefault limit text = some answer := by
  induction limit using Nat.strong_induction_on generalizing text with
  | _ limit ih =>
    by_cases hknown : kind.isKnown = true
    · obtain ⟨shape, hshape, hinside⟩ := exists_shapeOf? count text
      rw [matched?_of_shapeOf? h hknown hshape]
      exact exists_judge? fun part hpart => ih text.length h (hinside part hpart)
    · exact ⟨none, matched?_of_not_isKnown h hknown⟩

/-- Matching says what is said of the type that is read from the text, if the outermost constructs of
the text and of all texts that are not longer are found. -/
theorem matched?_eq_admits (h : text.length < limit) (hknown : kind.isKnown = true)
    (hshapes : ∀ part : List Char, part.length ≤ text.length →
      count.shapeOf? part = some (shapeOf part)) :
    count.matched? kind hasDefault limit text = some (admits kind hasDefault (ofText text)) := by
  induction limit using Nat.strong_induction_on generalizing text with
  | _ limit ih =>
    rw [matched?_of_shapeOf? h hknown (hshapes text (Nat.le_refl _))]
    refine judge?_shapeOf ?_
    intro part hpart
    have hshorter := length_lt_of_mem_inside hpart
    exact ih text.length h hshorter fun other hother => hshapes other (by omega)

/-- Matching says whether the declared type accepts the argument, if the outermost constructs of its
text and of all texts that are not longer are found. -/
theorem matched?_eq_accepts {declared : String} (h : declared.toList.length < limit)
    (hshapes : ∀ part : List Char, part.length ≤ declared.toList.length →
      count.shapeOf? part = some (shapeOf part)) :
    count.matched? kind hasDefault limit declared.toList =
      some (accepts declared kind hasDefault) := by
  by_cases hknown : kind.isKnown = true
  · rw [matched?_eq_admits h hknown hshapes, accepts, if_pos hknown]
  · rw [matched?_of_not_isKnown h hknown, accepts, if_neg hknown]

end Matched

/-- Whether a text is taken apart within its bounds: everything is cut out at stretches that lie in the
text, no part is empty, and the texts inside the outermost construct are shorter than the text. -/
structure TakesApart (count : DepthCount Depth) (text : List Char) : Prop where
  brackets : ∀ base inner, bracketSpans text = some (base, inner) →
    base.Fits text ∧ inner.Fits text
  separators : ∀ separator, ∀ span ∈ count.separatorSpans separator text, span.Fits text
  parts : ∀ separator, ∃ parts, count.parts? separator text = some parts ∧ [] ∉ parts
  inside : ∃ shape, count.shapeOf? text = some shape ∧
    ∀ part ∈ shape.inside, part.length < text.length

/-- Every text is taken apart within its bounds, however depths are counted. -/
theorem takesApart (count : DepthCount Depth) (text : List Char) : count.TakesApart text where
  brackets _ _ := fits_of_bracketSpans
  separators _ _ := fits_of_mem_separatorSpans
  parts _ := ⟨_, parts?_eq text, fun hempty => ne_nil_of_mem_partsOf hempty rfl⟩
  inside := exists_shapeOf? count text

end DepthCount

/-- Matching an argument with a declared type ends and stays within the bounds of the text, whatever
the text is made of and however the depth in brackets is counted: the text is taken apart within its
bounds, and going on with shorter and shorter texts comes to an answer. Where the depth is counted in
whole numbers, or in a word and the text has less than 2 ^ 31 characters, the answer is whether the
declared type accepts the argument. -/
theorem accepts_within_bounds {Depth : Type} (count : DepthCount Depth) (declared : String)
    (kind : ArgKind) (hasDefault : Bool) :
    count.TakesApart declared.toList ∧
      (∃ answer, count.matched? kind hasDefault (declared.length + 1) declared.toList =
        some answer) ∧
      DepthCount.exact.matched? kind hasDefault (declared.length + 1) declared.toList =
        some (accepts declared kind hasDefault) ∧
      (declared.length < 2 ^ 31 →
        DepthCount.word.matched? kind hasDefault (declared.length + 1) declared.toList =
          some (accepts declared kind hasDefault)) := by
  have hlimit : declared.toList.length < declared.length + 1 := Nat.lt_succ_self _
  refine ⟨count.takesApart declared.toList, DepthCount.exists_matched? hlimit, ?_, ?_⟩
  · exact DepthCount.matched?_eq_accepts hlimit fun part _ => DepthCount.shapeOf?_exact part
  · intro hshort
    have hlength : declared.toList.length < 2 ^ 31 := hshort
    exact DepthCount.matched?_eq_accepts hlimit fun part hpart =>
      DepthCount.shapeOf?_word (by omega)

/-- An option whose text has brackets in the wrong order, a bar between them and a character of
several bytes is matched within its bounds. -/
theorem accepts_within_bounds_crossed :
    "Optional[]ß[|int]".length < 2 ^ 31 ∧
      bracketSpans "Optional[]ß[|int]".toList = some (⟨0, 8⟩, ⟨9, 17⟩) ∧
      DepthCount.word.separatorSpans '|' "]ß[|int".toList = [⟨0, 4⟩, ⟨5, 8⟩] ∧
      accepts "Optional[]ß[|int]" .int false = some true ∧
      DepthCount.word.matched? .int false ("Optional[]ß[|int]".length + 1)
        "Optional[]ß[|int]".toList = some (some true) := by
  have hshort : "Optional[]ß[|int]".length < 2 ^ 31 := by decide
  have haccepts : accepts "Optional[]ß[|int]" .int false = some true := by decide +kernel
  obtain ⟨-, -, -, hmatched⟩ :=
    accepts_within_bounds DepthCount.word "Optional[]ß[|int]" .int false
  refine ⟨hshort, by decide +kernel, by decide +kernel, haccepts, ?_⟩
  rw [hmatched hshort, haccepts]

end UsageAudit.TypeHint

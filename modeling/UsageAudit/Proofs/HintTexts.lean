import UsageAudit.TypeHint
import Mathlib.Data.List.Basic

/-!
# Taking the text of a declared type apart

A declared type is not parsed: its text is cut at separators outside of brackets, and at its first
and its last bracket. This file tells for which texts that gives back what they were put together
from.
-/

namespace UsageAudit

/-- What stands between characters that do not pass a test is left when those that do are taken off
the ends. -/
theorem Text.stripped_append {test : Char → Bool} {before text behind : List Char}
    (hbefore : ∀ c ∈ before, test c = true) (hbehind : ∀ c ∈ behind, test c = true)
    (hfirst : ∃ c rest, text = c :: rest ∧ test c = false)
    (hlast : ∃ front c, text = front ++ [c] ∧ test c = false) :
    stripped test (before ++ text ++ behind) = text := by
  have hdropped : (before ++ text ++ behind).dropWhile test = text ++ behind := by
    obtain ⟨c, rest, rfl, hc⟩ := hfirst
    rw [List.append_assoc, List.dropWhile_append_of_pos hbefore, List.cons_append,
      List.dropWhile_cons_of_neg (by simp [hc])]
  have hbehind' : ∀ c ∈ behind.reverse, test c = true := by simpa using hbehind
  rw [stripped, hdropped, List.reverse_append, List.dropWhile_append_of_pos hbehind']
  obtain ⟨front, c, rfl, hc⟩ := hlast
  rw [List.reverse_append, List.reverse_singleton, List.singleton_append,
    List.dropWhile_cons_of_neg (by simp [hc])]
  simp

/-- A character that does not pass a test is not taken off. -/
theorem Text.mem_stripped {test : Char → Bool} {c : Char} {text : List Char} (h : c ∈ text)
    (hc : test c = false) : c ∈ stripped test text := by
  have hkept {text : List Char} (hmem : c ∈ text) : c ∈ text.dropWhile test := by
    rw [← @List.takeWhile_append_dropWhile _ test text, List.mem_append] at hmem
    rcases hmem with hmem | hmem
    · rw [List.all_eq_true.mp List.all_takeWhile c hmem] at hc
      cases hc
    · exact hmem
  rw [stripped, List.mem_reverse]
  exact hkept (List.mem_reverse.mpr (hkept h))

/-- Texts with something between them end like the last of them. -/
theorem Text.getLast?_intercalate (glue : List Char) {texts : List (List Char)} {text : List Char}
    (h : texts.getLast? = some text) (hne : text ≠ []) :
    (glue.intercalate texts).getLast? = text.getLast? := by
  induction texts with
  | nil => cases h
  | cons first rest ih =>
    cases rest with
    | nil =>
      obtain rfl : first = text := by simpa using h
      rw [List.intercalate_singleton]
    | cons second more =>
      have hrest := ih (by simpa using h)
      have hother : glue.intercalate (second :: more) ≠ [] := by
        intro hnil
        rw [hnil] at hrest
        exact hne (List.getLast?_eq_none_iff.mp hrest.symm)
      rw [List.intercalate_cons_cons, List.getLast?_append_of_ne_nil _ hother, hrest]

namespace TypeHint

/-- Whether the character is a quotation mark. -/
def isQuote (c : Char) : Bool := c == '"' || c == '\''

/-- Whether the character is taken off the ends of a text. -/
def isLoose (c : Char) : Bool := Text.isBlank c || isQuote c

/-- Whether a text has something in it and nothing is taken off its ends. -/
structure Tight (text : List Char) : Prop where
  first : ∃ c rest, text = c :: rest ∧ isLoose c = false
  last : ∃ front c, text = front ++ [c] ∧ isLoose c = false

namespace Tight

variable {text other : List Char}

/-- A tight text is not empty. -/
theorem ne_nil (h : Tight text) : text ≠ [] := by
  obtain ⟨c, rest, rfl, -⟩ := h.first
  exact List.cons_ne_nil c rest

/-- Whatever stands between tight texts, the whole is tight. -/
theorem append (h : Tight text) (middle : List Char) (hother : Tight other) :
    Tight (text ++ middle ++ other) := by
  obtain ⟨c, rest, rfl, hc⟩ := h.first
  obtain ⟨front, d, rfl, hd⟩ := hother.last
  exact ⟨⟨c, _, rfl, hc⟩, ⟨_, d, (List.append_assoc ..).symm, hd⟩⟩

/-- Tight texts with something between them. -/
theorem intercalate (glue : List Char) {texts : List (List Char)} (hne : texts ≠ [])
    (h : ∀ text ∈ texts, Tight text) : Tight (glue.intercalate texts) := by
  induction texts with
  | nil => exact absurd rfl hne
  | cons text rest ih =>
    have hfirst := h text List.mem_cons_self
    cases rest with
    | nil => simpa using hfirst
    | cons second more =>
      rw [List.intercalate_cons_cons]
      have hrest := ih (List.cons_ne_nil second more) fun other hother =>
        h other (List.mem_cons_of_mem text hother)
      exact hfirst.append glue hrest

/-- Blanks around a tight text are taken off again. -/
theorem trimmed_append (h : Tight text) {before behind : List Char}
    (hbefore : ∀ c ∈ before, Text.isBlank c = true)
    (hbehind : ∀ c ∈ behind, Text.isBlank c = true) :
    Text.trimmed (before ++ text ++ behind) = text := by
  have hblank {c : Char} (hc : isLoose c = false) : Text.isBlank c = false := by
    simp_all [isLoose]
  obtain ⟨c, rest, hfirst, hc⟩ := h.first
  obtain ⟨front, d, hlast, hd⟩ := h.last
  exact Text.stripped_append hbefore hbehind ⟨c, rest, hfirst, hblank hc⟩
    ⟨front, d, hlast, hblank hd⟩

/-- Nothing is taken off a tight text. -/
@[simp]
theorem trimmed (h : Tight text) : Text.trimmed text = text := by
  simpa using h.trimmed_append (List.forall_mem_nil _) (List.forall_mem_nil _)

/-- A tight text has no quotation marks to be taken off. -/
@[simp]
theorem unquoted (h : Tight text) : TypeHint.unquoted text = text := by
  have hunquoted {c : Char} (hc : isLoose c = false) : isQuote c = false := by
    simp_all [isLoose]
  obtain ⟨c, rest, hfirst, hc⟩ := h.first
  obtain ⟨front, d, hlast, hd⟩ := h.last
  have hstripped : Text.stripped isQuote ([] ++ text ++ []) = text :=
    Text.stripped_append (List.forall_mem_nil _) (List.forall_mem_nil _)
    ⟨c, rest, hfirst, hunquoted hc⟩ ⟨front, d, hlast, hunquoted hd⟩
  rwa [List.append_nil, List.nil_append] at hstripped

end Tight

/-- Pieces with a text in front of the first of them. -/
def onFirst (text : List Char) : List (List Char) → List (List Char)
  | [] => [text]
  | first :: rest => (text ++ first) :: rest

/-- Texts are put in front of pieces one after the other. -/
theorem onFirst_onFirst (text other : List Char) (pieces : List (List Char)) :
    onFirst text (onFirst other pieces) = onFirst (text ++ other) pieces := by
  cases pieces <;> simp [onFirst]

/-- There is always a piece. -/
theorem segments_ne_nil (separator : Char) (depth : Int) (text : List Char) :
    segments separator depth text ≠ [] := by
  intro h
  have hlength := length_segments separator depth text
  simp [h] at hlength

/-- A character that is no cut belongs to the first piece. -/
theorem segments_cons {separator : Char} {depth : Int} {c : Char}
    (h : ¬(c = separator ∧ depth = 0)) (rest : List Char) :
    segments separator depth (c :: rest) =
      onFirst [c] (segments separator (depth + nesting c) rest) := by
  rw [segments, if_neg h]
  cases segments separator (depth + nesting c) rest <;> rfl

/-- Whether a text that stands so deep in brackets is not cut, and what comes behind it stands as
deep again. -/
def Passes (separator : Char) (depth : Int) (text : List Char) : Prop :=
  ∀ rest, segments separator depth (text ++ rest) = onFirst text (segments separator depth rest)

namespace Passes

variable {separator : Char} {depth : Int} {text other : List Char}

/-- Where there is no text there is nothing to cut. -/
theorem nil : Passes separator depth [] := by
  intro rest
  cases h : segments separator depth rest with
  | nil => exact absurd h (segments_ne_nil separator depth rest)
  | cons first more => simpa [onFirst] using h

/-- One text after the other. -/
theorem append (h : Passes separator depth text) (hother : Passes separator depth other) :
    Passes separator depth (text ++ other) := by
  intro rest
  rw [List.append_assoc, h, hother, onFirst_onFirst]

/-- A character that is no bracket and no cut. -/
theorem cons {c : Char} (hnesting : nesting c = 0) (hcut : ¬(c = separator ∧ depth = 0))
    (h : Passes separator depth text) : Passes separator depth (c :: text) := by
  intro rest
  rw [List.cons_append, segments_cons hcut, hnesting, Int.add_zero, h, onFirst_onFirst]
  rfl

/-- A text without brackets and separators. -/
theorem of_forall (h : ∀ c ∈ text, nesting c = 0 ∧ c ≠ separator) :
    Passes separator depth text := by
  induction text with
  | nil => exact nil
  | cons c text ih =>
    obtain ⟨hnesting, hne⟩ := h c List.mem_cons_self
    exact cons hnesting (fun hcut => hne hcut.1) (ih fun d hd => h d (List.mem_cons_of_mem c hd))

/-- A text in brackets stands one step deeper. -/
theorem brackets (hopening : separator ≠ '[') (hclosing : separator ≠ ']')
    (h : Passes separator (depth + 1) text) :
    Passes separator depth ('[' :: (text ++ [']'])) := by
  intro rest
  have hback : depth + 1 + nesting ']' = depth := by
    rw [show nesting ']' = -1 from rfl]
    omega
  rw [List.cons_append, segments_cons (fun hcut => hopening hcut.1.symm), List.append_assoc,
    show nesting '[' = 1 from rfl, h, List.singleton_append,
    segments_cons (fun hcut => hclosing hcut.1.symm), hback]
  simp [onFirst_onFirst]

/-- Texts that are not cut, and something between them that is not cut either. -/
theorem intercalate {glue : List Char} (hglue : Passes separator depth glue)
    {texts : List (List Char)} (h : ∀ text ∈ texts, Passes separator depth text) :
    Passes separator depth (glue.intercalate texts) := by
  induction texts with
  | nil => exact nil
  | cons text rest ih =>
    have hrest := ih fun other hother => h other (List.mem_cons_of_mem text hother)
    have hfirst := h text List.mem_cons_self
    cases rest with
    | nil => simpa using hfirst
    | cons second more =>
      rw [List.intercalate_cons_cons]
      exact (hfirst.append hglue).append hrest

end Passes

/-- Texts that are not cut and have nothing to be taken off are the parts of what is made of them by
putting separators with blanks around them in between. -/
theorem parts_intercalate {separator : Char} {before behind : List Char}
    (hbefore : ∀ c ∈ before, Text.isBlank c = true) (hbehind : ∀ c ∈ behind, Text.isBlank c = true)
    (hpass : Passes separator 0 before) (hpass' : Passes separator 0 behind)
    {texts : List (List Char)} (hne : texts ≠ [])
    (htexts : ∀ text ∈ texts, Passes separator 0 text ∧ Tight text) :
    parts separator ((before ++ separator :: behind).intercalate texts) = texts := by
  suffices hparts : ∀ blanks : List Char, (∀ c ∈ blanks, Text.isBlank c = true) →
      Passes separator 0 blanks →
      parts separator (blanks ++ (before ++ separator :: behind).intercalate texts) = texts from
    hparts [] (by simp) .nil
  induction texts with
  | nil => exact absurd rfl hne
  | cons text rest ih =>
    intro blanks hblanks hpassed
    obtain ⟨htext, htight⟩ := htexts text List.mem_cons_self
    cases rest with
    | nil =>
      have hwhole := (hpassed.append htext) []
      rw [List.append_nil] at hwhole
      have htrimmed := htight.trimmed_append hblanks (List.forall_mem_nil _)
      rw [List.append_nil] at htrimmed
      simp [parts, hwhole, segments, onFirst, htrimmed, htight.ne_nil]
    | cons second more =>
      have hmore := ih (List.cons_ne_nil second more)
        (fun other hother => htexts other (List.mem_cons_of_mem text hother)) behind hbehind hpass'
      have hcut : segments separator 0 (blanks ++ (before ++ separator :: behind).intercalate
          (text :: second :: more)) = (blanks ++ text ++ before) :: segments separator 0
            (behind ++ (before ++ separator :: behind).intercalate (second :: more)) := by
        have hfront := ((hpassed.append htext).append hpass)
          (separator :: (behind ++ (before ++ separator :: behind).intercalate (second :: more)))
        rw [segments, if_pos ⟨rfl, rfl⟩, onFirst, List.append_nil] at hfront
        rw [← hfront, List.intercalate_cons_cons]
        simp
      have htrimmed := htight.trimmed_append hblanks hbefore
      have hkept : (!text.isEmpty) = true := by simpa using htight.ne_nil
      simp only [parts] at hmore ⊢
      rw [hcut, List.map_cons, htrimmed, List.filter_cons, if_pos hkept, hmore]

/-- A text that is not cut is its own part. -/
theorem parts_eq_singleton {separator : Char} {text : List Char} (h : Passes separator 0 text)
    (htight : Tight text) : parts separator text = [text] := by
  have hwhole := h []
  rw [List.append_nil] at hwhole
  simp [parts, hwhole, segments, onFirst, htight.ne_nil, htight]

/-- A name with a text in brackets behind it. -/
def bracketed (base inner : List Char) : List Char := base ++ '[' :: (inner ++ [']'])

/-- A name with brackets behind it is tight. -/
theorem Tight.bracketed {base : List Char} (h : Tight base) (inner : List Char) :
    Tight (bracketed base inner) := by
  have hclosing : Tight [']'] := ⟨⟨_, [], rfl, by decide⟩, ⟨[], _, rfl, by decide⟩⟩
  simpa [TypeHint.bracketed] using h.append ('[' :: inner) hclosing

/-- A text that has no bracket is passed over in looking for the first one. -/
theorem all_before_bracket {text : List Char} (h : '[' ∉ text) :
    ∀ c ∈ text, (c != '[') = true := by
  intro c hc
  have hne : c ≠ '[' := by
    rintro rfl
    exact h hc
  simpa using hne

/-- What stands before the first bracket of a name with brackets behind it. -/
theorem takeWhile_bracketed {base : List Char} (h : '[' ∉ base) (inner rest : List Char) :
    (bracketed base inner ++ rest).takeWhile (fun c => c != '[') = base := by
  rw [bracketed, List.append_assoc, List.takeWhile_append_of_pos (all_before_bracket h),
    List.cons_append, List.takeWhile_cons_of_neg (by simp), List.append_nil]

/-- A text in brackets is told from what stands before it, without blanks around. -/
theorem splitBrackets_eq_trimmed {base : List Char} (h : '[' ∉ base) (inner : List Char) :
    splitBrackets (bracketed base inner) = (Text.trimmed base, some inner) := by
  have hdropped : (bracketed base inner).dropWhile (fun c => c != '[') =
      '[' :: (inner ++ [']']) := by
    rw [bracketed, List.dropWhile_append_of_pos (all_before_bracket h),
      List.dropWhile_cons_of_neg (by simp)]
  have htaken := takeWhile_bracketed h inner []
  rw [List.append_nil] at htaken
  have hlast : (bracketed base inner).getLast? = some ']' := by
    rw [bracketed, ← List.cons_append, ← List.append_assoc, List.getLast?_concat]
  simp [splitBrackets, hdropped, htaken, hlast]

/-- A text in brackets is told from the name before it. -/
theorem splitBrackets_bracketed {base : List Char} (h : '[' ∉ base) (htight : Tight base)
    (inner : List Char) : splitBrackets (bracketed base inner) = (base, some inner) := by
  rw [splitBrackets_eq_trimmed h, htight.trimmed]

/-- A text that does not end in a bracket is not split. -/
theorem splitBrackets_of_getLast? {text : List Char} (h : text.getLast? ≠ some ']') :
    splitBrackets text = (text, none) := by
  unfold splitBrackets
  split
  · rw [if_neg h]
  · rfl

section Shape

variable {text : List Char} (hne : text ≠ [])
include hne

/-- Brackets behind the word for a union hold its members. -/
theorem shapeOfStripped_of_isUnionName {base inner : List Char}
    (hsplit : splitBrackets text = (base, some inner)) (hunion : isUnionName base = true) :
    shapeOfStripped text = .union (parts ',' inner) := by
  have hempty : ¬text.isEmpty = true := by simpa using hne
  simp only [shapeOfStripped, if_neg hempty, hsplit, if_pos hunion, Option.map_some]

/-- Bars outside of brackets stand between the members of a union, where there is no word for a
union before the first bracket. -/
theorem shapeOfStripped_of_bars (hunion : isUnionName (splitBrackets text).1 = false)
    (hbars : 1 < (parts '|' text).length) : shapeOfStripped text = .union (parts '|' text) := by
  have hempty : ¬text.isEmpty = true := by simpa using hne
  have hunion' : ¬isUnionName (splitBrackets text).1 = true := by simp [hunion]
  simp only [shapeOfStripped, if_neg hempty, if_neg hunion', if_pos hbars]

/-- Any other text is that of a name, or of an option. -/
theorem shapeOfStripped_of_name {base : List Char} {inner : Option (List Char)}
    (hsplit : splitBrackets text = (base, inner)) (hunion : isUnionName base = false)
    (hbars : parts '|' text = [text]) :
    shapeOfStripped text =
      if withoutPackage base = "Optional".toList then .option inner
      else .named (withoutPackage base) := by
  have hempty : ¬text.isEmpty = true := by simpa using hne
  have hunion' : ¬isUnionName base = true := by simp [hunion]
  have hsingle : ¬1 < (parts '|' text).length := by simp [hbars]
  simp only [shapeOfStripped, if_neg hempty, hsplit, if_neg hunion', if_neg hsingle]

end Shape

section Tree

variable {text : List Char}

/-- A text that shows nothing is read as nothing. -/
theorem ofText_of_blank (h : shapeOf text = .blank) : ofText text = .blank := by
  rw [ofText]
  split <;> simp_all

/-- A text that shows a name is read as the name. -/
theorem ofText_of_named {base : List Char} (h : shapeOf text = .named base) :
    ofText text = .named base := by
  rw [ofText]
  split <;> simp_all

/-- A text that shows an option of nothing in particular is read as such. -/
theorem ofText_of_bareOption (h : shapeOf text = .option none) : ofText text = .bareOption := by
  rw [ofText]
  split <;> simp_all

/-- A text that shows an option is read as the option of what is read from its inside. -/
theorem ofText_of_option {inner : List Char} (h : shapeOf text = .option (some inner)) :
    ofText text = .optionOf (ofText inner) := by
  rw [ofText]
  split <;> simp_all

/-- A text that shows a union is read as the union of what is read from its members. -/
theorem ofText_of_union {members : List (List Char)} (h : shapeOf text = .union members) :
    ofText text = .unionOf (members.map ofText) := by
  rw [ofText]
  split <;> simp_all

end Tree

/-- What each of several types that were read says of a kind. -/
theorem judgements_eq_map (kind : ArgKind) (hasDefault : Bool) (members : List TypeHint) :
    judgements kind hasDefault members = members.map (admits kind hasDefault) := by
  induction members with
  | nil => rfl
  | cons member rest ih => simp [judgements, ih]

end TypeHint

end UsageAudit

import UsageAudit.Proofs.EscapedPatterns

/-!
# The pieces of a pattern

A pattern is read from the left as a row of pieces: letters, places for any letter and places for any
text. It stands for the texts from which its pieces can be taken one after the other until nothing is
left. This file shows that the search for a way to do so finds one if there is one, and that an escaped
text is read as its own letters and nothing else, whatever signs are in it. Here a null character is a
letter like any other; what it hides from a database is told beside the escapes.
-/

namespace UsageAudit.Database.Pattern

/-- A part of a pattern. -/
inductive Piece where
  | letter (c : Char)
  | anyLetter
  | anyText
  deriving DecidableEq, Repr

/-- Whether a piece can be taken from the front of a text so that the rest is left. Letters from A to
Z are the same in either case. -/
def Piece.Takes (text rest : List Char) : Piece → Prop
  | .letter c => ∃ d, text = d :: rest ∧ c.toLower = d.toLower
  | .anyLetter => ∃ d, text = d :: rest
  | .anyText => rest <:+ text

/-- The pieces of a pattern. A backslash that nothing follows is no piece, and spoils the pattern. -/
def pieces? : List Char → Option (List Piece)
  | [] => some []
  | '%' :: pattern => (pieces? pattern).map (.anyText :: ·)
  | '_' :: pattern => (pieces? pattern).map (.anyLetter :: ·)
  | ['\\'] => none
  | '\\' :: c :: pattern => (pieces? pattern).map (.letter c :: ·)
  | c :: pattern => (pieces? pattern).map (.letter c :: ·)

/-- Whether pieces can be taken from a text one after the other until nothing is left. -/
def Fits : List Piece → List Char → Prop
  | [], text => text = []
  | piece :: pieces, text => ∃ rest, piece.Takes text rest ∧ Fits pieces rest

/-- Whether a pattern stands for a text. -/
def StandsFor (pattern text : List Char) : Prop :=
  ∃ pieces, pieces? pattern = some pieces ∧ Fits pieces text

/-! ## Searching for a way to take the pieces -/

/-- The empty pattern stands for the empty text alone. -/
theorem standsFor_nil_iff (text : List Char) : StandsFor [] text ↔ text = [] := by
  simp [StandsFor, pieces?, Fits]

/-- A backslash with nothing behind it stands for nothing. -/
theorem not_standsFor_backslash (text : List Char) : ¬StandsFor ['\\'] text := by
  simp [StandsFor, pieces?]

/-- A pattern stands for a text if its first piece can be taken and the rest of the pattern stands for
what is left. -/
theorem standsFor_iff_of_pieces {pattern behind : List Char} {piece : Piece}
    (hpieces : pieces? pattern = (pieces? behind).map (piece :: ·)) (text : List Char) :
    StandsFor pattern text ↔ ∃ rest, piece.Takes text rest ∧ StandsFor behind rest := by
  unfold StandsFor
  rw [hpieces]
  constructor
  · rintro ⟨pieces, hsome, hfits⟩
    obtain ⟨others, hothers, rfl⟩ := Option.map_eq_some_iff.mp hsome
    obtain ⟨rest, htaken, hrest⟩ := hfits
    exact ⟨rest, htaken, others, hothers, hrest⟩
  · rintro ⟨rest, htaken, others, hothers, hrest⟩
    exact ⟨piece :: others, Option.map_eq_some_iff.mpr ⟨others, hothers, rfl⟩, rest, htaken, hrest⟩

/-- A percent sign takes any text. -/
theorem standsFor_percent_iff (pattern text : List Char) :
    StandsFor ('%' :: pattern) text ↔ ∃ rest, rest <:+ text ∧ StandsFor pattern rest := by
  have hpieces : pieces? ('%' :: pattern) = (pieces? pattern).map (.anyText :: ·) := by
    simp [pieces?]
  exact standsFor_iff_of_pieces hpieces text

/-- A percent sign at the end of a text stands for nothing more. -/
theorem standsFor_percent_nil_iff (pattern : List Char) :
    StandsFor ('%' :: pattern) [] ↔ StandsFor pattern [] := by
  simp [standsFor_percent_iff]

/-- A percent sign stands for nothing, or it takes the first letter and goes on. -/
theorem standsFor_percent_cons_iff (pattern : List Char) (c : Char) (text : List Char) :
    StandsFor ('%' :: pattern) (c :: text) ↔
      StandsFor pattern (c :: text) ∨ StandsFor ('%' :: pattern) text := by
  simp only [standsFor_percent_iff, List.suffix_cons_iff]
  constructor
  · rintro ⟨rest, rfl | hsuffix, hrest⟩
    · exact .inl hrest
    · exact .inr ⟨rest, hsuffix, hrest⟩
  · rintro (hrest | ⟨rest, hsuffix, hrest⟩)
    · exact ⟨c :: text, .inl rfl, hrest⟩
    · exact ⟨rest, .inr hsuffix, hrest⟩

/-- An underscore takes one letter. -/
theorem standsFor_underscore_iff (pattern text : List Char) :
    StandsFor ('_' :: pattern) text ↔ ∃ rest, (∃ d, text = d :: rest) ∧ StandsFor pattern rest := by
  have hpieces : pieces? ('_' :: pattern) = (pieces? pattern).map (.anyLetter :: ·) := by
    simp [pieces?]
  exact standsFor_iff_of_pieces hpieces text

/-- A letter is taken from a text that begins with it, in either case. -/
theorem standsFor_iff_of_letter {pattern behind : List Char} {letter : Char}
    (hpieces : pieces? pattern = (pieces? behind).map (.letter letter :: ·)) :
    ¬StandsFor pattern [] ∧ ∀ c text, StandsFor pattern (c :: text) ↔
      sameLetter letter c = true ∧ StandsFor behind text := by
  simp only [standsFor_iff_of_pieces hpieces, Piece.Takes, sameLetter, beq_iff_eq]
  constructor
  · rintro ⟨rest, ⟨d, hempty, -⟩, -⟩
    cases hempty
  · intro c text
    constructor
    · rintro ⟨rest, ⟨d, hsplit, hsame⟩, hrest⟩
      obtain ⟨rfl, rfl⟩ := List.cons_eq_cons.mp hsplit
      exact ⟨hsame, hrest⟩
    · rintro ⟨hsame, hrest⟩
      exact ⟨text, ⟨c, rfl, hsame⟩, hrest⟩

/-- The search finds that a pattern admits a text if it stands for it. -/
theorem admits_iff_standsFor (pattern text : List Char) :
    admits pattern text = true ↔ StandsFor pattern text := by
  have hescape (letter : Char) (behind : List Char) :
      pieces? ('\\' :: letter :: behind) = (pieces? behind).map (.letter letter :: ·) := by
    simp [pieces?]
  fun_induction admits pattern text with
  | case1 text => simp [standsFor_nil_iff]
  | case2 pattern ih => exact ih.trans (standsFor_percent_nil_iff pattern).symm
  | case3 pattern c text hnow hlater =>
    rw [Bool.or_eq_true, standsFor_percent_cons_iff]
    exact or_congr hnow hlater
  | case4 pattern => simp [standsFor_underscore_iff]
  | case5 pattern c text ih => simp [standsFor_underscore_iff, ih]
  | case6 text => simp [not_standsFor_backslash]
  | case7 letter pattern => simp [(standsFor_iff_of_letter (hescape letter pattern)).1]
  | case8 letter pattern c text ih =>
    rw [(standsFor_iff_of_letter (hescape letter pattern)).2, Bool.and_eq_true]
    exact and_congr_right fun _ => ih
  | case9 letter pattern hpercent hunderscore hend hstart =>
    have hpieces : pieces? (letter :: pattern) = (pieces? pattern).map (.letter letter :: ·) := by
      rw [pieces?] <;> assumption
    simp [(standsFor_iff_of_letter hpieces).1]
  | case10 letter pattern c text hpercent hunderscore hend hstart ih =>
    have hpieces : pieces? (letter :: pattern) = (pieces? pattern).map (.letter letter :: ·) := by
      rw [pieces?] <;> assumption
    rw [(standsFor_iff_of_letter hpieces).2, Bool.and_eq_true]
    exact and_congr_right fun _ => ih

/-! ## Escaped texts -/

/-- Pieces that are letters and then any text are taken from what begins with these letters, in either
case. -/
theorem fits_letters_anyText_iff (name text : List Char) :
    Fits (name.map .letter ++ [.anyText]) text ↔
      ∃ front, front <+: text ∧ folded front = folded name := by
  induction name generalizing text with
  | nil =>
    constructor
    · intro _
      exact ⟨[], List.nil_prefix, rfl⟩
    · intro _
      exact ⟨[], List.nil_suffix, rfl⟩
  | cons c name ih =>
    simp only [List.map_cons, List.cons_append, Fits, Piece.Takes, ih]
    constructor
    · rintro ⟨rest, ⟨d, rfl, hsame⟩, front, hfront, hfolded⟩
      refine ⟨d :: front, List.cons_prefix_cons.mpr ⟨rfl, hfront⟩, ?_⟩
      exact List.cons_eq_cons.mpr ⟨hsame.symm, hfolded⟩
    · rintro ⟨front, hfront, hfolded⟩
      cases front with
      | nil => simp [folded] at hfolded
      | cons d front =>
        obtain ⟨hsame, hrest⟩ := List.cons_eq_cons.mp hfolded
        obtain ⟨back, rfl⟩ := hfront
        exact ⟨front ++ back, ⟨d, rfl, hsame.symm⟩, front, List.prefix_append front back, hrest⟩

/-- An escaped text is read as its own letters, and what follows it as if it stood alone. -/
theorem pieces?_escaped_append (name pattern : List Char) :
    pieces? (escaped name ++ pattern) = (pieces? pattern).map (name.map .letter ++ ·) := by
  induction name with
  | nil => simp [escaped]
  | cons c name ih =>
    have hfirst : pieces? (escaped (c :: name) ++ pattern) =
        (pieces? (escaped name ++ pattern)).map (.letter c :: ·) := by
      by_cases hc : c = '%' ∨ c = '_' ∨ c = '\\'
      · simp [escaped, hc, pieces?]
      · rw [escaped, if_neg hc]
        simp only [not_or] at hc
        simp [pieces?, hc]
    rw [hfirst, ih, Option.map_map]
    rfl

/-- Whatever signs are in a name, the pattern for what lies below it is read as the letters of the
name, a dot and any text. So it stands for the texts that begin with the name and a dot, but for the
case of letters from A to Z, and for no others, and these are the texts that the search admits. -/
theorem below_standsFor_exactly (name text : List Char) :
    pieces? (below name) = some (name.map .letter ++ [.letter '.', .anyText]) ∧
      (admits (below name) text = true ↔ StandsFor (below name) text) ∧
      (StandsFor (below name) text ↔
        ∃ front, front <+: text ∧ folded front = folded (name ++ ['.'])) := by
  have hpieces : pieces? (below name) = some (name.map .letter ++ [.letter '.', .anyText]) := by
    rw [below, pieces?_escaped_append]
    rfl
  refine ⟨hpieces, admits_iff_standsFor (below name) text, ?_⟩
  have hletters : name.map Piece.letter ++ [.letter '.', .anyText] =
      (name ++ ['.']).map Piece.letter ++ [.anyText] := by simp
  simp only [StandsFor, hpieces, Option.some.injEq, exists_eq_left', hletters]
  exact fits_letters_anyText_iff (name ++ ['.']) text

end UsageAudit.Database.Pattern

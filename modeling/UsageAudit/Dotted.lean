import UsageAudit.Text.Alphabetic
import UsageAudit.Text.Numeric
import UsageAudit.Text.Uppercase

/-!
# Dotted names

A dotted name is cut at its dots, and what was cut can be joined again. A segment is an identifier if
it starts with a letter or an underscore and goes on with letters, numbers and underscores.
-/

namespace UsageAudit.Dotted

/-- The segments of a text between its dots. -/
def segments : List Char → List (List Char)
  | [] => [[]]
  | c :: rest =>
    if c = '.' then [] :: segments rest
    else
      match segments rest with
      | [] => [[c]]
      | first :: more => (c :: first) :: more

/-- Segments with dots between them. -/
def join : List (List Char) → List Char
  | [] => []
  | [segment] => segment
  | segment :: rest => segment ++ '.' :: join rest

/-- A text has at least one segment. -/
theorem segments_ne_nil (text : List Char) : segments text ≠ [] := by
  induction text with
  | nil => simp [segments]
  | cons c rest ih =>
    by_cases h : c = '.'
    · simp [segments, h]
    · simp only [segments, if_neg h]
      split <;> simp

/-- Joining the segments of a text gives the text. -/
theorem join_segments (text : List Char) : join (segments text) = text := by
  induction text with
  | nil => rfl
  | cons c rest ih =>
    have some_segment := segments_ne_nil rest
    by_cases h : c = '.'
    · simp only [segments, if_pos h]
      obtain ⟨first, more, eq⟩ := List.exists_cons_of_ne_nil some_segment
      rw [eq] at ih ⊢
      simp [join, ih, h]
    · simp only [segments, if_neg h]
      split
      · rename_i eq
        exact absurd eq some_segment
      · rename_i first more eq
        rw [eq] at ih
        cases more with
        | nil => simpa [join] using ih
        | cons second more =>
          simp only [join, List.cons_append] at ih ⊢
          rw [ih]

/-- No segment has a dot in it. -/
theorem dot_not_mem_of_mem_segments {text segment : List Char} (h : segment ∈ segments text) :
    '.' ∉ segment := by
  induction text generalizing segment with
  | nil =>
    obtain rfl : segment = [] := by simpa [segments] using h
    simp
  | cons c rest ih =>
    by_cases hdot : c = '.'
    · simp only [segments, if_pos hdot, List.mem_cons] at h
      rcases h with rfl | h
      · simp
      · exact ih h
    · obtain ⟨first, more, eq⟩ := List.exists_cons_of_ne_nil (segments_ne_nil rest)
      simp only [segments, if_neg hdot, eq, List.mem_cons] at h
      rcases h with rfl | h
      · have hfirst : '.' ∉ first := ih (by simp [eq])
        simp [Ne.symm hdot, hfirst]
      · exact ih (by simp [eq, h])

/-- A text without dots is its only segment. -/
theorem segments_of_dot_not_mem {text : List Char} (h : '.' ∉ text) : segments text = [text] := by
  induction text with
  | nil => rfl
  | cons c rest ih =>
    simp only [List.mem_cons, not_or] at h
    obtain ⟨hdot, hrest⟩ := h
    simp [segments, Ne.symm hdot, ih hrest]

/-- The last segment of a text. -/
def lastSegment (text : List Char) : List Char := (text.reverse.takeWhile (· != '.')).reverse

/-- The text before its last dot and the text behind it. -/
def splitLast? (text : List Char) : Option (List Char × List Char) :=
  match text.reverse.dropWhile (· != '.') with
  | [] => none
  | _ :: before => some (before.reverse, lastSegment text)

/-- The last segment of a text has no dot in it. -/
theorem dot_not_mem_lastSegment (text : List Char) : '.' ∉ lastSegment text := by
  intro h
  have hdot := List.all_eq_true.mp List.all_takeWhile _ (List.mem_reverse.mp h)
  simp at hdot

/-- What stands behind the last dot is the last segment. -/
theorem lastSegment_append {owner name : List Char} (h : '.' ∉ name) :
    lastSegment (owner ++ '.' :: name) = name := by
  have hname : ∀ c ∈ name.reverse, (c != '.') = true := by
    intro c hc
    simpa using fun heq : c = '.' => h (heq ▸ List.mem_reverse.mp hc)
  simp [lastSegment, List.takeWhile_append_of_pos hname]

/-- A text is cut at its last dot. -/
theorem splitLast?_append {owner name : List Char} (h : '.' ∉ name) :
    splitLast? (owner ++ '.' :: name) = some (owner, name) := by
  have hname : ∀ c ∈ name.reverse, (c != '.') = true := by
    intro c hc
    simpa using fun heq : c = '.' => h (heq ▸ List.mem_reverse.mp hc)
  simp [splitLast?, lastSegment_append h, List.dropWhile_append_of_pos hname]

/-- Two texts that end in a segment behind a dot agree only in both parts. -/
theorem append_dot_inj {owner name owner' name' : List Char} (h : '.' ∉ name) (h' : '.' ∉ name')
    (heq : owner ++ '.' :: name = owner' ++ '.' :: name') : owner = owner' ∧ name = name' := by
  have hsplit := congrArg splitLast? heq
  rw [splitLast?_append h, splitLast?_append h'] at hsplit
  simpa using hsplit

/-- What stands behind the last dot has no dot in it. -/
theorem dot_not_mem_of_splitLast? {text owner name : List Char}
    (h : splitLast? text = some (owner, name)) : '.' ∉ name := by
  unfold splitLast? at h
  split at h
  · cases h
  · simp only [Option.some.injEq, Prod.mk.injEq] at h
    rw [← h.2]
    exact dot_not_mem_lastSegment text

/-- Whether the character may start an identifier. -/
def startsIdentifier (c : Char) : Bool := Text.isAlphabetic c || c == '_'

/-- Whether the character may stand in an identifier. -/
def continuesIdentifier (c : Char) : Bool :=
  Text.isAlphabetic c || Text.isNumeric c || c == '_'

/-- Whether the text is an identifier. -/
def isIdentifier : List Char → Bool
  | [] => false
  | c :: rest => startsIdentifier c && rest.all continuesIdentifier

/-- There are no dots in an identifier. -/
theorem dot_not_mem_of_isIdentifier {text : List Char} (h : isIdentifier text = true) :
    '.' ∉ text := by
  have hstart : startsIdentifier '.' = false := by decide +kernel
  have hcontinue : continuesIdentifier '.' = false := by decide +kernel
  intro hmem
  cases text with
  | nil => cases hmem
  | cons c rest =>
    obtain ⟨hfirst, hrest⟩ := Bool.and_eq_true_iff.mp h
    rcases List.mem_cons.mp hmem with rfl | hmem
    · simp [hstart] at hfirst
    · simpa [hcontinue] using List.all_eq_true.mp hrest _ hmem

/-- Whether the text starts with an upper-case letter. -/
def startsUpper : List Char → Bool
  | [] => false
  | c :: _ => Text.isUppercase c

end UsageAudit.Dotted

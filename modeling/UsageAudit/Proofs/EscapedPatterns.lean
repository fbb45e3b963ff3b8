import UsageAudit.Database.Pattern

/-!
# Escaped texts in patterns

A percent sign, an underscore or a backslash that is escaped stands for itself like any other
character. So what an escaped text admits is told by the text alone, whatever pattern follows it:
the text with its letters in any case, and then what that pattern admits. A null character ends both
the pattern and the text, so that a name with one is compared only as far as that.
-/

namespace UsageAudit.Database.Pattern

/-- A text with its letters from A to Z in one case. -/
def folded (text : List Char) : List Char := text.map Char.toLower

/-- An escaped character stands for itself. -/
theorem admits_escape_cons (c : Char) (pattern text : List Char) :
    admits ('\\' :: c :: pattern) text = true ↔
      ∃ d rest, text = d :: rest ∧ c.toLower = d.toLower ∧ admits pattern rest = true := by
  cases text with
  | nil => simp [admits]
  | cons d rest => simp [admits, sameLetter, and_assoc]

/-- A character that needs no escape stands for itself. -/
theorem admits_literal_cons {c : Char} (hc : ¬(c = '%' ∨ c = '_' ∨ c = '\\'))
    (pattern text : List Char) :
    admits (c :: pattern) text = true ↔
      ∃ d rest, text = d :: rest ∧ c.toLower = d.toLower ∧ admits pattern rest = true := by
  simp only [not_or] at hc
  cases text with
  | nil => simp [admits, hc]
  | cons d rest => simp [admits, sameLetter, hc, and_assoc]

/-- The first character of an escaped text stands for itself. -/
theorem admits_escaped_cons (c : Char) (name pattern text : List Char) :
    admits (escaped (c :: name) ++ pattern) text = true ↔
      ∃ d rest, text = d :: rest ∧ c.toLower = d.toLower ∧
        admits (escaped name ++ pattern) rest = true := by
  by_cases hc : c = '%' ∨ c = '_' ∨ c = '\\'
  · rw [escaped, if_pos hc]
    exact admits_escape_cons c _ text
  · rw [escaped, if_neg hc]
    exact admits_literal_cons hc _ text

/-- An escaped text admits itself in any case, and the pattern after it goes on from there. -/
theorem admits_escaped_append (name pattern text : List Char) :
    admits (escaped name ++ pattern) text = true ↔
      ∃ front back, text = front ++ back ∧ folded name = folded front ∧
        admits pattern back = true := by
  induction name generalizing text with
  | nil =>
    constructor
    · intro hadmits
      exact ⟨[], text, rfl, rfl, hadmits⟩
    · rintro ⟨front, back, rfl, hfront, hback⟩
      obtain rfl : front = [] := List.map_eq_nil_iff.mp hfront.symm
      exact hback
  | cons c name ih =>
    simp only [admits_escaped_cons, ih]
    constructor
    · rintro ⟨d, rest, rfl, hletter, front, back, rfl, hfront, hback⟩
      exact ⟨d :: front, back, rfl, List.cons_eq_cons.mpr ⟨hletter, hfront⟩, hback⟩
    · rintro ⟨front, back, rfl, hfront, hback⟩
      cases front with
      | nil => simp [folded] at hfront
      | cons d front =>
        obtain ⟨hletter, hfront⟩ := List.cons_eq_cons.mp hfront
        exact ⟨d, front ++ back, rfl, hletter, front, back, rfl, hfront, hback⟩

/-- Texts are escaped part by part. -/
theorem escaped_append (name name' : List Char) :
    escaped (name ++ name') = escaped name ++ escaped name' := by
  induction name with
  | nil => rfl
  | cons c name ih =>
    simp only [List.cons_append, escaped, ih]
    split <;> rfl

/-! ## What a null character hides -/

/-- All of a text is seen if no null character is in it. -/
theorem visible_of_not_mem {text : List Char} (h : '\x00' ∉ text) : visible text = text := by
  induction text with
  | nil => rfl
  | cons c text ih =>
    simp only [List.mem_cons, not_or] at h
    have hrest := ih h.2
    simp only [visible] at hrest ⊢
    simp [Ne.symm h.1, hrest]

/-- Nothing that follows a null character is seen. -/
theorem visible_append_of_mem {text : List Char} (h : '\x00' ∈ text) (more : List Char) :
    visible (text ++ more) = visible text := by
  induction text with
  | nil => cases h
  | cons c text ih =>
    by_cases hend : c = '\x00'
    · simp [visible, hend]
    · have hrest := ih (by simpa [Ne.symm hend] using h)
      simp only [visible] at hrest ⊢
      simp [hend, hrest]

/-- Escapes add no null character. -/
theorem null_mem_escaped_iff {name : List Char} : '\x00' ∈ escaped name ↔ '\x00' ∈ name := by
  induction name with
  | nil => rfl
  | cons c name ih =>
    rw [escaped]
    split <;> simp [ih]

/-- Of an escaped text is seen what is seen of the text, escaped. -/
theorem visible_escaped (name : List Char) : visible (escaped name) = escaped (visible name) := by
  induction name with
  | nil => rfl
  | cons c name ih =>
    simp only [visible] at ih ⊢
    by_cases hc : c = '%' ∨ c = '_' ∨ c = '\\'
    · have hseen : c ≠ '\x00' := by rintro rfl; simp at hc
      simp [escaped, hc, hseen, ih]
    · by_cases hseen : c = '\x00'
      · simp [escaped, hseen]
      · simp [escaped, hc, hseen, ih]

/-- A null character is no letter, and no letter is one. -/
theorem toLower_eq_null_iff (c : Char) : c.toLower = '\x00' ↔ c = '\x00' := by
  unfold Char.toLower
  split
  · rename_i hupper
    simp only [Char.ext_iff, ← UInt32.toNat_inj, UInt32.le_iff_toNat_le, ge_iff_le,
      Char.reduceVal, UInt32.reduceSub, UInt32.toNat_add, UInt32.reduceToNat] at hupper ⊢
    omega
  · rfl

/-- What begins like a name without null characters begins so as far as it is seen. -/
theorem folded_prefix_visible {name : List Char} (hname : '\x00' ∉ name) (text : List Char) :
    folded name <+: folded (visible text) ↔ folded name <+: folded text := by
  induction name generalizing text with
  | nil => simp [folded]
  | cons c name ih =>
    simp only [List.mem_cons, not_or] at hname
    cases text with
    | nil => rfl
    | cons d text =>
      by_cases hend : d = '\x00'
      · have hc : c.toLower ≠ '\x00' := fun h => hname.1 ((toLower_eq_null_iff c).mp h).symm
        subst hend
        simp [visible, folded, hc]
      · have hrest := ih hname.2 text
        simpa [visible, folded, hend, List.cons_prefix_cons] using fun _ => hrest

/-! ## What seems to lie below a name -/

/-- Whether a text seems to lie below a name, whatever the case of their letters. Of a name with a
null character no more is seen than what comes before that, and of the text likewise. -/
def SeemsBelow (name text : List Char) : Prop :=
  if '\x00' ∈ name then folded (visible name) = folded (visible text)
  else folded (name ++ ['.']) <+: folded text

/-- The pattern for what lies below a name admits what seems to. -/
theorem admits_below_iff (name text : List Char) :
    admits (visible (below name)) (visible text) = true ↔ SeemsBelow name text := by
  by_cases hnull : '\x00' ∈ name
  · have hseen : visible (below name) = escaped (visible name) ++ [] := by
      rw [below, visible_append_of_mem (null_mem_escaped_iff.mpr hnull), visible_escaped,
        List.append_nil]
    rw [hseen, admits_escaped_append, SeemsBelow, if_pos hnull]
    simp
  · have hseen : visible (below name) = escaped (name ++ ['.']) ++ ['%'] := by
      rw [below, visible_of_not_mem (by simp [null_mem_escaped_iff, hnull])]
      simp [escaped_append, escaped]
    rw [hseen, admits_escaped_append, SeemsBelow, if_neg hnull,
      ← folded_prefix_visible (by simp [hnull]) text, folded, folded, List.prefix_map_iff]
    simp only [admits_percent, and_true]
    constructor
    · rintro ⟨front, back, htext, hfront⟩
      exact ⟨front, ⟨back, htext.symm⟩, hfront⟩
    · rintro ⟨front, ⟨back, htext⟩, hfront⟩
      exact ⟨front, back, htext.symm, hfront⟩

/-- What lies below a name, letter by letter, seems to. -/
theorem seemsBelow_of_prefix {name text : List Char} (h : name ++ ['.'] <+: text) :
    SeemsBelow name text := by
  unfold SeemsBelow
  split
  · rename_i hnull
    obtain ⟨more, rfl⟩ := h
    rw [List.append_assoc, visible_append_of_mem hnull]
  · exact h.map Char.toLower

end UsageAudit.Database.Pattern

import UsageAudit.Proofs.Preorder
import UsageAudit.Script.Parse
import Mathlib.Data.List.TakeDrop
import Mathlib.Data.List.TakeWhile

/-!
# What readers give

A rule of the grammar is put together from smaller readers. What holds of all that a reader gives is
shown in the same way: from the smaller readers, whatever text is ahead and wherever they get stuck.
-/

namespace UsageAudit.Script

namespace Reader

variable {α β : Type} {holds : α → Prop} {holds' : β → Prop}

/-- Whether all that a reader gives has a property. -/
def Gives (reader : Reader α) (holds : α → Prop) : Prop :=
  ∀ text value rest, (reader text).found = some (value, rest) → holds value

namespace Gives

/-- What is given without reading. -/
theorem pure {value : α} (h : holds value) : (pure value : Reader α).Gives holds := by
  intro text value' rest hfound
  obtain ⟨rfl, _⟩ := by simpa [Pure.pure, done] using hfound
  exact h

/-- One reader after the other: the second may rely on what the first has given. -/
theorem bind {first : Reader α} {second : α → Reader β} (hfirst : first.Gives holds)
    (hsecond : ∀ value, holds value → (second value).Gives holds') :
    (first >>= second).Gives holds' := by
  intro text value rest hfound
  simp only [Bind.bind, andThen] at hfound
  split at hfound
  · rename_i reach middle rest' heq
    exact hsecond middle (hfirst text middle rest' (by rw [heq])) _ _ _ hfound
  · simp at hfound

/-- One reader after another of which nothing need be known. -/
theorem after {first : Reader α} {second : α → Reader β}
    (hsecond : ∀ value, (second value).Gives holds') : (first >>= second).Gives holds' := by
  have hfirst : first.Gives fun _ => True := fun _ _ _ _ => trivial
  exact hfirst.bind fun value _ => hsecond value

/-- A reader that is stuck gives nothing. -/
theorem stuck : (stuck : Reader α).Gives holds := by
  intro text value rest hfound
  simp [Reader.stuck] at hfound

/-- Either of two ways to read. -/
theorem orElse {first second : Reader α} (hfirst : first.Gives holds)
    (hsecond : second.Gives holds) : (first <|> second).Gives holds := by
  intro text value rest hfound
  change (Reader.orElse first (fun _ => second) text).found = _ at hfound
  simp only [Reader.orElse] at hfound
  split at hfound
  · rename_i reach found heq
    exact hfirst text value rest (by rw [heq]; exact hfound)
  · exact hsecond text value rest hfound

/-- Either of two readers, by a test. -/
theorem ite {c : Prop} [Decidable c] {first second : Reader α} (hfirst : first.Gives holds)
    (hsecond : second.Gives holds) : (if c then first else second).Gives holds := by
  split
  · exact hfirst
  · exact hsecond

/-- A weaker property of what is given. -/
theorem mono {weaker : α → Prop} {reader : Reader α} (h : reader.Gives holds)
    (hweaker : ∀ value, holds value → weaker value) : reader.Gives weaker :=
  fun text value rest hfound => hweaker value (h text value rest hfound)

/-- Two properties of what is given. -/
theorem and {other : α → Prop} {reader : Reader α} (h : reader.Gives holds)
    (hother : reader.Gives other) : reader.Gives fun value => holds value ∧ other value :=
  fun text value rest hfound => ⟨h text value rest hfound, hother text value rest hfound⟩

/-- A choice of what is given. -/
theorem pureIte {c : Prop} [Decidable c] {value value' : α} (h : holds value)
    (h' : holds value') : (Pure.pure (if c then value else value') : Reader α).Gives holds := by
  apply pure
  split
  · exact h
  · exact h'

end Gives

/-- What holds of the empty row, and of two rows one after the other if it holds of each. -/
structure Additive (holds : List Tree → Prop) : Prop where
  nil : holds []
  append : ∀ {first second}, holds first → holds second → holds (first ++ second)

namespace Gives

variable {holds : List Tree → Prop}

/-- What may be absent. -/
theorem optional {reader : Reader (List Tree)} (h : reader.Gives holds) (hnil : holds []) :
    reader.optional.Gives holds :=
  h.orElse (.pure hnil)

/-- What is read as often as it comes. -/
theorem many {step : Reader (List Tree)} (hadditive : Additive holds) (h : step.Gives holds) :
    (many step).Gives holds := by
  have hfuel (fuel : Nat) : (manyUpTo step fuel).Gives holds := by
    induction fuel with
    | zero => exact .pure hadditive.nil
    | succ fuel ih =>
      refine .orElse (h.bind fun first hfirst => ih.bind fun more hmore => ?_)
        (.pure hadditive.nil)
      exact .pure (hadditive.append hfirst hmore)
  intro text
  exact hfuel text.length text

/-- What is taken in by what follows. -/
theorem grow {step : List Tree → Reader (List Tree)} {left : List Tree}
    (hstep : ∀ left, holds left → (step left).Gives holds) (hleft : holds left) :
    (grow step left).Gives holds := by
  have hfuel (fuel : Nat) (left : List Tree) (hleft : holds left) :
      (growUpTo step fuel left).Gives holds := by
    induction fuel generalizing left with
    | zero => exact .pure hleft
    | succ fuel ih => exact .orElse ((hstep left hleft).bind ih) (.pure hleft)
  intro text
  exact hfuel text.length left hleft text

/-- A row with commas in it. -/
theorem commaSeparated {ends : Bool} {item : Reader (List Tree)} (hadditive : Additive holds)
    (hcomma : (sign .comma).Gives holds) (hitem : item.Gives holds) :
    (commaSeparated ends item).Gives fun found => holds found.1 := by
  refine hitem.bind fun first hfirst => ?_
  refine (many hadditive ?_).bind fun more hmore => ?_
  · refine .after fun _ => hcomma.bind fun comma hcomma => .after fun _ => ?_
    exact hitem.bind fun item hitem => .pure (hadditive.append hcomma hitem)
  refine (optional ?_ hadditive.nil).bind fun last hlast => ?_
  · exact .after fun _ => hcomma
  exact .pure (hadditive.append (hadditive.append hfirst hmore) hlast)

/-- A row with commas between its members. -/
theorem commaJoined {ends : Bool} {item : Reader (List Tree)} (hadditive : Additive holds)
    (hcomma : (sign .comma).Gives holds) (hitem : item.Gives holds) :
    (commaJoined ends item).Gives holds := by
  refine hitem.bind fun first hfirst => ?_
  refine (many hadditive ?_).bind fun more hmore => ?_
  · refine .after fun _ => hcomma.bind fun comma hcomma => ?_
    exact hitem.bind fun item hitem => .pure (hadditive.append hcomma hitem)
  exact .pure (hadditive.append hfirst hmore)

end Gives

end Reader

/-- Whether the node is a comment or a line continuation without a role. -/
def Tree.IsGap (tree : Tree) : Prop :=
  ∃ kind line blank text, kind.isExtra = true ∧ tree = .token none kind line blank text

/-- Whether a row holds nothing but comments and line continuations. -/
def IsGapRow (row : List Tree) : Prop := ∀ tree ∈ row, tree.IsGap

/-- One more comment or line continuation. -/
theorem IsGapRow.concat {row : List Tree} (h : IsGapRow row) {kind : Kind}
    (hkind : kind.isExtra = true) (blank text : List Char) :
    IsGapRow (row ++ [.token none kind 0 blank text]) := by
  intro tree hmem
  rcases List.mem_append.mp hmem with hmem | hmem
  · exact h tree hmem
  · exact ⟨kind, 0, blank, text, hkind, List.mem_singleton.mp hmem⟩

/-- What stands in front of a token is comments and line continuations. -/
theorem isGapRow_gapFrom {extras : List Tree} {blank : List Char} {text : Option (List Char)}
    {rest : List Char} (h : IsGapRow extras) :
    IsGapRow (gapFrom extras blank text rest).extras := by
  fun_induction gapFrom extras blank text rest with
  | case1 => exact h
  | case2 => exact h.concat rfl _ _
  | case3 => rename_i ih; exact ih (h.concat rfl _ _)
  | case4 | case5 => rename_i ih; exact ih h
  | case6 => exact h.concat rfl _ _
  | case7 | case8 => rename_i ih; exact ih (h.concat rfl _ _)
  | case9 => rename_i ih; exact ih h
  | case10 => exact h

/-- What stands in front of the next token is comments and line continuations. -/
theorem isGapRow_gap (rest : List Char) : IsGapRow (gap rest).extras :=
  isGapRow_gapFrom fun _ hmem => by simp at hmem

/-- Line continuations that a text literal takes in are no longer in front of it. -/
theorem Gap.isGapRow_absorbed {g : Gap} (h : IsGapRow g.extras) : IsGapRow g.absorbed.extras := by
  unfold absorbed
  split
  · intro tree hmem
    simp only [List.span_eq_takeWhile_dropWhile, List.mem_reverse] at hmem
    exact h tree (List.mem_reverse.mp ((List.dropWhile_sublist _).subset hmem))
  · exact h

/-- Whether a row is a token of the given kind, with comments and line continuations in front of it
and a text of which something holds. -/
def IsTokenRow (kind : Kind) (holds : List Char → Prop) (row : List Tree) : Prop :=
  ∃ gaps blank text, IsGapRow gaps ∧ holds text ∧ row = gaps ++ [.token none kind 0 blank text]

/-- A token is read with what stands in front of it. -/
theorem gives_readToken {kind : Kind} {split : List Char → Option (List Char × List Char)}
    {holds : List Char → Prop}
    (h : ∀ text word rest, split text = some (word, rest) → holds word) :
    (readToken kind split).Gives (IsTokenRow kind holds) := by
  intro text row rest hfound
  simp only [readToken] at hfound
  split at hfound
  · rename_i word rest' hsplit
    obtain ⟨rfl, _⟩ := by simpa using hfound
    exact ⟨_, _, word, isGapRow_gap text, h _ _ _ hsplit, rfl⟩
  · simp at hfound

/-- A token of which only the kind is known. -/
theorem gives_token {kind : Kind} {split : List Char → Option (List Char × List Char)} :
    (readToken kind split).Gives (IsTokenRow kind fun _ => True) :=
  gives_readToken fun _ _ _ _ => trivial

/-- A sign is spelled by at least one character. -/
theorem Sign.text_ne_nil (s : Sign) : s.text ≠ [] := by
  cases s <;> simp [Sign.text]

/-- A word is spelled by at least one character. -/
theorem Word.text_ne_nil (w : Word) : w.text ≠ [] := by
  cases w <;> simp [Word.text]

/-- No name has a dot in it. -/
theorem dot_not_mem_of_splitName {text name rest : List Char}
    (h : splitName text = some (name, rest)) : '.' ∉ name := by
  cases text with
  | nil => simp [splitName] at h
  | cons c tail =>
    simp only [splitName] at h
    split at h
    · rename_i hstart
      obtain ⟨rfl, _⟩ := by simpa using h
      simp only [List.mem_cons, not_or]
      refine ⟨?_, fun hmem => ?_⟩
      · rintro rfl
        exact absurd hstart (by decide)
      · exact absurd (List.mem_takeWhile_imp hmem) (by decide)
    · simp at h

end UsageAudit.Script

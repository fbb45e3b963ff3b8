import Mathlib.Data.List.TakeWhile
import UsageAudit.Overlap

/-!
# The identifiers of a text

The identifiers of a text are those that a scan from the left finds: at each place the longest one
that starts there, and the scan goes on behind it; where none starts, it goes on one character
further. A character that cannot stand in an identifier keeps apart what stands before and behind it,
so that the identifiers of two texts on lines of their own are those of both.
-/

namespace UsageAudit.Overlap

/-- Whether the characters are an identifier: at least two, the first of which is no digit. -/
structure IsIdentifier (name : List Char) : Prop where
  wordChars : ∀ c ∈ name, isWordChar c = true
  start : ∀ c ∈ name.head?, c.isDigit = false
  long : 2 ≤ name.length

/-- The identifiers that a scan of a text from the left finds. -/
inductive Scans : List Char → List (List Char) → Prop where
  | done : Scans [] []
  /-- The longest identifier that starts here is found. -/
  | found (name rest : List Char) (names : List (List Char)) (identifier : IsIdentifier name)
      (longest : ∀ longer, IsIdentifier longer → longer <+: name ++ rest →
        longer.length ≤ name.length)
      (next : Scans rest names) : Scans (name ++ rest) (name :: names)
  /-- No identifier starts here. -/
  | skipped (c : Char) (rest : List Char) (names : List (List Char))
      (none : ∀ name, IsIdentifier name → ¬name <+: c :: rest) (next : Scans rest names) :
      Scans (c :: rest) names

/-- Whether a text holds an identifier, in whatever case. -/
def Holds (text token : String) : Prop :=
  ∃ names, Scans text.toList names ∧ ∃ name ∈ names, token = String.ofList (name.map Char.toLower)

/-! ## Runs of characters -/

/-- There are always runs, the first of which goes on with what is open. -/
theorem runs_eq (run text : List Char) :
    ∃ first more, runs [] text = first :: more ∧ runs run text = (run.reverse ++ first) :: more := by
  induction text generalizing run with
  | nil => exact ⟨[], [], rfl, by simp [runs]⟩
  | cons c rest ih =>
    by_cases hc : isWordChar c = true
    · obtain ⟨first, more, hrest, hrun⟩ := ih (c :: run)
      obtain ⟨_, _, hrest', hopen⟩ := ih [c]
      rw [hrest] at hrest'
      obtain ⟨rfl, rfl⟩ := List.cons.inj hrest'
      exact ⟨c :: first, more, by simpa [runs, hc] using hopen, by simpa [runs, hc] using hrun⟩
    · exact ⟨[], runs [] rest, by simp [runs, hc], by simp [runs, hc]⟩

/-- Characters that may stand in identifiers go on with the run. -/
theorem runs_append {name : List Char} (hname : ∀ c ∈ name, isWordChar c = true)
    (run rest : List Char) : runs run (name ++ rest) = runs (name.reverse ++ run) rest := by
  induction name generalizing run with
  | nil => rfl
  | cons c name ih =>
    rw [List.forall_mem_cons] at hname
    simp [runs, hname.1, ih hname.2]

/-- A character that cannot stand in an identifier parts the runs. -/
theorem runs_append_cons {c : Char} (hc : isWordChar c = false) (run text rest : List Char) :
    runs run (text ++ c :: rest) = runs run text ++ runs [] rest := by
  induction text generalizing run with
  | nil => simp [runs, hc]
  | cons d text ih =>
    by_cases hd : isWordChar d = true
    · simp [runs, hd, ih]
    · simp [runs, hd, ih]

/-- There is no identifier in a run without characters. -/
@[simp]
theorem filterMap_identifier?_nil_cons (more : List (List Char)) :
    ([] :: more).filterMap identifier? = more.filterMap identifier? := rfl

/-- What identifiers there are in the runs of a text. -/
def runTokens (text : List Char) : List String := (runs [] text).filterMap identifier?

/-- The identifiers of a text are those in its runs. -/
theorem mem_tokens {text token : String} : token ∈ tokens text ↔ token ∈ runTokens text.toList :=
  List.mem_eraseDups

/-- The identifiers on both sides of a character that cannot stand in one. -/
theorem runTokens_append_cons {c : Char} (hc : isWordChar c = false) (text rest : List Char) :
    runTokens (text ++ c :: rest) = runTokens text ++ runTokens rest := by
  rw [runTokens, runs_append_cons hc, List.filterMap_append]
  rfl

/-- The identifier of a run that is one. -/
theorem identifier?_of_isIdentifier {name : List Char} (h : IsIdentifier name) :
    identifier? name = some (String.ofList (name.map Char.toLower)) := by
  match name, h with
  | c :: d :: rest, h =>
    have hstart : c.isDigit = false := h.start c rfl
    simp [identifier?, hstart]
  | [_], h => exact absurd h.long (by simp)
  | [], h => exact absurd h.long (by simp)

/-! ## What a scan finds -/

/-- The characters up to the first that cannot stand in an identifier are one if an identifier starts
there. -/
theorem isIdentifier_takeWhile {name text : List Char} (hname : IsIdentifier name)
    (hstarts : name <+: text) : IsIdentifier (text.takeWhile isWordChar) := by
  obtain ⟨rest, rfl⟩ := hstarts
  rw [List.takeWhile_append_of_pos hname.wordChars]
  refine ⟨?_, ?_, ?_⟩
  · intro c hc
    rcases List.mem_append.mp hc with hc | hc
    · exact hname.wordChars c hc
    · exact List.mem_takeWhile_imp hc
  · intro c hc
    cases name with
    | nil => exact absurd hname.long (by simp)
    | cons first name => exact hname.start c hc
  · have := hname.long
    simp only [List.length_append]
    omega

/-- Behind the longest identifier no character follows that can stand in one. -/
theorem head?_of_longest {name rest : List Char} (hname : IsIdentifier name)
    (hlongest : ∀ longer, IsIdentifier longer → longer <+: name ++ rest →
      longer.length ≤ name.length) : ∀ c ∈ rest.head?, isWordChar c = false := by
  intro c hc
  cases rest with
  | nil => cases hc
  | cons d rest =>
    obtain rfl : d = c := by simpa using hc
    by_contra hword
    have hlonger := hlongest _ (isIdentifier_takeWhile hname (List.prefix_append name (d :: rest)))
      (List.takeWhile_prefix _)
    rw [Bool.not_eq_false] at hword
    simp only [List.takeWhile_append_of_pos hname.wordChars, List.length_append,
      List.takeWhile_cons_of_pos hword, List.length_cons] at hlonger
    omega

/-- A text that starts with no character of an identifier has the identifiers that follow. -/
theorem runTokens_of_head? {rest : List Char} (h : ∀ c ∈ rest.head?, isWordChar c = false) :
    ∃ more, runs [] rest = [] :: more ∧ more.filterMap identifier? = runTokens rest := by
  cases rest with
  | nil => exact ⟨[], rfl, rfl⟩
  | cons c rest =>
    have hc := h c rfl
    exact ⟨runs [] rest, by simp [runs, hc], by simp [runTokens, runs, hc]⟩

/-- Behind an identifier, with no character of one next to it, the search starts anew. -/
theorem runTokens_found {name rest : List Char} (hname : IsIdentifier name)
    (hrest : ∀ c ∈ rest.head?, isWordChar c = false) :
    runTokens (name ++ rest) = String.ofList (name.map Char.toLower) :: runTokens rest := by
  obtain ⟨more, hmore, htokens⟩ := runTokens_of_head? hrest
  obtain ⟨first, more', hruns, hopen⟩ := runs_eq name.reverse rest
  rw [hmore] at hruns
  obtain ⟨rfl, rfl⟩ := List.cons.inj hruns
  have hname' := identifier?_of_isIdentifier hname
  rw [runTokens, runs_append hname.wordChars, List.append_nil, hopen]
  simp [hname', htokens]

/-- Where no identifier starts, none is missed by going on. -/
theorem runTokens_skipped {c : Char} {rest : List Char}
    (hnone : ∀ name, IsIdentifier name → ¬name <+: c :: rest) :
    runTokens (c :: rest) = runTokens rest := by
  by_cases hc : isWordChar c = true
  · obtain ⟨first, more, hrest, hopen⟩ := runs_eq [c] rest
    have hruns : runs [] (c :: rest) = (c :: first) :: more := by simpa [runs, hc] using hopen
    have hsame : identifier? (c :: first) = identifier? first := by
      cases hdigit : c.isDigit with
      | true => simp [identifier?, hdigit]
      | false =>
        have hfirst : first = [] := by
          cases rest with
          | nil =>
            cases hrest
            rfl
          | cons d rest =>
            by_contra hne
            have hd : isWordChar d = true := by
              by_contra hd
              simp only [runs, hd, if_false] at hrest
              exact hne (List.cons.inj hrest).1.symm
            refine hnone [c, d] ⟨by simp [hc, hd], by simpa using hdigit, by simp⟩ ?_
            exact ⟨rest, rfl⟩
        simp [hfirst, identifier?, hdigit]
    simp only [runTokens, hruns, hrest, List.filterMap_cons, hsame]
  · simp [runTokens, runs, hc]

/-- A scan finds the identifiers of the text, each time that they stand there. -/
theorem Scans.map_eq_runTokens {text : List Char} {names : List (List Char)}
    (h : Scans text names) :
    names.map (fun name => String.ofList (name.map Char.toLower)) = runTokens text := by
  induction h with
  | done => rfl
  | found name rest names identifier longest _ ih =>
    rw [List.map_cons, ih, runTokens_found identifier (head?_of_longest identifier longest)]
  | skipped c rest names none _ ih => rw [ih, runTokens_skipped none]

/-- Every text can be scanned. -/
theorem exists_scans (text : List Char) : ∃ names, Scans text names := by
  induction hlength : text.length using Nat.strongRecOn generalizing text with
  | ind length ih =>
    cases text with
    | nil => exact ⟨[], .done⟩
    | cons c rest =>
      by_cases hsome : ∃ name, IsIdentifier name ∧ name <+: c :: rest
      · obtain ⟨name, hname, hstarts⟩ := hsome
        have hlongest := isIdentifier_takeWhile hname hstarts
        have hsplit := List.takeWhile_append_dropWhile (p := isWordChar) (l := c :: rest)
        have hlong := hlongest.long
        have hshorter : ((c :: rest).dropWhile isWordChar).length < length := by
          have := congrArg List.length hsplit
          rw [List.length_append] at this
          omega
        obtain ⟨names, hnames⟩ := ih _ hshorter _ rfl
        have hfound := Scans.found _ _ names hlongest ?_ hnames
        · exact ⟨_, hsplit ▸ hfound⟩
        rintro longer hlonger ⟨tail, htail⟩
        rw [hsplit] at htail
        simp [← htail, List.takeWhile_append_of_pos hlonger.wordChars]
      · obtain ⟨names, hnames⟩ := ih rest.length (by simp [← hlength]) rest rfl
        exact ⟨names, .skipped c rest names (fun name hname hstarts => hsome ⟨name, hname, hstarts⟩)
          hnames⟩

/-- The identifiers of a text are those that a scan finds. -/
theorem mem_tokens_iff {text token : String} : token ∈ tokens text ↔ Holds text token := by
  rw [mem_tokens]
  constructor
  · intro h
    obtain ⟨names, hnames⟩ := exists_scans text.toList
    rw [← hnames.map_eq_runTokens, List.mem_map] at h
    obtain ⟨name, hname, rfl⟩ := h
    exact ⟨names, hnames, name, hname, rfl⟩
  · rintro ⟨names, hnames, name, hname, rfl⟩
    rw [← hnames.map_eq_runTokens]
    exact List.mem_map_of_mem hname

instance (text : String) : DecidablePred (Holds text) :=
  fun _ => decidable_of_iff _ mem_tokens_iff

/-- The identifiers on both sides of a character that cannot stand in one are those of both. -/
theorem holds_append {first separator rest token : String} {c : Char}
    (hseparator : separator.toList = [c]) (hc : isWordChar c = false) :
    Holds (first ++ separator ++ rest) token ↔ Holds first token ∨ Holds rest token := by
  simp only [← mem_tokens_iff, mem_tokens, String.toList_append, hseparator, List.append_assoc,
    List.singleton_append, runTokens_append_cons hc, List.mem_append]

end UsageAudit.Overlap

import Mathlib.Data.List.Sort
import Mathlib.Data.String.Basic
import UsageAudit.Database.SymbolStore
import UsageAudit.Proofs.EscapedPatterns

/-!
# Looking up modules in a database

A symbol is known in the repositories that hold a row for it, and these are listed in order, each
once. For a module a row need not be for the module itself: it may also be for what lies below. There
the name of the row is compared by a pattern, in which letters count in either case. This file says
exactly which rows answer the question for a module, and when these are more than the module has.
-/

namespace UsageAudit

/-- Whether a sighting lists the given repositories and no others, in order and each once. -/
structure Sighting.Lists (sighting : Sighting) (held : String → Prop) : Prop where
  known_iff : sighting.known = true ↔ ∃ name, held name
  mem_iff (name : String) : name ∈ sighting.locations ↔ held name
  ordered : sighting.locations.Pairwise (· < ·)

/-- There is no more than one sighting that lists given repositories. -/
theorem Sighting.Lists.unique {sighting sighting' : Sighting} {held : String → Prop}
    (h : sighting.Lists held) (h' : sighting'.Lists held) : sighting = sighting' := by
  obtain ⟨known, locations⟩ := sighting
  obtain ⟨known', locations'⟩ := sighting'
  have hknown : known = known' := Bool.eq_iff_iff.mpr (h.known_iff.trans h'.known_iff.symm)
  have hlocations : locations = locations' :=
    h.ordered.eq_of_mem_iff h'.ordered fun name => (h.mem_iff name).trans (h'.mem_iff name).symm
  rw [hknown, hlocations]

/-- The same repositories can be told in other words. -/
theorem Sighting.Lists.of_iff {sighting : Sighting} {held held' : String → Prop}
    (h : sighting.Lists held) (hiff : ∀ name, held name ↔ held' name) : sighting.Lists held' :=
  (funext fun name => propext (hiff name) : held = held') ▸ h

/-- Where a symbol is found nowhere, it is not known. -/
theorem Sighting.lists_names {names : List String} (hordered : names.Pairwise (· < ·)) :
    (if names.isEmpty then missing else found names).Lists (· ∈ names) := by
  cases names with
  | nil => exact ⟨by simp [missing], by simp [missing], .nil⟩
  | cons first rest => exact ⟨by simp [found], fun _ => .rfl, hordered⟩

namespace Database

/-- Whether a repository of the given name holds a row that is wanted. -/
def Holds (database : Database) (wanted : SymbolRow → Prop) (name : Content) : Prop :=
  ∃ entry ∈ database.symbols.rows, wanted entry.2 ∧
    database.repositories.get? entry.2.repository = some name

/-! ## The repositories of any symbol -/

/-- Names are read if they all are texts. -/
theorem mapM_readText {contents : List Content} (h : ∀ bytes, .blob bytes ∉ contents) :
    ∃ names, contents.mapM (readText 0 "name") = .ok names ∧ contents = names.map .text := by
  induction contents with
  | nil => exact ⟨[], rfl, rfl⟩
  | cons content rest ih =>
    obtain ⟨names, hnames, rfl⟩ := ih fun bytes hmem => h bytes (.tail _ hmem)
    cases content with
    | text name => exact ⟨name :: names, by simp [hnames]; rfl, rfl⟩
    | blob bytes => exact absurd (.head _) (h bytes)

/-- Names are not read if there are bytes among them. -/
theorem mapM_readText_of_blob {contents : List Content} {bytes : List UInt8}
    (h : .blob bytes ∈ contents) :
    contents.mapM (readText 0 "name") = .error (wrongColumn 0 "name") := by
  induction contents with
  | nil => cases h
  | cons content rest ih =>
    cases content with
    | text name =>
      have hrest := ih (by simpa using h)
      simp [hrest]
      rfl
    | blob bytes => rfl

/-- Of members that are the same, one is left. -/
theorem nodup_eraseDups {γ : Type} [BEq γ] [LawfulBEq γ] (members : List γ) :
    members.eraseDups.Nodup := by
  induction hcount : members.length using Nat.strongRecOn generalizing members with
  | ind count ih =>
    cases members with
    | nil => simp
    | cons member rest =>
      rw [List.eraseDups_cons, List.nodup_cons]
      refine ⟨by simp, ih _ ?_ _ rfl⟩
      have hlength := List.length_filter_le (fun other => !other == member) rest
      simp only [List.length_cons] at hcount
      omega

/-- Different names that are sorted are in order. -/
theorem pairwise_mergeSort_names {names : List String} (hnodup : names.Nodup) :
    (names.mergeSort fun a b => !decide (b < a)).Pairwise (· < ·) := by
  have hsorted : (names.mergeSort fun a b => !decide (b < a)).Pairwise
      fun a b => (!decide (b < a)) = true := by
    apply List.pairwise_mergeSort
    · intro a b c hab hbc
      simp only [Bool.not_eq_true', decide_eq_false_iff_not, not_lt] at hab hbc ⊢
      exact hab.trans hbc
    · intro a b
      simp only [Bool.or_eq_true, Bool.not_eq_true', decide_eq_false_iff_not, not_lt]
      exact le_total a b
  refine (hsorted.and ((List.mergeSort_perm _ _).nodup_iff.mpr hnodup)).imp ?_
  rintro a b ⟨hle, hne⟩
  simp only [Bool.not_eq_true', decide_eq_false_iff_not, not_lt] at hle
  exact lt_of_le_of_ne hle hne

/-- The contents that are read for a symbol are the names of the repositories that hold it. -/
theorem mem_eraseDups_iff (database : Database) (test : SymbolRow → Bool) (name : Content) :
    name ∈ (((database.symbols.rows.map Prod.snd).filter test).filterMap fun row =>
        database.repositories.get? row.repository).eraseDups ↔
      database.Holds (fun row => test row = true) name := by
  simp only [List.mem_eraseDups, List.mem_filterMap, List.mem_filter, List.mem_map, Holds]
  constructor
  · rintro ⟨_, ⟨⟨entry, hentry, rfl⟩, htest⟩, hname⟩
    exact ⟨entry, hentry, htest, hname⟩
  · rintro ⟨entry, hentry, htest, hname⟩
    exact ⟨entry.2, ⟨⟨entry, hentry, rfl⟩, htest⟩, hname⟩

section Symbols

variable (database : Database) (kind : SymbolKind) (qualifiers : List String)

/-- An open pool gives the answer of the database. -/
theorem answer_findSymbol {pool : Pool} (hopen : pool.isClosed = false) :
    (database.graph.findSymbol kind qualifiers pool).answer =
      database.findSymbol kind qualifiers := by
  simp [graph, knowledge, Pool.ask, hopen]

/-- A symbol that a repository without a proper name holds has no answer. -/
theorem findSymbol_of_blob {bytes : List UInt8}
    (h : database.Holds (fun row => row.answers kind (qualifiedName qualifiers) = true)
      (.blob bytes)) :
    database.findSymbol kind qualifiers = .error (wrongColumn 0 "name") := by
  have hread := mapM_readText_of_blob ((mem_eraseDups_iff _ _ _).mpr h)
  simp [findSymbol, locations, hread]

/-- A symbol that no such repository holds is known in the repositories that hold it. -/
theorem exists_findSymbol_lists
    (h : ∀ bytes, ¬database.Holds (fun row => row.answers kind (qualifiedName qualifiers) = true)
      (.blob bytes)) :
    ∃ sighting, database.findSymbol kind qualifiers = .ok sighting ∧
      sighting.Lists fun name =>
        database.Holds (fun row => row.answers kind (qualifiedName qualifiers) = true)
          (.text name) := by
  simp only [← mem_eraseDups_iff] at h ⊢
  obtain ⟨names, hread, hcontents⟩ := mapM_readText h
  have hnodup : names.Nodup := (hcontents ▸ nodup_eraseDups _).of_map _
  have hanswer : database.findSymbol kind qualifiers =
      .ok (if (names.mergeSort fun a b => !decide (b < a)).isEmpty then .missing
        else .found (names.mergeSort fun a b => !decide (b < a))) := by
    rw [findSymbol, locations, hread]
    rfl
  have hlists := Sighting.lists_names (pairwise_mergeSort_names hnodup)
  refine ⟨_, hanswer, hlists.of_iff fun name => ?_⟩
  rw [hcontents]
  simp

end Symbols

/-! ## Modules -/

/-- Whether a row is the module of the given name or one below it, letter by letter. -/
def SymbolRow.IsWithin (row : SymbolRow) (name : String) : Prop :=
  row.kind = .text SymbolKind.ofModule.name ∧ ∃ qualified, row.qualified = .text qualified ∧
    (qualified = name ∨ name.toList ++ ['.'] <+: qualified.toList)

/-- Whether a row is the module of the given name, or a module that seems to lie below it. -/
def SymbolRow.SeemsWithin (row : SymbolRow) (name : String) : Prop :=
  row.kind = .text SymbolKind.ofModule.name ∧
    (row.qualified = .text name ∨ Pattern.SeemsBelow name.toList row.qualified.chars)

/-- The rows that answer the question for a module are those that seem to be within it. -/
theorem SymbolRow.isModule_iff (row : SymbolRow) (name : String) :
    row.isModule name = true ↔ row.SeemsWithin name := by
  simp only [isModule, SeemsWithin, Bool.and_eq_true, Bool.or_eq_true, beq_iff_eq,
    Pattern.admits_below_iff]

/-- What is within a module seems to be. -/
theorem SymbolRow.IsWithin.seemsWithin {row : SymbolRow} {name : String} (h : row.IsWithin name) :
    row.SeemsWithin name := by
  obtain ⟨hkind, qualified, hqualified, rfl | hprefix⟩ := h
  · exact ⟨hkind, Or.inl hqualified⟩
  · refine ⟨hkind, Or.inr ?_⟩
    rw [hqualified]
    exact Pattern.seemsBelow_of_prefix hprefix

section Modules

variable (database : Database) (name : String)

/-- Whether a repository holds a module or one below it. -/
def HoldsModule (repository : Content) : Prop := database.Holds (·.IsWithin name) repository

/-- Whether a repository seems to hold a module or one below it. -/
def SeemsToHoldModule (repository : Content) : Prop :=
  database.Holds (·.SeemsWithin name) repository

/-- A repository that holds a module seems to. -/
theorem HoldsModule.seemsToHoldModule {database : Database} {name : String} {repository : Content}
    (h : database.HoldsModule name repository) : database.SeemsToHoldModule name repository := by
  obtain ⟨entry, hentry, hwithin, hrepository⟩ := h
  exact ⟨entry, hentry, hwithin.seemsWithin, hrepository⟩

/-- The repositories that answer the question for a module are those that seem to hold it. -/
theorem holds_answers_iff (repository : Content) :
    database.Holds (fun row => row.answers .ofModule (qualifiedName [name]) = true) repository ↔
      database.SeemsToHoldModule name repository := by
  have hname : qualifiedName [name] = name := by simp [qualifiedName]
  have hrow (row : SymbolRow) : row.answers .ofModule name = true ↔ row.SeemsWithin name :=
    row.isModule_iff name
  simp only [Holds, SeemsToHoldModule, hname, hrow]

/-- A module has no answer if a repository without a proper name seems to hold it. -/
theorem findSymbol_ofModule_of_blob
    (h : ∃ bytes, database.SeemsToHoldModule name (.blob bytes)) :
    database.findSymbol .ofModule [name] = .error (wrongColumn 0 "name") := by
  obtain ⟨bytes, hheld⟩ := h
  exact findSymbol_of_blob database .ofModule [name] ((holds_answers_iff ..).mpr hheld)

/-- A module is known in the repositories that seem to hold it. -/
theorem exists_findSymbol_ofModule_lists
    (h : ¬∃ bytes, database.SeemsToHoldModule name (.blob bytes)) :
    ∃ sighting, database.findSymbol .ofModule [name] = .ok sighting ∧
      sighting.Lists fun repository => database.SeemsToHoldModule name (.text repository) := by
  obtain ⟨sighting, hfound, hlists⟩ := exists_findSymbol_lists database .ofModule [name]
    fun bytes hheld => h ⟨bytes, (holds_answers_iff ..).mp hheld⟩
  exact ⟨sighting, hfound, hlists.of_iff fun repository => holds_answers_iff ..⟩

/-- What seems to be held is what is held if nothing else seems to be. -/
theorem lists_holdsModule_iff {sighting : Sighting}
    (h : sighting.Lists fun repository => database.SeemsToHoldModule name (.text repository)) :
    sighting.Lists (fun repository => database.HoldsModule name (.text repository)) ↔
      ∀ repository, database.SeemsToHoldModule name (.text repository) →
        database.HoldsModule name (.text repository) := by
  constructor
  · intro hholds repository hseems
    exact (hholds.mem_iff repository).mp ((h.mem_iff repository).mpr hseems)
  · intro hall
    exact h.of_iff fun repository => ⟨hall repository, HoldsModule.seemsToHoldModule⟩

/-- A module is known in the repositories that hold a row for it or for a module that seems to lie
below it, where letters count in either case. These are listed in order, each once. So the answer is
right to the letter if and only if every repository that seems to hold the module does. -/
theorem findSymbol_ofModule (pool : Pool) (hopen : pool.isClosed = false) :
    let answer := (database.graph.findSymbol .ofModule [name] pool).answer
    ((∃ bytes, database.SeemsToHoldModule name (.blob bytes)) →
      answer = .error (wrongColumn 0 "name")) ∧
    ((¬∃ bytes, database.SeemsToHoldModule name (.blob bytes)) → ∃ sighting,
      answer = .ok sighting ∧
      sighting.Lists (fun repository => database.SeemsToHoldModule name (.text repository)) ∧
      (sighting.Lists (fun repository => database.HoldsModule name (.text repository)) ↔
        ∀ repository, database.SeemsToHoldModule name (.text repository) →
          database.HoldsModule name (.text repository))) := by
  simp only [answer_findSymbol database .ofModule [name] hopen]
  refine ⟨findSymbol_ofModule_of_blob database name, fun htexts => ?_⟩
  obtain ⟨sighting, hfound, hlists⟩ := exists_findSymbol_ofModule_lists database name htexts
  exact ⟨sighting, hfound, hlists, lists_holdsModule_iff database name hlists⟩

end Modules

/-! ## A module in two repositories -/

/-- The row of a module in a repository. -/
def widgets (repository : Int) : SymbolRow :=
  ⟨repository, .text "module", .text "acme.widgets", none⟩

/-- Two repositories that hold the same module. -/
def twoShelves : Database :=
  { empty with
    repositories := ⟨[(1, .text "acme-fork"), (2, .text "acme")], 2⟩
    symbols := ⟨[(1, widgets 1), (2, widgets 2)], 2⟩ }

/-- Both repositories hold the module and nothing else. -/
theorem twoShelves_holds_iff (wanted : SymbolRow → Prop) (repository : Content) :
    twoShelves.Holds wanted repository ↔
      wanted (widgets 1) ∧ .text "acme-fork" = repository ∨
      wanted (widgets 2) ∧ .text "acme" = repository := by
  simp [Holds, twoShelves, widgets, Numbered.get?]

/-- Where the module is wanted, both repositories are listed. -/
theorem lists_twoShelves {wanted : SymbolRow → Prop} (h : ∀ number, wanted (widgets number)) :
    (Sighting.found ["acme", "acme-fork"]).Lists fun repository =>
      twoShelves.Holds wanted (.text repository) := by
  simp only [twoShelves_holds_iff, h, true_and]
  refine ⟨by simp [Sighting.found], fun name => ?_, ?_⟩
  · simp [Sighting.found, eq_comm, or_comm]
  · exact List.pairwise_pair.mpr (by decide)

/-- Neither of the repositories has a name that is no text. -/
theorem not_twoShelves_holds_blob (wanted : SymbolRow → Prop) :
    ¬∃ bytes, twoShelves.Holds wanted (.blob bytes) := by
  simp [twoShelves_holds_iff]

/-- What is below a package makes it known. -/
theorem findSymbol_ofModule_twoShelves :
    let pool := Pool.ofSize "graph.db" 2
    pool.isClosed = false ∧ (¬∃ bytes, twoShelves.SeemsToHoldModule "acme" (.blob bytes)) ∧
      (twoShelves.graph.findSymbol .ofModule ["acme"] pool).answer =
        .ok (.found ["acme", "acme-fork"]) ∧
      (Sighting.found ["acme", "acme-fork"]).Lists fun repository =>
        twoShelves.HoldsModule "acme" (.text repository) := by
  intro pool
  have hopen : pool.isClosed = false := Pool.isClosed_ofSize ..
  have htexts := not_twoShelves_holds_blob (·.SeemsWithin "acme")
  have hwithin (number : Int) : (widgets number).IsWithin "acme" := by
    simp [SymbolRow.IsWithin, widgets, SymbolKind.name]
  obtain ⟨sighting, hanswer, hlists, -⟩ :=
    (findSymbol_ofModule twoShelves "acme" pool hopen).2 htexts
  have hboth : (Sighting.found ["acme", "acme-fork"]).Lists fun repository =>
      twoShelves.SeemsToHoldModule "acme" (.text repository) :=
    lists_twoShelves fun number => (hwithin number).seemsWithin
  obtain rfl := hlists.unique hboth
  exact ⟨hopen, htexts, hanswer, lists_twoShelves hwithin⟩

/-- A name in capitals is found as well, though no repository holds a module within it. -/
theorem capital_module_found :
    (twoShelves.graph.findSymbol .ofModule ["ACME"] (Pool.ofSize "graph.db" 2)).answer =
        .ok (.found ["acme", "acme-fork"]) ∧
      ¬∃ repository, twoShelves.HoldsModule "ACME" repository := by
  have hseems (number : Int) : (widgets number).SeemsWithin "ACME" := by
    simp [SymbolRow.SeemsWithin, Pattern.SeemsBelow, Pattern.folded, widgets, Content.chars,
      SymbolKind.name]
  have hnone (number : Int) : ¬(widgets number).IsWithin "ACME" := by
    simp [SymbolRow.IsWithin, widgets]
  constructor
  · obtain ⟨sighting, hanswer, hlists⟩ := exists_findSymbol_ofModule_lists twoShelves "ACME"
      (not_twoShelves_holds_blob _)
    rw [answer_findSymbol twoShelves _ _ (Pool.isClosed_ofSize ..), hanswer,
      hlists.unique (lists_twoShelves hseems)]
  · simp [HoldsModule, twoShelves_holds_iff, hnone]

end Database

end UsageAudit

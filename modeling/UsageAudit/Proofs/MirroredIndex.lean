import Mathlib.Data.List.Nodup
import UsageAudit.Database.Tables

/-!
# Examples and the index of their words

An index mirrors the examples if it holds each of them once, by its number, with the content and the
summary that it has now. Adding examples, taking them away and making the database ready keep it so,
whatever was indexed before. Changing an example does not, unless it leaves the number and all that is
indexed alone: no change reaches the index, and making the database ready again only adds examples whose
numbers are missing.
-/

namespace UsageAudit.Database

/-! ## Numbered rows -/

namespace Numbered

variable {ρ : Type} {table changed : Numbered ρ} {rows placed : List (Int × ρ)} {number moved : Int}
  {row : ρ}

/-- The rows stand in the order of their numbers, each of which is there once. -/
def Ordered (table : Numbered ρ) : Prop := table.rows.Pairwise fun a b => a.1 < b.1

/-- No rows are in order. -/
theorem ordered_empty : (empty : Numbered ρ).Ordered := List.Pairwise.nil

/-- The numbers of ordered rows are all different. -/
theorem Ordered.nodup (hordered : table.Ordered) : (table.rows.map Prod.fst).Nodup :=
  List.pairwise_map.mpr (hordered.imp fun hbefore => Int.ne_of_lt hbefore)

/-- A row is placed between the rows of lesser and those of greater numbers. -/
theorem place?_eq_some (hordered : rows.Pairwise fun a b => a.1 < b.1)
    (hplaced : place? number row rows = some placed) :
    ∃ before after, rows = before ++ after ∧ placed = before ++ (number, row) :: after ∧
      (∀ entry ∈ before, entry.1 < number) ∧ ∀ entry ∈ after, number < entry.1 := by
  induction rows generalizing placed with
  | nil =>
    simp only [place?, Option.some.injEq] at hplaced
    exact ⟨[], [], rfl, hplaced.symm, by simp, by simp⟩
  | cons first rest ih =>
    obtain ⟨n, other⟩ := first
    obtain ⟨hfirst, hrest⟩ := List.pairwise_cons.mp hordered
    simp only [place?] at hplaced
    split at hplaced
    next hbefore =>
      have hafter : ∀ entry ∈ (n, other) :: rest, number < entry.1 :=
        List.forall_mem_cons.mpr ⟨hbefore, fun entry h => Int.lt_trans hbefore (hfirst entry h)⟩
      exact ⟨[], _, rfl, (Option.some.inj hplaced).symm, by simp, hafter⟩
    next hnotBefore =>
      split at hplaced
      next => cases hplaced
      next hne =>
        have hn : n < number := Int.lt_iff_le_and_ne.mpr ⟨Int.not_lt.mp hnotBefore, Ne.symm hne⟩
        obtain ⟨tail, htail, rfl⟩ := Option.map_eq_some_iff.mp hplaced
        obtain ⟨before, after, rfl, rfl, hbefore, hafter⟩ := ih hrest htail
        exact ⟨(n, other) :: before, after, rfl, rfl, List.forall_mem_cons.mpr ⟨hn, hbefore⟩, hafter⟩

/-- A placed row is there beside those that were. -/
theorem mem_place? (hordered : rows.Pairwise fun a b => a.1 < b.1)
    (hplaced : place? number row rows = some placed) (entry : Int × ρ) :
    entry ∈ placed ↔ entry = (number, row) ∨ entry ∈ rows := by
  obtain ⟨before, after, rfl, rfl, -, -⟩ := place?_eq_some hordered hplaced
  rw [List.mem_append, List.mem_cons, List.mem_append, or_left_comm]

/-- A row is only placed if none of the others has its number. -/
theorem ne_of_place? (hordered : rows.Pairwise fun a b => a.1 < b.1)
    (hplaced : place? number row rows = some placed) : ∀ entry ∈ rows, entry.1 ≠ number := by
  obtain ⟨before, after, rfl, -, hbefore, hafter⟩ := place?_eq_some hordered hplaced
  intro entry hentry
  rcases List.mem_append.mp hentry with hentry | hentry
  · exact Int.ne_of_lt (hbefore entry hentry)
  · exact Int.ne_of_gt (hafter entry hentry)

/-- Rows stay in order when one is placed among them. -/
theorem pairwise_place? (hordered : rows.Pairwise fun a b => a.1 < b.1)
    (hplaced : place? number row rows = some placed) : placed.Pairwise fun a b => a.1 < b.1 := by
  obtain ⟨before, after, rfl, rfl, hbefore, hafter⟩ := place?_eq_some hordered hplaced
  obtain ⟨hfront, hback, hacross⟩ := List.pairwise_append.mp hordered
  refine List.pairwise_append.mpr ⟨hfront, List.pairwise_cons.mpr ⟨hafter, hback⟩, ?_⟩
  intro entry hentry later hlater
  rcases List.mem_cons.mp hlater with rfl | hlater
  · exact hbefore entry hentry
  · exact hacross entry hentry later hlater

/-- What adding a row does: it is placed under the number that is given. -/
theorem insert?_eq_some {own : Option Int} (hadded : table.insert? own row = some (number, changed)) :
    place? number row table.rows = some changed.rows := by
  simp only [insert?, Option.bind_eq_bind, Option.bind_eq_some_iff, Option.pure_def,
    Option.some.injEq, Prod.mk.injEq] at hadded
  obtain ⟨given, -, rows, hrows, rfl, rfl⟩ := hadded
  exact hrows

/-- The rows that are left when one is taken away. -/
theorem mem_erase (entry : Int × ρ) :
    entry ∈ (table.erase number).rows ↔ entry ∈ table.rows ∧ entry.1 ≠ number := by
  simp [erase]

/-- Rows stay in order when one is taken away. -/
theorem Ordered.erase (hordered : table.Ordered) : (table.erase number).Ordered :=
  List.Pairwise.filter _ hordered

/-- What putting a row in the place of another does: it is placed among those that are left. -/
theorem replace?_eq_some (hreplaced : table.replace? number moved row = some changed) :
    place? moved row (table.erase number).rows = some changed.rows := by
  obtain ⟨rows, hrows, rfl⟩ := Option.map_eq_some_iff.mp hreplaced
  exact hrows

/-- Under one number there is one row. -/
theorem Ordered.eq_of_mem (hordered : table.Ordered) {other : ρ} (hrow : (number, row) ∈ table.rows)
    (hother : (number, other) ∈ table.rows) : row = other :=
  congrArg Prod.snd (List.inj_on_of_nodup_map hordered.nodup hrow hother rfl)

/-- The row of a number is there under it. -/
theorem mem_of_get? (hrow : table.get? number = some row) : (number, row) ∈ table.rows := by
  obtain ⟨⟨n, found⟩, hfound, rfl⟩ := Option.map_eq_some_iff.mp hrow
  have hnumber : n = number := by simpa using List.find?_some hfound
  exact hnumber ▸ List.mem_of_find?_eq_some hfound

end Numbered

/-! ## Mirrored examples -/

section Mirrors

variable {entries : List (Int × IndexedExample)} {examples : Numbered ExampleRow} {number : Int}
  {row : ExampleRow}

/-- What is indexed are examples, none of them twice, with what they hold now. -/
structure Copies (entries : List (Int × IndexedExample)) (rows : List (Int × ExampleRow)) : Prop where
  nodup : (entries.map Prod.fst).Nodup
  exists_row : ∀ ⦃number indexed⦄, (number, indexed) ∈ entries →
    ∃ row, (number, row) ∈ rows ∧ row.indexed = indexed

/-- The examples with what they hold are what is indexed, one to one by their numbers. -/
structure Mirrors (entries : List (Int × IndexedExample)) (rows : List (Int × ExampleRow)) : Prop
    extends Copies entries rows where
  rows_nodup : (rows.map Prod.fst).Nodup
  mem_entries : ∀ ⦃number row⦄, (number, row) ∈ rows → (number, row.indexed) ∈ entries

/-- An example that is added is indexed. -/
theorem Mirrors.add {added : Numbered ExampleRow} (hmirrors : Mirrors entries examples.rows)
    (hordered : examples.Ordered)
    (hadded : Numbered.place? number row examples.rows = some added.rows) :
    Mirrors (entries ++ [(number, row.indexed)]) added.rows := by
  have hmem := Numbered.mem_place? hordered hadded
  have hfree := Numbered.ne_of_place? hordered hadded
  refine ⟨⟨?nodup, ?exists_row⟩, ?rows_nodup, ?mem_entries⟩
  case rows_nodup => exact Numbered.Ordered.nodup (Numbered.pairwise_place? hordered hadded)
  case nodup =>
    rw [List.map_append, List.nodup_append]
    refine ⟨hmirrors.nodup, by simp, fun n hn m hm => ?_⟩
    obtain ⟨⟨n, indexed⟩, hentry, rfl⟩ := List.mem_map.mp hn
    obtain ⟨old, hold, -⟩ := hmirrors.exists_row hentry
    simpa [List.mem_singleton.mp hm] using hfree _ hold
  case exists_row =>
    intro n indexed hentry
    rcases List.mem_append.mp hentry with hentry | hentry
    · obtain ⟨old, hold, hindexed⟩ := hmirrors.exists_row hentry
      exact ⟨old, (hmem _).mpr (.inr hold), hindexed⟩
    · obtain ⟨rfl, rfl⟩ := Prod.mk.inj (List.mem_singleton.mp hentry)
      exact ⟨row, (hmem _).mpr (.inl rfl), rfl⟩
  case mem_entries =>
    intro n other hother
    rcases (hmem _).mp hother with hother | hother
    · obtain ⟨rfl, rfl⟩ := Prod.mk.inj hother
      simp
    · exact List.mem_append_left _ (hmirrors.mem_entries hother)

/-- An example that is taken away is indexed no more. -/
theorem Mirrors.erase (hmirrors : Mirrors entries examples.rows) (number : Int) :
    Mirrors (entries.filter fun entry => entry.1 != number) (examples.erase number).rows where
  nodup := hmirrors.nodup.sublist (List.filter_sublist.map _)
  rows_nodup := hmirrors.rows_nodup.sublist (List.filter_sublist.map _)
  exists_row _ _ hentry := by
    obtain ⟨hentry, hne⟩ := List.mem_filter.mp hentry
    obtain ⟨row, hrow, hindexed⟩ := hmirrors.exists_row hentry
    exact ⟨row, (Numbered.mem_erase _).mpr ⟨hrow, by simpa using hne⟩, hindexed⟩
  mem_entries _ _ hrow := by
    obtain ⟨hrow, hne⟩ := (Numbered.mem_erase _).mp hrow
    exact List.mem_filter.mpr ⟨hmirrors.mem_entries hrow, by simpa using hne⟩

/-- The examples whose numbers are not indexed are all that copies lack. -/
theorem Copies.complete (hcopies : Copies entries examples.rows) (hordered : examples.Ordered) :
    Mirrors (entries ++ (examples.rows.filter fun row => !entries.any fun entry => entry.1 == row.1).map
      fun (number, row) => (number, row.indexed)) examples.rows := by
  refine ⟨⟨?nodup, ?exists_row⟩, ?rows_nodup, ?mem_entries⟩
  case rows_nodup => exact hordered.nodup
  case nodup =>
    rw [List.map_append, List.map_map, List.nodup_append]
    refine ⟨hcopies.nodup, hordered.nodup.sublist (List.filter_sublist.map _), fun n hn m hm => ?_⟩
    obtain ⟨entry, hentry, rfl⟩ := List.mem_map.mp hn
    obtain ⟨missing, hmissing, rfl⟩ := List.mem_map.mp hm
    simp only [List.mem_filter, Bool.not_eq_true', List.any_eq_false, beq_iff_eq] at hmissing
    exact hmissing.2 entry hentry
  case exists_row =>
    intro n indexed hentry
    rcases List.mem_append.mp hentry with hentry | hentry
    · exact hcopies.exists_row hentry
    · obtain ⟨⟨n, row⟩, hrow, hsame⟩ := List.mem_map.mp hentry
      obtain ⟨rfl, rfl⟩ := Prod.mk.inj hsame
      exact ⟨row, List.mem_of_mem_filter hrow, rfl⟩
  case mem_entries =>
    intro n row hrow
    by_cases hindexed : ∃ indexed, (n, indexed) ∈ entries
    · obtain ⟨indexed, hentry⟩ := hindexed
      obtain ⟨copied, hcopied, rfl⟩ := hcopies.exists_row hentry
      rw [hordered.eq_of_mem hrow hcopied]
      exact List.mem_append_left _ hentry
    · refine List.mem_append_right _ (List.mem_map.mpr ⟨(n, row), ?_, rfl⟩)
      simp only [List.mem_filter, Bool.not_eq_true', List.any_eq_false, beq_iff_eq]
      exact ⟨hrow, fun entry hentry hsame => hindexed ⟨entry.2, hsame ▸ hentry⟩⟩

/-- A change of an example keeps it mirrored only if it leaves its number and all that is indexed of
it alone. -/
theorem Mirrors.change_iff {changed : Numbered ExampleRow} {old : ExampleRow} {moved : Int}
    (hmirrors : Mirrors entries examples.rows) (hordered : examples.Ordered)
    (hold : (number, old) ∈ examples.rows)
    (hchanged : Numbered.place? moved row (examples.erase number).rows = some changed.rows) :
    Mirrors entries changed.rows ↔ moved = number ∧ row.indexed = old.indexed := by
  have hmem := Numbered.mem_place? hordered.erase hchanged
  simp only [Numbered.mem_erase] at hmem
  constructor
  · intro hafter
    obtain ⟨now, hnow, hindexed⟩ := hafter.exists_row (hmirrors.mem_entries hold)
    rcases (hmem _).mp hnow with hnow | ⟨-, hne⟩
    · obtain ⟨rfl, rfl⟩ := Prod.mk.inj hnow
      exact ⟨rfl, hindexed⟩
    · exact absurd rfl hne
  · rintro ⟨rfl, hindexed⟩
    refine ⟨⟨?nodup, ?exists_row⟩, ?rows_nodup, ?mem_entries⟩
    case nodup => exact hmirrors.nodup
    case rows_nodup => exact Numbered.Ordered.nodup (Numbered.pairwise_place? hordered.erase hchanged)
    case exists_row =>
      intro n indexed hentry
      obtain ⟨other, hother, rfl⟩ := hmirrors.exists_row hentry
      by_cases hsame : n = moved
      · subst hsame
        exact ⟨row, (hmem _).mpr (.inl rfl), by rw [hindexed, hordered.eq_of_mem hold hother]⟩
      · exact ⟨other, (hmem _).mpr (.inr ⟨hother, hsame⟩), rfl⟩
    case mem_entries =>
      intro n other hother
      rcases (hmem _).mp hother with hother | ⟨hother, -⟩
      · obtain ⟨rfl, rfl⟩ := Prod.mk.inj hother
        exact hindexed ▸ hmirrors.mem_entries hold
      · exact hmirrors.mem_entries hother

end Mirrors

/-! ## Statements -/

/-- What is done to the examples of a database, to one at a time. -/
inductive Statement where
  /-- Adds an example, under a number of its own or the next one. -/
  | add (own : Option Int) (row : ExampleRow)
  /-- Puts an example, under a number of its own, in the place of the one that is there. -/
  | change (number moved : Int) (row : ExampleRow)
  | take (number : Int)
  /-- Makes the database ready again. -/
  | prepare

/-- The database after a statement. One that is refused leaves it as it was. -/
def execute (database : Database) : Statement → Database
  | .add own row => (database.addExample? own row).getD database
  | .change number moved row => (database.changeExample? number moved row).getD database
  | .take number => database.deleteExample number
  | .prepare => database.ready

/-- The database as it is at first and after each of the statements. -/
def stages (database : Database) (statements : List Statement) : List Database :=
  statements.scanl execute database

/-- Whether a statement leaves what is indexed of an example alone: it changes none, or is refused, or
neither gives the example another number nor another content or summary. -/
def Spares (database : Database) : Statement → Prop
  | .change number moved row => (database.changeExample? number moved row).isSome →
      moved = number ∧ some row.indexed = (database.examples.get? number).map ExampleRow.indexed
  | .add .. | .take _ | .prepare => True

/-- Whether each of the statements, when its turn comes, leaves what is indexed of an example alone. -/
def SparesAll (database : Database) : List Statement → Prop
  | [] => True
  | statement :: rest => database.Spares statement ∧ (database.execute statement).SparesAll rest

/-- There is an index, and it mirrors the examples. -/
def Mirrored (database : Database) : Prop :=
  ∃ entries, database.index = some entries ∧ Mirrors entries database.examples.rows

variable {database : Database}

/-- What an example that is added does, if it is. -/
theorem addExample?_eq_some {own : Option Int} {row : ExampleRow} {added : Database}
    (hadded : database.addExample? own row = some added) :
    ∃ number, Numbered.place? number row database.examples.rows = some added.examples.rows ∧
      added.index = database.index.map (· ++ [(number, row.indexed)]) := by
  simp only [addExample?, Option.bind_eq_bind, Option.bind_eq_some_iff, Option.pure_def,
    Option.some.injEq] at hadded
  obtain ⟨⟨number, examples⟩, hinsert, rfl⟩ := hadded
  exact ⟨number, Numbered.insert?_eq_some hinsert, rfl⟩

/-- What a change of an example does, if it is not refused. -/
theorem changeExample?_eq_some {number moved : Int} {row : ExampleRow} {changed : Database}
    (hchanged : database.changeExample? number moved row = some changed) :
    ∃ old, database.examples.get? number = some old ∧
      Numbered.place? moved row (database.examples.erase number).rows = some changed.examples.rows ∧
      changed.index = database.index := by
  simp only [changeExample?, Option.bind_eq_bind, Option.bind_eq_some_iff, Option.pure_def,
    Option.some.injEq] at hchanged
  obtain ⟨old, hold, examples, hreplaced, rfl⟩ := hchanged
  exact ⟨old, hold, Numbered.replace?_eq_some hreplaced, rfl⟩

/-- The examples stay in order. -/
theorem ordered_execute (hordered : database.examples.Ordered) (statement : Statement) :
    (database.execute statement).examples.Ordered := by
  cases statement with
  | add own row =>
    simp only [execute]
    cases hadded : database.addExample? own row with
    | none => exact hordered
    | some added =>
      obtain ⟨number, hplaced, -⟩ := addExample?_eq_some hadded
      exact Numbered.pairwise_place? hordered hplaced
  | change number moved row =>
    simp only [execute]
    cases hchanged : database.changeExample? number moved row with
    | none => exact hordered
    | some changed =>
      obtain ⟨old, -, hplaced, -⟩ := changeExample?_eq_some hchanged
      exact Numbered.pairwise_place? hordered.erase hplaced
  | take number => exact hordered.erase
  | prepare => exact hordered

/-- When a database is made ready, its examples are mirrored, as long as what was indexed before are
examples with what they hold now. -/
theorem mirrored_ready (hordered : database.examples.Ordered)
    (hcopies : Copies (database.index.getD []) database.examples.rows) : database.ready.Mirrored :=
  ⟨_, rfl, hcopies.complete hordered⟩

/-- Where the examples are mirrored, one statement keeps them so just if it leaves what is indexed of
an example alone. -/
theorem mirrored_execute_iff (hordered : database.examples.Ordered) (hmirrored : database.Mirrored)
    (statement : Statement) : (database.execute statement).Mirrored ↔ database.Spares statement := by
  obtain ⟨entries, hindex, hmirrors⟩ := hmirrored
  cases statement with
  | add own row =>
    refine iff_of_true ?_ trivial
    simp only [execute]
    cases hadded : database.addExample? own row with
    | none => exact ⟨entries, hindex, hmirrors⟩
    | some added =>
      obtain ⟨number, hplaced, hadds⟩ := addExample?_eq_some hadded
      exact ⟨_, by rw [Option.getD_some, hadds, hindex, Option.map_some], hmirrors.add hordered hplaced⟩
  | change number moved row =>
    simp only [execute, Spares]
    cases hchanged : database.changeExample? number moved row with
    | none => simpa using ⟨entries, hindex, hmirrors⟩
    | some changed =>
      obtain ⟨old, hold, hplaced, hkept⟩ := changeExample?_eq_some hchanged
      have hafter := hmirrors.change_iff hordered (Numbered.mem_of_get? hold) hplaced
      simp [Mirrored, hkept, hindex, hold, hafter]
  | take number =>
    refine iff_of_true ⟨_, ?_, hmirrors.erase number⟩ trivial
    simp only [execute, deleteExample, hindex, Option.map_some]
  | prepare =>
    refine iff_of_true (mirrored_ready hordered ?_) trivial
    rw [hindex]
    exact hmirrors.toCopies

/-- Where the examples are mirrored, they stay so as long as each statement leaves what is indexed of
an example alone, and no longer. -/
theorem mirrored_stages_iff (hordered : database.examples.Ordered) (hmirrored : database.Mirrored)
    (statements : List Statement) :
    (∀ stage ∈ database.stages statements, stage.Mirrored) ↔ database.SparesAll statements := by
  induction statements generalizing database with
  | nil => simpa [stages, SparesAll] using hmirrored
  | cons statement rest ih =>
    have hstep := mirrored_execute_iff hordered hmirrored statement
    simp only [stages, List.scanl_cons, List.forall_mem_cons, SparesAll] at ih ⊢
    constructor
    · rintro ⟨-, hrest⟩
      have hnext : (database.execute statement).Mirrored := hrest _ (by cases rest <;> simp)
      exact ⟨hstep.mp hnext, (ih (ordered_execute hordered statement) hnext).mp hrest⟩
    · rintro ⟨hspares, hrest⟩
      have hnext := hstep.mpr hspares
      exact ⟨hmirrored, (ih (ordered_execute hordered statement) hnext).mpr hrest⟩

/-- From the first time on that a database is made ready its examples are mirrored at all times, as
long as each statement leaves what is indexed of an example alone, and no longer. Before that there may
be no index, or one that some examples are missing from. -/
theorem mirrored_once_ready_iff (hordered : database.examples.Ordered)
    (hcopies : Copies (database.index.getD []) database.examples.rows)
    (statements : List Statement) :
    (∀ stage ∈ database.ready.stages statements, stage.Mirrored) ↔
      database.ready.SparesAll statements :=
  have hready : database.ready.examples.Ordered := hordered
  mirrored_stages_iff hready (mirrored_ready hordered hcopies) statements

/-! ## A changed example -/

/-- An example of how a thing is rendered. -/
def rendering : ExampleRow := ⟨.text "w.render()", none⟩

/-- An example of how a thing is drawn. -/
def drawing : ExampleRow := ⟨.text "w.draw()", none⟩

/-- An empty summary in the place of none is a change that the index can do without. -/
theorem mirrored_once_ready_of_summary :
    empty.examples.Ordered ∧ Copies (empty.index.getD []) empty.examples.rows ∧
      ∀ stage ∈ empty.ready.stages [.add none rendering,
        .change 1 1 { rendering with summary := some (.text "") }, .prepare, .take 1],
        stage.Mirrored := by
  have hordered : empty.examples.Ordered := Numbered.ordered_empty
  have hcopies : Copies (empty.index.getD []) empty.examples.rows := ⟨List.nodup_nil, by simp [empty]⟩
  refine ⟨hordered, hcopies, (mirrored_once_ready_iff hordered hcopies _).mpr ?_⟩
  exact ⟨trivial, fun _ => ⟨rfl, rfl⟩, trivial, trivial, trivial⟩

/-- Another content does not get into the index, not even when the database is made ready again. -/
theorem changed_example_left_behind :
    let stages := empty.ready.stages [.add none rendering, .change 1 1 drawing, .prepare]
    (stages.getLast?.map fun last => (last.examples.rows, last.index)) =
        some ([(1, drawing)], some [(1, rendering.indexed)]) ∧
      ¬∀ stage ∈ stages, stage.Mirrored := by
  refine ⟨rfl, fun hall => ?_⟩
  obtain ⟨entries, hindex, hmirrors⟩ := hall _ (List.mem_of_getLast? rfl)
  obtain rfl : [(1, rendering.indexed)] = entries := Option.some.inj hindex
  have hmem : ((1 : Int), drawing.indexed) ∈ [(1, rendering.indexed)] :=
    hmirrors.mem_entries List.mem_cons_self
  revert hmem
  decide

end UsageAudit.Database

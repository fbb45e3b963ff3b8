import UsageAudit.Proofs.GraphFindings

/-!
# What a report lists

A report puts its findings into two groups and collects suggestions from two sources. Whatever the
thresholds are, a finding is either severe or not, and there is no third group, so that nothing is
lost between the groups. A suggestion that is made more than once is listed where it was first made.
If no suggestions are asked for, none is left anywhere among the findings.
-/

namespace UsageAudit

/-- Whether a list has every member of another once, in the order in which they first come there. -/
structure FirstComers (texts distinct : List String) : Prop where
  nodup : distinct.Nodup
  mem_iff : ∀ text, text ∈ distinct ↔ text ∈ texts
  ordered : distinct.Pairwise fun first second => texts.idxOf first < texts.idxOf second

namespace FirstComers

variable {texts distinct : List String}

/-- A text that has come before changes nothing. -/
theorem append_of_mem (h : FirstComers texts distinct) {text : String} (hmem : text ∈ distinct) :
    FirstComers (texts ++ [text]) distinct where
  nodup := h.nodup
  mem_iff other := by
    have hold := (h.mem_iff text).mp hmem
    rw [h.mem_iff, List.mem_append, List.mem_singleton]
    constructor
    · exact Or.inl
    · rintro (hother | rfl)
      · exact hother
      · exact hold
  ordered := by
    refine h.ordered.imp_of_mem ?_
    intro first second hfirst hsecond hlt
    rwa [List.idxOf_append_of_mem ((h.mem_iff first).mp hfirst),
      List.idxOf_append_of_mem ((h.mem_iff second).mp hsecond)]

/-- A text that has not come before comes last. -/
theorem append_of_not_mem (h : FirstComers texts distinct) {text : String}
    (hnew : text ∉ distinct) : FirstComers (texts ++ [text]) (distinct ++ [text]) where
  nodup := by
    refine List.nodup_append.mpr ⟨h.nodup, by simp, ?_⟩
    rintro other hother last hlast rfl
    exact hnew (List.mem_singleton.mp hlast ▸ hother)
  mem_iff other := by simp [h.mem_iff]
  ordered := by
    have hnew' : text ∉ texts := fun hmem => hnew ((h.mem_iff text).mpr hmem)
    refine List.pairwise_append.mpr ⟨?_, List.pairwise_singleton _ _, ?_⟩
    · refine h.ordered.imp_of_mem ?_
      intro first second hfirst hsecond hlt
      rwa [List.idxOf_append_of_mem ((h.mem_iff first).mp hfirst),
        List.idxOf_append_of_mem ((h.mem_iff second).mp hsecond)]
    · intro first hfirst last hlast
      rw [List.mem_singleton.mp hlast, List.idxOf_append_of_mem ((h.mem_iff first).mp hfirst),
        List.idxOf_append_of_notMem hnew']
      have hbound := List.idxOf_lt_length_of_mem ((h.mem_iff first).mp hfirst)
      omega

end FirstComers

namespace Report

/-- Going on from texts that have been gone through, those to come are added where they are new. -/
theorem firstComers_foldl {texts distinct : List String} (h : FirstComers texts distinct)
    (rest : List String) :
    FirstComers (texts ++ rest)
      (rest.foldl (fun seen text => if seen.contains text then seen else seen ++ [text])
        distinct) := by
  induction rest generalizing texts distinct with
  | nil => simpa using h
  | cons text rest ih =>
    rw [List.append_cons, List.foldl_cons]
    apply ih
    split
    · rename_i hseen
      exact h.append_of_mem (by simpa using hseen)
    · rename_i hnew
      exact h.append_of_not_mem (by simpa using hnew)

/-- Texts without repetition stand where they first come. -/
theorem firstComers_distinct (texts : List String) : FirstComers texts (distinct texts) := by
  have hnone : FirstComers [] [] := ⟨.nil, by simp, .nil⟩
  exact firstComers_foldl hnone texts

end Report

variable {α : Type}

/-- A finding without its suggestion. -/
def Hallucination.withoutSuggestion (finding : Hallucination α) : Hallucination α :=
  { finding with suggestion := none }

/-- Whether findings are put into two groups, so that each of them is in one and in no other. -/
structure Findings.Grouped (findings : Findings α) : Prop where
  critical : findings.critical.Sublist findings.all
  moderate : findings.moderate.Sublist findings.all
  severe : ∀ finding ∈ findings.critical, finding.severity = .high
  lesser : ∀ finding ∈ findings.moderate, finding.severity = .medium
  exactlyOne : ∀ finding ∈ findings.all,
    (finding ∈ findings.critical ∧ finding ∉ findings.moderate) ∨
      (finding ∉ findings.critical ∧ finding ∈ findings.moderate)
  complete : (findings.critical ++ findings.moderate).Perm findings.all

/-- What is severe and what is less so make up all findings, if there is no third severity. -/
theorem Findings.grouped_of_severity {all : List (Hallucination α)}
    (h : ∀ finding ∈ all, finding.severity = .high ∨ finding.severity = .medium) :
    Findings.Grouped ⟨all.filter fun finding => finding.severity == .high,
      all.filter fun finding => finding.severity == .medium, all⟩ where
  critical := List.filter_sublist
  moderate := List.filter_sublist
  severe finding hmem := by simpa using (List.mem_filter.mp hmem).2
  lesser finding hmem := by simpa using (List.mem_filter.mp hmem).2
  exactlyOne finding hmem := by
    rcases h finding hmem with hseverity | hseverity
    · exact Or.inl (by simp [hmem, hseverity])
    · exact Or.inr (by simp [hmem, hseverity])
  complete := by
    have hlesser : (all.filter fun finding => finding.severity == .medium) =
        all.filter fun finding => !(finding.severity == .high) := by
      apply List.filter_congr
      intro finding hmem
      rcases h finding hmem with hseverity | hseverity <;> simp [hseverity]
    dsimp only
    rw [hlesser]
    exact List.filter_append_perm _ all

/-- Whatever its confidence is, a finding is severe or less so. -/
theorem Settings.severityOf_cases [Scalar α] (settings : Settings α) (confidence : α) :
    settings.severityOf confidence = .high ∨ settings.severityOf confidence = .medium := by
  unfold severityOf
  split
  · exact Or.inl rfl
  · exact Or.inr rfl

/-- Whatever is found is severe or less so. -/
theorem Fusion.severity_of_mem_findings [Scalar α] {settings : Settings α}
    {graph : GraphOutcome α} {semantic : SemanticOutcome α} {finding : Hallucination α}
    (h : finding ∈ findings settings graph semantic) :
    finding.severity = .high ∨ finding.severity = .medium := by
  have hstructural (check : Check α) (hcheck : structural? settings check = some finding) :
      finding.severity = .high ∨ finding.severity = .medium := by
    unfold structural? at hcheck
    split at hcheck <;> cases hcheck
    exact settings.severityOf_cases _
  have hweak (grounding : Grounding α) (hgrounding : semantic? settings grounding = some finding) :
      finding.severity = .high ∨ finding.severity = .medium := by
    unfold semantic? at hgrounding
    split at hgrounding <;> cases hgrounding
    exact settings.severityOf_cases _
  simp only [findings, List.mem_mergeSort, List.mem_append, List.mem_filterMap] at h
  rcases h with ⟨check, -, hcheck⟩ | hmem
  · exact hstructural check hcheck
  · split at hmem
    · obtain ⟨grounding, -, hgrounding⟩ := List.mem_filterMap.mp hmem
      exact hweak grounding hgrounding
    · cases hmem

namespace Report

/-- All suggestions that are made, in the order in which they are: those of checks that are not
valid, then those of findings. -/
def offered (graph : GraphOutcome α) (findings : List (Hallucination α)) : List String :=
  (graph.checks.filter fun check => check.verdict.status != .valid).flatMap
      (fun check => check.verdict.suggestions) ++
    findings.filterMap Hallucination.suggestion

/-- Who makes a suggestion: a check that is not valid, or a finding. -/
theorem mem_offered {graph : GraphOutcome α} {findings : List (Hallucination α)} {text : String} :
    text ∈ offered graph findings ↔
      (∃ check ∈ graph.checks, check.verdict.status ≠ .valid ∧ text ∈ check.verdict.suggestions) ∨
        ∃ finding ∈ findings, finding.suggestion = some text := by
  simp [offered, and_assoc]

/-- Whatever is shown is severe or less so. -/
theorem severity_of_mem_shown [Scalar α] {settings : Settings α} {graph : GraphOutcome α}
    {semantic : SemanticOutcome α} {options : ReportOptions} {finding : Hallucination α}
    (h : finding ∈ shown options (Fusion.fuse settings graph semantic)) :
    finding.severity = .high ∨ finding.severity = .medium := by
  unfold shown at h
  split at h
  · exact Fusion.severity_of_mem_findings h
  · obtain ⟨found, hfound, rfl⟩ := List.mem_map.mp h
    have hcases := Fusion.severity_of_mem_findings hfound
    exact hcases

/-- Where no suggestions are asked for, none is shown. -/
theorem suggestion_of_mem_shown {fusion : Fusion α} {options : ReportOptions}
    {finding : Hallucination α} (hnot : options.includeSuggestions = false)
    (h : finding ∈ shown options fusion) : finding.suggestion = none := by
  simp only [shown, hnot, Bool.false_eq_true, if_false] at h
  obtain ⟨found, -, rfl⟩ := List.mem_map.mp h
  rfl

/-- What the lists of a report are to the checks and findings that it is built of. -/
structure Lists (graph : GraphOutcome α) (fusion : Fusion α) (options : ReportOptions)
    (report : Report α) : Prop where
  grouped : report.findings.Grouped
  criticalCount : report.summary.criticalCount = report.findings.critical.length
  moderateCount : report.summary.moderateCount = report.findings.moderate.length
  findingCount : report.summary.findingCount = report.findings.all.length
  counts :
    report.summary.criticalCount + report.summary.moderateCount = report.summary.findingCount
  /-- Nothing is left out of the findings but suggestions that are not asked for. -/
  all : report.findings.all =
    if options.includeSuggestions then fusion.hallucinations
    else fusion.hallucinations.map Hallucination.withoutSuggestion
  nodup : report.suggestions.Nodup
  /-- Suggestions that are asked for are those of checks that are not valid, and of findings. -/
  suggestions : ∀ text, text ∈ report.suggestions ↔ options.includeSuggestions = true ∧
    ((∃ check ∈ graph.checks, check.verdict.status ≠ .valid ∧ text ∈ check.verdict.suggestions) ∨
      ∃ finding ∈ report.findings.all, finding.suggestion = some text)
  /-- They stand in the order in which they are first made. -/
  ordered : report.suggestions.Pairwise fun first second =>
    (offered graph report.findings.all).idxOf first <
      (offered graph report.findings.all).idxOf second
  /-- If they are not asked for, there are none, not even in the findings. -/
  omitted : options.includeSuggestions = false →
    report.suggestions = [] ∧ ∀ finding ∈ report.findings.all, finding.suggestion = none

/-- Whatever a report is built of, each of its findings is in one group and in no other, and its
suggestions are those that were made, each once and where it was first made, or none at all. -/
theorem build_lists [Scalar α] (settings : Settings α) (analysis : Analysis)
    (graph : GraphOutcome α) (semantic : SemanticOutcome α) (options : ReportOptions) :
    (build settings analysis graph semantic (Fusion.fuse settings graph semantic) options).Lists
      graph (Fusion.fuse settings graph semantic) options := by
  have hgrouped : (build settings analysis graph semantic (Fusion.fuse settings graph semantic)
      options).findings.Grouped :=
    Findings.grouped_of_severity fun _ => severity_of_mem_shown
  have hcounts := hgrouped.complete.length_eq
  rw [List.length_append] at hcounts
  have hcomers := firstComers_distinct
    (offered graph (shown options (Fusion.fuse settings graph semantic)))
  have hsuggestions : (build settings analysis graph semantic (Fusion.fuse settings graph semantic)
      options).suggestions =
        if options.includeSuggestions then
          distinct (offered graph (shown options (Fusion.fuse settings graph semantic)))
        else [] := rfl
  exact {
    grouped := hgrouped
    criticalCount := rfl
    moderateCount := rfl
    findingCount := rfl
    counts := hcounts
    all := rfl
    nodup := by
      rw [hsuggestions]
      split
      · exact hcomers.nodup
      · exact .nil
    suggestions := by
      intro text
      rw [hsuggestions]
      split
      · rename_i hasked
        rw [hcomers.mem_iff, mem_offered]
        exact (and_iff_right hasked).symm
      · rename_i hnot
        simp [hnot]
    ordered := by
      rw [hsuggestions]
      split
      · exact hcomers.ordered
      · exact .nil
    omitted := by
      intro hnot
      rw [hsuggestions]
      exact ⟨by simp [hnot], fun _ => suggestion_of_mem_shown hnot⟩ }

/-- An import that is not known and that of something known, with suggestions for both, and one more
that is hardly known. -/
def ghostChecks : GraphOutcome Rat where
  checks := [
    ⟨⟨0, .ofImport, "ghost", 1⟩, .ofImport, "ghost",
      (Verdict.plain .notFound (1 / 5) "unknown").withSuggestion "Verify that 'ghost' exists", []⟩,
    ⟨⟨1, .ofImport, "numpy", 2⟩, .ofImport, "numpy",
      (Verdict.plain .valid (4 / 5) "known").withSuggestion "Pin the version", []⟩,
    ⟨⟨2, .ofImport, "ghost", 3⟩, .ofImport, "ghost",
      ((Verdict.plain .uncertain (2 / 5) "doubted").withSuggestion
        "Verify that 'ghost' exists").withSuggestion "Look at the index", []⟩]
  skipped := 0

/-- A grounding of a further import by one example that is not similar enough. -/
def weakGrounding : SemanticOutcome Rat where
  available := true
  results := [.classify .standard ⟨3, .ofImport, "pandas", 4⟩ "pandas" [⟨"import pandas", 1 / 5⟩]]
  reason := none

/-- Of three findings two are severe. Three suggestions are left of five that are made, and the one
of the known import is not among them. -/
theorem build_lists_ghostChecks :
    let fusion := Fusion.fuse .standard ghostChecks weakGrounding
    let report := build .standard ⟨⟨"ghosts.py", 4, 0, "", none⟩, []⟩ ghostChecks weakGrounding
      fusion ⟨true, false⟩
    report.Lists ghostChecks fusion ⟨true, false⟩ ∧ report.summary.findingCount = 3 ∧
      report.summary.criticalCount = 2 ∧
      report.suggestions = ["Verify that 'ghost' exists", "Look at the index",
        "No close usage example for 'pandas'; check the documentation"] := by
  intro fusion report
  have hsorted : fusion.hallucinations =
      ghostChecks.checks.filterMap (Fusion.structural? .standard) ++
        weakGrounding.results.filterMap (Fusion.semantic? .standard) := by
    refine List.mergeSort_of_pairwise ?_
    decide +kernel
  have hfindingCount : report.summary.findingCount = fusion.hallucinations.length := rfl
  have hcriticalCount : report.summary.criticalCount =
      (fusion.hallucinations.filter fun finding => finding.severity == .high).length := rfl
  have hsuggestions : report.suggestions = suggestionsOf ghostChecks fusion.hallucinations := rfl
  rw [hfindingCount, hcriticalCount, hsuggestions, hsorted]
  refine ⟨build_lists .standard ⟨⟨"ghosts.py", 4, 0, "", none⟩, []⟩ ghostChecks weakGrounding
    ⟨true, false⟩, ?_⟩
  decide +kernel

end Report

end UsageAudit

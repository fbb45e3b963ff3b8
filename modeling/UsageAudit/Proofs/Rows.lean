import Mathlib.Data.List.Forall2

/-!
# Related rows

Two rows whose members are related one by one are taken apart and put together: at a member in
question, by way of a row between them, or where one of them is made of the other.
-/

namespace UsageAudit

variable {α β γ : Type}

/-- What a row is told off against holds something for each of its members. -/
theorem exists_of_mem_right {related : α → β → Prop} {members : List α} {values : List β}
    (h : List.Forall₂ related members values) {value : β} (hmem : value ∈ values) :
    ∃ member ∈ members, related member value := by
  induction h with
  | nil => simp at hmem
  | cons hfirst _ ih =>
    rcases List.mem_cons.mp hmem with rfl | hmem
    · exact ⟨_, by simp, hfirst⟩
    · obtain ⟨member, hmember, hrelated⟩ := ih hmem
      exact ⟨member, List.mem_cons_of_mem _ hmember, hrelated⟩

/-- A row is related to one with a member in question by the parts of the row. -/
theorem forall₂_split {related : α → β → Prop} {members : List α} {before behind : List β}
    {value : β} :
    List.Forall₂ related members (before ++ value :: behind) ↔ ∃ first member rest,
      members = first ++ member :: rest ∧ List.Forall₂ related first before ∧
        related member value ∧ List.Forall₂ related rest behind := by
  constructor
  · induction before generalizing members with
    | nil =>
      intro h
      obtain ⟨member, rest, hmember, hrest, rfl⟩ := List.forall₂_cons_right_iff.mp h
      exact ⟨[], member, rest, rfl, .nil, hmember, hrest⟩
    | cons other before ih =>
      intro h
      obtain ⟨head, tail, hhead, htail, rfl⟩ := List.forall₂_cons_right_iff.mp h
      obtain ⟨first, member, rest, rfl, hfirst, hmember, hrest⟩ := ih htail
      exact ⟨head :: first, member, rest, rfl, .cons hhead hfirst, hmember, hrest⟩
  · rintro ⟨first, member, rest, rfl, hfirst, hmember, hrest⟩
    exact List.rel_append hfirst (.cons hmember hrest)

/-- Where a function gives something for the members that pass a test, and for no others, what it
gives is related to these members one by one. -/
theorem forall₂_filterMap {f : β → Option γ} {test : β → Bool} {related : β → γ → Prop}
    (hsome : ∀ member, test member = true → ∃ value, f member = some value ∧ related member value)
    (hnone : ∀ member, test member = false → f member = none) (members : List β) :
    List.Forall₂ related (members.filter test) (members.filterMap f) := by
  induction members with
  | nil => exact .nil
  | cons member rest ih =>
    cases htest : test member with
    | false => simpa [htest, hnone member htest] using ih
    | true =>
      obtain ⟨value, hvalue, hrelated⟩ := hsome member htest
      simpa [htest, hvalue] using List.Forall₂.cons hrelated ih

end UsageAudit

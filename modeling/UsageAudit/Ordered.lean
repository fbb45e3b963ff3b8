/-!
# Maps in order of insertion

A map kept as the list of its entries in the order in which their keys first came in. Putting a value
under a key that is present keeps the place of the entry.
-/

namespace UsageAudit

/-- A map, as its entries in order of insertion. -/
abbrev Ordered (κ ν : Type) := List (κ × ν)

namespace Ordered

variable {κ ν : Type} [DecidableEq κ]

/-- The value under a key. -/
def get? (map : Ordered κ ν) (key : κ) : Option ν :=
  match map with
  | [] => none
  | (k, v) :: rest => if k = key then some v else get? rest key

/-- Whether there is a value under the key. -/
def has (map : Ordered κ ν) (key : κ) : Bool := (get? map key).isSome

/-- Puts a value under a key, in place of any other. -/
def put (map : Ordered κ ν) (key : κ) (value : ν) : Ordered κ ν :=
  match map with
  | [] => [(key, value)]
  | (k, v) :: rest => if k = key then (key, value) :: rest else (k, v) :: put rest key value

/-- Takes the entry of a key away. -/
def erase (map : Ordered κ ν) (key : κ) : Ordered κ ν :=
  match map with
  | [] => []
  | (k, v) :: rest => if k = key then rest else (k, v) :: erase rest key

/-- The value put under a key is found there. -/
@[simp]
theorem get?_put_self (map : Ordered κ ν) (key : κ) (value : ν) :
    get? (put map key value) key = some value := by
  induction map with
  | nil => simp [put, get?]
  | cons entry rest ih =>
    obtain ⟨k, v⟩ := entry
    by_cases h : k = key <;> simp [put, get?, h, ih]

/-- Putting a value under one key leaves the others as they were. -/
theorem get?_put_of_ne (map : Ordered κ ν) {key other : κ} (value : ν) (h : key ≠ other) :
    get? (put map key value) other = get? map other := by
  induction map with
  | nil => simp [put, get?, h]
  | cons entry rest ih =>
    obtain ⟨k, v⟩ := entry
    by_cases hk : k = key
    · subst hk
      simp [put, get?, h]
    · simp [put, get?, hk, ih]

/-- Of two values put under a key one after the other the second stays, in the place of the first. -/
theorem put_put (map : Ordered κ ν) (key : κ) (first second : ν) :
    put (put map key first) key second = put map key second := by
  induction map with
  | nil => simp [put]
  | cons entry rest ih =>
    obtain ⟨k, v⟩ := entry
    by_cases hk : k = key
    · simp [put, hk]
    · simp [put, hk, ih]

/-- The keys of a map, in order of insertion. -/
def keys (map : Ordered κ ν) : List κ := map.map Prod.fst

/-- A key without an entry has no value. -/
theorem get?_eq_none_of_not_mem {map : Ordered κ ν} {key : κ} (h : key ∉ keys map) :
    get? map key = none := by
  induction map with
  | nil => rfl
  | cons entry rest ih =>
    obtain ⟨k, v⟩ := entry
    simp only [keys, List.map_cons, List.mem_cons, not_or] at h
    simpa [get?, Ne.symm h.1] using ih h.2

/-- The value under a key belongs to an entry. -/
theorem mem_of_get? {map : Ordered κ ν} {key : κ} {value : ν} (h : get? map key = some value) :
    (key, value) ∈ map := by
  induction map with
  | nil => simp [get?] at h
  | cons entry rest ih =>
    obtain ⟨k, v⟩ := entry
    by_cases hk : k = key
    · subst hk
      have hv : v = value := by simpa [get?] using h
      simp [hv]
    · exact List.mem_cons_of_mem _ (ih (by simpa [get?, hk] using h))

/-- Putting a value brings in no entry but its own. -/
theorem mem_of_mem_put {map : Ordered κ ν} {key : κ} {value : ν} {entry : κ × ν}
    (h : entry ∈ put map key value) : entry ∈ map ∨ entry = (key, value) := by
  induction map with
  | nil => simpa [put] using h
  | cons first rest ih =>
    obtain ⟨k, v⟩ := first
    by_cases hk : k = key
    · simp only [put, hk, if_true, List.mem_cons] at h
      rcases h with h | h
      · exact Or.inr h
      · exact Or.inl (List.mem_cons_of_mem _ h)
    · simp only [put, hk, if_false, List.mem_cons] at h
      rcases h with h | h
      · exact Or.inl (by simp [h])
      · exact (ih h).imp_left (List.mem_cons_of_mem _)

/-- A value under a new key comes last. -/
theorem put_of_not_mem {map : Ordered κ ν} {key : κ} (h : key ∉ keys map) (value : ν) :
    put map key value = map ++ [(key, value)] := by
  induction map with
  | nil => rfl
  | cons first rest ih =>
    obtain ⟨k, v⟩ := first
    simp only [keys, List.map_cons, List.mem_cons, not_or] at h
    simp only [put, if_neg (Ne.symm h.1), List.cons_append]
    rw [ih h.2]

/-- There is a value under the keys of a map and no others. -/
theorem has_iff {map : Ordered κ ν} {key : κ} : has map key = true ↔ key ∈ keys map := by
  constructor
  · intro h
    obtain ⟨value, hvalue⟩ := Option.isSome_iff_exists.mp h
    exact List.mem_map.mpr ⟨_, mem_of_get? hvalue, rfl⟩
  · intro h
    induction map with
    | nil => cases h
    | cons first rest ih =>
      obtain ⟨k, v⟩ := first
      by_cases hk : k = key
      · simp [has, get?, hk]
      · simp only [keys, List.map_cons, List.mem_cons, Ne.symm hk, false_or] at h
        simpa [has, get?, hk] using ih h

/-- Taking an entry away brings in no other. -/
theorem mem_of_mem_erase {map : Ordered κ ν} {key : κ} {entry : κ × ν}
    (h : entry ∈ erase map key) : entry ∈ map := by
  induction map with
  | nil => simp [erase] at h
  | cons first rest ih =>
    obtain ⟨k, v⟩ := first
    by_cases hk : k = key
    · simp only [erase, hk, if_true] at h
      exact List.mem_cons_of_mem _ h
    · simp only [erase, hk, if_false, List.mem_cons] at h
      rcases h with h | h
      · simp [h]
      · exact List.mem_cons_of_mem _ (ih h)

/-- Putting a value keeps the keys distinct. -/
theorem nodup_keys_put {map : Ordered κ ν} (h : (keys map).Nodup) (key : κ) (value : ν) :
    (keys (put map key value)).Nodup := by
  induction map with
  | nil => simp [put, keys]
  | cons first rest ih =>
    obtain ⟨k, v⟩ := first
    obtain ⟨hfirst, hrest⟩ := List.nodup_cons.mp h
    by_cases hk : k = key
    · simpa [put, hk, keys] using h
    · simp only [put, hk, if_false]
      refine List.nodup_cons.mpr ⟨?_, ih hrest⟩
      intro hmem
      obtain ⟨entry, hentry, heq⟩ := List.mem_map.mp hmem
      rcases mem_of_mem_put hentry with hold | rfl
      · exact hfirst (List.mem_map.mpr ⟨entry, hold, heq⟩)
      · exact hk heq.symm

/-- Taking an entry away keeps the keys distinct. -/
theorem nodup_keys_erase {map : Ordered κ ν} (h : (keys map).Nodup) (key : κ) :
    (keys (erase map key)).Nodup := by
  induction map with
  | nil => simp [erase, keys]
  | cons first rest ih =>
    obtain ⟨k, v⟩ := first
    obtain ⟨hfirst, hrest⟩ := List.nodup_cons.mp h
    by_cases hk : k = key
    · simp only [erase, hk, if_true]
      exact hrest
    · simp only [erase, hk, if_false]
      refine List.nodup_cons.mpr ⟨?_, ih hrest⟩
      intro hmem
      obtain ⟨entry, hentry, heq⟩ := List.mem_map.mp hmem
      exact hfirst (List.mem_map.mpr ⟨entry, mem_of_mem_erase hentry, heq⟩)

/-- A key has no value once its entry is taken away, if it had no more than one. -/
theorem get?_erase_self {map : Ordered κ ν} (h : (keys map).Nodup) (key : κ) :
    get? (erase map key) key = none := by
  induction map with
  | nil => rfl
  | cons first rest ih =>
    obtain ⟨k, v⟩ := first
    obtain ⟨hfirst, hrest⟩ := List.nodup_cons.mp h
    by_cases hk : k = key
    · subst hk
      simpa [erase] using get?_eq_none_of_not_mem hfirst
    · simpa [erase, get?, hk] using ih hrest

/-- Taking the entry of one key away leaves the others as they were. -/
theorem get?_erase_of_ne (map : Ordered κ ν) {key other : κ} (h : key ≠ other) :
    get? (erase map key) other = get? map other := by
  induction map with
  | nil => rfl
  | cons first rest ih =>
    obtain ⟨k, v⟩ := first
    by_cases hk : k = key
    · subst hk
      simp [erase, get?, h]
    · simp [erase, get?, hk, ih]

end Ordered

end UsageAudit

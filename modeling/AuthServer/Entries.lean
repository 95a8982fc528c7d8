/-!
# Ordered entries

Name-value lists in the order of first insertion: parameters, headers of a
form, sessions, labelled counters. Overwriting an entry keeps its place.
Two removals: `swapRemove` moves the last entry into the freed place,
`remove` closes the gap.
-/

namespace AuthServer

abbrev Entries (α : Type) := List (String × α)

namespace Entries

variable {α : Type}

/-- The value of the first entry called `key`. -/
def value? : Entries α → String → Option α
  | [], _ => none
  | (k, v) :: rest, key => if k = key then some v else value? rest key

def has (es : Entries α) (key : String) : Bool := (es.value? key).isSome

def keys (es : Entries α) : List String := es.map Prod.fst

/-- Overwrites in place; a new key goes last. -/
def put : Entries α → String → α → Entries α
  | [], key, v => [(key, v)]
  | (k, w) :: rest, key, v => if k = key then (k, v) :: rest else (k, w) :: put rest key v

/-- The last entry moves into the place of the removed one. -/
def swapRemove : Entries α → String → Entries α
  | [], _ => []
  | (k, v) :: rest, key =>
    if k = key then
      match rest.getLast? with
      | none => []
      | some last => last :: rest.dropLast
    else (k, v) :: swapRemove rest key

def remove (es : Entries α) (key : String) : Entries α := es.filter (·.1 ≠ key)

/-! ## Look-up after a change -/

@[simp] theorem value?_nil (key : String) : value? ([] : Entries α) key = none := rfl

theorem value?_put (es : Entries α) (k : String) (v : α) (key : String) :
    (es.put k v).value? key = if k = key then some v else es.value? key := by
  induction es with
  | nil => simp [put, value?]
  | cons e rest ih =>
    obtain ⟨k', w⟩ := e
    by_cases h : k' = k
    · subst h; simp only [put, value?, if_true]; split <;> rfl
    · by_cases hk : k' = key
      · subst hk; simp [put, value?, h, Ne.symm h]
      · simp [put, value?, h, hk, ih]

@[simp] theorem value?_put_self (es : Entries α) (k : String) (v : α) :
    (es.put k v).value? k = some v := by
  simp [value?_put]

theorem value?_put_ne (es : Entries α) {k key : String} (v : α) (h : k ≠ key) :
    (es.put k v).value? key = es.value? key := by
  simp [value?_put, h]

theorem put_put (es : Entries α) (k : String) (v w : α) : (es.put k v).put k w = es.put k w := by
  induction es with
  | nil => simp [put]
  | cons e rest ih =>
    obtain ⟨k', x⟩ := e
    by_cases h : k' = k
    · simp [put, h]
    · simp [put, h, ih]

theorem put_self {es : Entries α} {key : String} {v : α} (h : es.value? key = some v) :
    es.put key v = es := by
  induction es with
  | nil => cases h
  | cons e rest ih =>
    obtain ⟨k, w⟩ := e
    by_cases hk : k = key
    · simp only [value?, hk, if_true, Option.some.injEq] at h
      simp [put, hk, h]
    · simp only [value?, if_neg hk] at h
      simp [put, hk, ih h]

theorem value?_filter (es : Entries α) (p : String → Bool) (key : String) :
    value? (es.filter fun e => p e.1) key = if p key then es.value? key else none := by
  induction es with
  | nil => simp
  | cons e rest ih =>
    obtain ⟨k, v⟩ := e
    by_cases hk : k = key
    · subst hk
      by_cases hp : p k = true <;> simp [value?, hp, ih]
    · by_cases hp : p k = true <;> simp [value?, hk, hp, ih]

theorem value?_remove (es : Entries α) (k key : String) :
    (es.remove k).value? key = if k = key then none else es.value? key := by
  have hfilter := value?_filter es (· ≠ k) key
  rw [remove, hfilter]
  by_cases hk : k = key
  · simp [hk]
  · simp [hk, Ne.symm hk]

/-! ## Keys -/

theorem value?_eq_none_iff (es : Entries α) (key : String) :
    es.value? key = none ↔ key ∉ es.keys := by
  induction es with
  | nil => simp [keys]
  | cons e rest ih =>
    obtain ⟨k, w⟩ := e
    by_cases h : k = key
    · simp [value?, keys, h]
    · simp [value?, keys, h, Ne.symm h, ih]

theorem has_iff_mem_keys (es : Entries α) (key : String) : es.has key = true ↔ key ∈ es.keys := by
  rw [has, Option.isSome_iff_ne_none, Ne, value?_eq_none_iff, Decidable.not_not]

/-- A put appends its key exactly when it is new. -/
theorem keys_put (es : Entries α) (k : String) (v : α) :
    (es.put k v).keys = if es.has k then es.keys else es.keys ++ [k] := by
  induction es with
  | nil => simp [put, keys, has]
  | cons e rest ih =>
    obtain ⟨k', w⟩ := e
    by_cases h : k' = k
    · simp [put, keys, has, value?, h]
    · simp only [keys, has] at ih
      by_cases hr : (value? rest k).isSome = true <;>
        simp_all [put, keys, has, value?]

theorem nodup_keys_put {es : Entries α} (h : es.keys.Nodup) (k : String) (v : α) :
    (es.put k v).keys.Nodup := by
  rw [keys_put]
  split
  · exact h
  · rename_i hk
    have : k ∉ es.keys := by
      rw [← value?_eq_none_iff]; simpa [has] using hk
    rw [List.nodup_append]
    exact ⟨h, by simp, by intro a ha b hb; simp at hb; subst hb; intro e; exact this (e ▸ ha)⟩

/-! ## The two removals -/

theorem remove_of_notMem {es : Entries α} {key : String} (h : key ∉ es.keys) :
    es.remove key = es := by
  rw [remove, List.filter_eq_self]
  intro e he
  have : e.1 ≠ key := fun hk => h (hk ▸ List.mem_map_of_mem he)
  simpa using this

/-- Both removals keep the same entries. -/
theorem swapRemove_perm_remove {es : Entries α} (h : es.keys.Nodup) (key : String) :
    (es.swapRemove key).Perm (es.remove key) := by
  induction es with
  | nil => exact .nil
  | cons e rest ih =>
    obtain ⟨k, v⟩ := e
    obtain ⟨hk, hr⟩ : k ∉ keys rest ∧ (keys rest).Nodup := by simpa [keys] using h
    by_cases hkey : k = key
    · subst hkey
      have hrest : remove ((k, v) :: rest) k = rest := by
        simpa [remove] using remove_of_notMem hk
      rw [hrest]
      cases hl : rest.getLast? with
      | none => simp_all [swapRemove]
      | some last =>
        obtain ⟨front, rfl⟩ := List.getLast?_eq_some_iff.1 hl
        have : ([last] ++ front).Perm (front ++ [last]) := List.perm_append_comm
        simpa [swapRemove] using this
    · simpa [swapRemove, remove, hkey] using ih hr

theorem mem_put {es : Entries α} {k : String} {v : α} {e : String × α} (h : e ∈ es.put k v) :
    e = (k, v) ∨ e ∈ es := by
  induction es with
  | nil => exact .inl (List.mem_singleton.1 h)
  | cons e' rest ih =>
    obtain ⟨k', w⟩ := e'
    by_cases hk : k' = k
    · rw [put, if_pos hk, List.mem_cons] at h
      exact h.imp (hk ▸ ·) (List.mem_cons_of_mem _)
    · rw [put, if_neg hk, List.mem_cons] at h
      rcases h with rfl | h
      · exact .inr List.mem_cons_self
      · exact (ih h).imp_right (List.mem_cons_of_mem _)

theorem mem_of_mem_swapRemove {es : Entries α} {key : String} {e : String × α}
    (h : e ∈ es.swapRemove key) : e ∈ es := by
  induction es with
  | nil => exact h
  | cons e' rest ih =>
    obtain ⟨k, v⟩ := e'
    by_cases hk : k = key
    · rw [swapRemove, if_pos hk] at h
      split at h
      · cases h
      · rename_i last hlast
        rcases List.mem_cons.1 h with rfl | h
        · exact List.mem_cons_of_mem _ (List.mem_of_getLast? hlast)
        · exact List.mem_cons_of_mem _ (List.dropLast_subset rest h)
    · rw [swapRemove, if_neg hk] at h
      rcases List.mem_cons.1 h with rfl | h
      · exact List.mem_cons_self
      · exact List.mem_cons_of_mem _ (ih h)

theorem mem_keys_put {es : Entries α} {k : String} {v : α} {key : String}
    (h : key ∈ (es.put k v).keys) : key = k ∨ key ∈ es.keys := by
  rw [keys_put] at h
  split at h
  · exact .inr h
  · rcases List.mem_append.1 h with h | h
    · exact .inr h
    · exact .inl (List.mem_singleton.1 h)

theorem keys_swapRemove_perm {es : Entries α} (h : es.keys.Nodup) (key : String) :
    (es.swapRemove key).keys.Perm (es.remove key).keys :=
  (swapRemove_perm_remove h key).map Prod.fst

theorem notMem_keys_swapRemove {es : Entries α} (h : es.keys.Nodup) (key : String) :
    key ∉ (es.swapRemove key).keys := by
  rw [(keys_swapRemove_perm h key).mem_iff]
  simp [keys, remove]

theorem nodup_keys_swapRemove {es : Entries α} (h : es.keys.Nodup) (key : String) :
    (es.swapRemove key).keys.Nodup := by
  rw [(keys_swapRemove_perm h key).nodup_iff]
  exact h.sublist (List.filter_sublist.map Prod.fst)

/-! ## Entries with distinct keys -/

theorem mem_of_value? {es : Entries α} {key : String} {v : α} (h : es.value? key = some v) :
    (key, v) ∈ es := by
  induction es with
  | nil => cases h
  | cons e rest ih =>
    obtain ⟨k, w⟩ := e
    by_cases hk : k = key
    · subst hk
      simp only [value?, if_true, Option.some.injEq] at h
      simp [h]
    · simp only [value?, if_neg hk] at h
      exact List.mem_cons_of_mem _ (ih h)

theorem value?_of_mem {es : Entries α} (h : es.keys.Nodup) {key : String} {v : α}
    (hmem : (key, v) ∈ es) : es.value? key = some v := by
  induction es with
  | nil => cases hmem
  | cons e rest ih =>
    obtain ⟨k, w⟩ := e
    obtain ⟨hk, hrest⟩ : k ∉ keys rest ∧ (keys rest).Nodup := by simpa [keys] using h
    rcases List.mem_cons.1 hmem with heq | hmem
    · cases heq
      simp [value?]
    · have hne : k ≠ key := by
        rintro rfl
        exact hk (List.mem_map_of_mem (f := Prod.fst) hmem)
      rw [value?, if_neg hne]
      exact ih hrest hmem

/-- Look-up does not depend on the order. -/
theorem value?_perm {es es' : Entries α} (h : es.keys.Nodup) (hp : es.Perm es') (key : String) :
    es.value? key = es'.value? key := by
  have h' : es'.keys.Nodup := (hp.map Prod.fst).nodup_iff.1 h
  rcases hv : es.value? key with _ | v
  · rw [eq_comm, value?_eq_none_iff, keys, ← (hp.map Prod.fst).mem_iff]
    exact (value?_eq_none_iff _ _).1 hv
  · exact (value?_of_mem h' (hp.mem_iff.1 (mem_of_value? hv))).symm

theorem value?_swapRemove {es : Entries α} (h : es.keys.Nodup) (k key : String) :
    (es.swapRemove k).value? key = if k = key then none else es.value? key := by
  rw [value?_perm (nodup_keys_swapRemove h k) (swapRemove_perm_remove h k), value?_remove]

/-! ## An entry at the end -/

theorem value?_concat {es : Entries α} {key : String} (h : es.value? key = none) (v : α) :
    value? (es ++ [(key, v)]) key = some v := by
  induction es with
  | nil => simp [value?]
  | cons e rest ih =>
    obtain ⟨k, w⟩ := e
    by_cases hk : k = key
    · simp [value?, hk] at h
    · simp only [value?, if_neg hk] at h
      simpa [value?, hk] using ih h

theorem swapRemove_absent {es : Entries α} {key : String} (h : es.value? key = none) :
    es.swapRemove key = es := by
  induction es with
  | nil => rfl
  | cons e rest ih =>
    obtain ⟨k, w⟩ := e
    by_cases hk : k = key
    · simp [value?, hk] at h
    · simp only [value?, if_neg hk] at h
      simp [swapRemove, hk, ih h]

theorem swapRemove_concat {es : Entries α} {key : String} (h : es.value? key = none) (v : α) :
    swapRemove (es ++ [(key, v)]) key = es := by
  induction es with
  | nil => simp [swapRemove]
  | cons e rest ih =>
    obtain ⟨k, w⟩ := e
    by_cases hk : k = key
    · simp [value?, hk] at h
    · simp only [value?, if_neg hk] at h
      simp [swapRemove, hk, ih h]

end Entries

end AuthServer

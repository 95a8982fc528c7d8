import AuthServer.Proofs.Parsing

/-!
# The names in a merged map

A merge keeps the names of the target and adds those that the source has a value for. A null is no
value.
-/

namespace AuthServer

open Json

theorem Entries.mem_keys_put_iff {α : Type} {es : Entries α} {k key : String} {v : α} :
    key ∈ (es.put k v).keys ↔ key = k ∨ key ∈ es.keys := by
  rw [← has_iff_mem_keys, ← has_iff_mem_keys, has, has, value?_put]
  by_cases h : k = key
  · simp [h]
  · simp [h, Ne.symm h]

namespace Json

variable {target source : Params} {k key : String} {v : Value}

theorem mem_keys_mergeMember_iff :
    key ∈ (mergeMember target k v).keys ↔ key ∈ target.keys ∨ key = k ∧ v ≠ .null := by
  cases v with
  | null => simp [mergeMember]
  | obj incoming =>
    unfold mergeMember
    split <;> simp [Entries.mem_keys_put_iff, or_comm]
  | _ => simp [mergeMember, Entries.mem_keys_put_iff, or_comm]

theorem mem_keys_merge_iff :
    key ∈ (merge target source).keys ↔ key ∈ target.keys ∨ ∃ v, v ≠ .null ∧ (key, v) ∈ source := by
  induction source generalizing target with
  | nil => simp
  | cons m rest ih =>
    obtain ⟨k, v⟩ := m
    rw [merge, ih, mem_keys_mergeMember_iff, or_assoc]
    refine or_congr_right ⟨?_, ?_⟩
    · rintro (⟨rfl, hv⟩ | ⟨w, hw, hmem⟩)
      · exact ⟨v, hv, List.mem_cons_self⟩
      · exact ⟨w, hw, List.mem_cons_of_mem _ hmem⟩
    · rintro ⟨w, hw, hmem⟩
      rcases List.mem_cons.1 hmem with heq | hmem
      · cases heq
        exact .inl ⟨rfl, hw⟩
      · exact .inr ⟨w, hw, hmem⟩

end Json

end AuthServer

import AuthServer.Dispatch

/-!
# What the parsers of a request contribute

The type of a request is the one that was asked for: no parser can add a
field of that name.
-/

namespace AuthServer

open Json

namespace Json

theorem mem_keys_mergeMember {target : Params} {k key : String} {v : Value}
    (h : key ∈ (mergeMember target k v).keys) : key = k ∨ key ∈ target.keys := by
  unfold mergeMember at h
  split at h
  · exact .inr h
  · split at h <;> exact Entries.mem_keys_put h
  · exact Entries.mem_keys_put h

theorem mem_keys_merge {source : Params} {key : String} :
    ∀ {target : Params}, key ∈ (merge target source).keys → key ∈ target.keys ∨ key ∈ source.keys := by
  induction source with
  | nil => intro target h; exact .inl (by simpa using h)
  | cons m rest ih =>
    obtain ⟨k, v⟩ := m
    intro target h
    rw [merge] at h
    rcases ih h with h | h
    · rcases mem_keys_mergeMember h with rfl | h
      · exact .inr (by simp [Entries.keys])
      · exact .inl h
    · exact .inr (List.mem_cons_of_mem _ h)

end Json

/-- No type among the fields. -/
def AuthorizationRequest.Untyped (r : AuthorizationRequest) : Prop := "type" ∉ r.fields.keys

theorem AuthorizationRequest.Untyped.merge {r : AuthorizationRequest} {fields : Params}
    (h : r.Untyped) (hf : fields.keys.Nodup) : (r.merge fields).Untyped := by
  intro hmem
  rcases mem_keys_merge hmem with hmem | hmem
  · exact h hmem
  · exact Entries.notMem_keys_swapRemove hf "type" hmem

namespace Dispatcher

variable {σ : Type}

/-- The parsers give maps: no name twice. -/
def ParsesMaps (d : Dispatcher σ) : Prop :=
  ∀ l ∈ d.parsers, ∀ req host fields host',
    (l.handler req).run host = (.ok fields, host') → fields.keys.Nodup

theorem parseWith_untyped {req : Request} {layers : List (Layer (RequestParser σ))}
    (hmaps : ∀ l ∈ layers, ∀ host fields host',
      (l.handler req).run host = (.ok fields, host') → fields.keys.Nodup)
    {p p' : Parsed} {host host' : σ} (hp : p.request.Untyped)
    (h : (parseWith req layers p).run host = (.ok p', host')) :
    p'.request.Untyped ∧ p'.request.type = p.request.type := by
  induction layers generalizing p host with
  | nil =>
    cases h
    exact ⟨hp, rfl⟩
  | cons l rest ih =>
    obtain ⟨hl, hrest⟩ := List.forall_mem_cons.1 hmaps
    rcases Step.bind_cases h with ⟨fields, host₁, hfields, h⟩ | ⟨e, -, he⟩
    · rw [Step.run_guarded] at hfields
      rcases hrun : (l.handler req).run host with ⟨e | fields', host₂⟩ <;> rw [hrun] at hfields <;>
        cases hfields
      exact ih (p := ⟨p.request.merge fields, p.recognized || l.type.isSome⟩) hrest
        (hp.merge (hl _ _ _ hrun)) h
    · cases he

/-- The type of a parsed request is the one asked for, and stands beside the fields only. -/
theorem parse_untyped {d : Dispatcher σ} (hmaps : d.ParsesMaps) {type : TypeSet} {req : Request}
    {parsed : Parsed} {host host' : σ}
    (h : (d.parse type req).run host = (.ok parsed, host')) :
    parsed.request.Untyped ∧ parsed.request.type = type := by
  have hempty : (AuthorizationRequest.ofType type).Untyped := List.not_mem_nil
  refine parseWith_untyped (fun l hl => hmaps l ?_ req) hempty h
  exact (List.mem_filter.1 hl).1

end Dispatcher

end AuthServer

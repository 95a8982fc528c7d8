import AuthServer.Proofs.Keeping

/-!
# How finishing a response ends

The first finish of a written response takes the hooks off the response before
it runs them; any other finish does nothing.
-/

namespace AuthServer.Visit

variable {σ : Type} {v v' : Visit σ}

/-- The visit in which the hooks run. -/
def closed (v : Visit σ) : Visit σ :=
  { v with response := { v.response with finished := true, hooks := [] } }

inductive Finishing (v : Visit σ) : Except Fault Unit → Visit σ → Prop where
  | idle : (v.response.finished || !v.response.written) = true → Finishing v (.ok ()) v
  | ran {r : Except Fault Unit} {r₁ : Except Fault (Option OAuthError)} {v' : Visit σ} :
    (v.response.finished || !v.response.written) = false →
    (runHooks v.response.hooks).run v.closed = (r₁, v') →
    (r ≠ .error .crash → r₁ ≠ .error .crash) → Finishing v r v'

theorem finish_cases {r : Except Fault Unit} (h : finish.run v = (r, v')) : Finishing v r v' := by
  unfold finish at h
  rw [Step.run_gets_bind] at h
  rcases hdone : (v.response.finished || !v.response.written) with _ | _ <;> rw [hdone] at h
  · rcases Step.bind_cases h with ⟨_, v₁, hx, h⟩ | ⟨_, hx, -⟩ <;> cases hx
    rcases Step.bind_cases h with ⟨r₁, v₂, hrun, h⟩ | ⟨e, hrun, rfl⟩
    · have hv : v₂ = v' := by rcases r₁ with _ | e <;> cases h <;> rfl
      subst hv
      exact .ran hdone hrun fun _ => nofun
    · refine .ran hdone hrun fun hr he => hr ?_
      cases he
      rfl
  · cases h
    exact .idle hdone

/-- A removal that fails is not told of. -/
theorem runHook_removal_keeps {P : Visit σ → Prop} {store : Store σ} {options : TransactionOptions}
    {id : String} (h : (Step.asAccess (store.remove options id) : Step (Visit σ) Unit).Keeps P) :
    (runHook (.removal store options id)).Keeps P := by
  refine h.attempt.bind fun r => ?_
  rcases r with (e | _) | _
  · exact Step.keeps_pure _
  · exact Step.keeps_crash
  · exact Step.keeps_pure _

theorem runHooks_keeps {P : Visit σ → Prop} {hooks : List (FinishHook σ)}
    (h : ∀ hook ∈ hooks, (runHook hook).Keeps P) : (runHooks hooks).Keeps P := by
  induction hooks with
  | nil => exact Step.keeps_pure _
  | cons hook rest ih =>
    obtain ⟨hhook, hrest⟩ := List.forall_mem_cons.1 h
    refine hhook.attempt.bind fun r => ?_
    rcases r with (e | _) | _
    · exact (ih hrest).bind fun _ => Step.keeps_pure _
    · exact Step.keeps_crash
    · exact ih hrest

/-- Hooks act on the request and the world. -/
theorem runHooks_response (hooks : List (FinishHook σ)) (response : Response σ) :
    (runHooks hooks).Keeps fun v => v.response = response := by
  refine runHooks_keeps fun hook _ => ?_
  cases hook with
  | host key action => exact fun _ hv => hv
  | removal store options id => exact runHook_removal_keeps fun _ hv => hv

end AuthServer.Visit

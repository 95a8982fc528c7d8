import AuthServer.Endpoint.Resume
import AuthServer.Proofs.Endpoint.Response

/-!
# How resuming a transaction ends

On allow the removal is armed before the responders run, so it stays armed
when they fail. Otherwise the transaction goes back to the store.
-/

namespace AuthServer.Server

variable {σ : Type} {s : Server σ} {v v' : Visit σ}

/-! ## Granting -/

/-- The visit in which a granted transaction is answered. -/
def granted (s : Server σ) (t : Transaction) (v : Visit σ) : Visit σ :=
  s.arm (s.tally (·.countDecision true) (v.holding t))

@[simp] theorem granted_transaction (t : Transaction) :
    (s.granted t v).request.transaction = some t.armStored := by
  rw [granted, arm_transaction, tally_request]
  rfl

inductive GrantingStored (s : Server σ) (t : Transaction) (fields : Params)
    (completion : Completion σ) (v : Visit σ) : Except Fault Outcome → Visit σ → Prop where
  | decided {e : OAuthError} :
    t.decide (.withFields true fields) = .error e →
    GrantingStored s t fields completion v (.error (.error e)) v
  | answered {t' : Transaction} {r : Except Fault Unit} {v₁ : Visit σ} :
    t.decide (.withFields true fields) = .ok t' →
    Responding s completion t'.armStored (s.granted t' v) r v₁ →
    GrantingStored s t fields completion v (r.map fun _ => .responded) v₁

theorem grantStored_cases {t : Transaction} {fields : Params} {completion : Completion σ}
    {r : Except Fault Outcome} (h : (s.grantStored t fields completion).run v = (r, v')) :
    GrantingStored s t fields completion v r v' := by
  simp only [grantStored] at h
  rcases hd : t.decide (.withFields true fields) with e | t' <;> rw [hd] at h
  · cases h
    exact .decided hd
  · rcases Step.bind_cases h with ⟨_, _, hx, h⟩ | ⟨_, hx, -⟩ <;> cases hx
    rcases Step.bind_cases h with ⟨_, _, hx, h⟩ | ⟨_, hx, -⟩ <;> cases hx
    rcases Step.bind_cases h with ⟨_, _, hx, h⟩ | ⟨_, hx, -⟩ <;> cases hx
    rcases Step.bind_cases h with ⟨_, _, hx, h⟩ | ⟨_, hx, -⟩ <;> cases hx
    rcases Step.bind_cases h with ⟨_, _, hx, h⟩ | ⟨e, hx, rfl⟩
    · cases h
      exact .answered hd (respond_cases (granted_transaction t') hx)
    · exact .answered hd (respond_cases (granted_transaction t') hx)

/-- A granted transaction is answered, not suspended. -/
theorem GrantingStored.ne_pending {fields : Params} {completion : Completion σ}
    {r : Except Fault Outcome} {t : Transaction} {id : String}
    (h : GrantingStored s t fields completion v r v') :
    r ≠ .ok (.pending id) := by
  cases h with
  | decided => exact nofun
  | @answered _ r' => cases r' <;> exact nofun

/-! ## Suspension -/

inductive SuspendingAgain (s : Server σ) (t : Transaction) (v : Visit σ) :
    Except Fault Outcome → Visit σ → Prop where
  | stored {id : String} {v₁ : Visit σ} :
    (s.putBack t).run (v.holding t) = (.ok id, v₁) →
    SuspendingAgain s t v (.ok (.pending id)) (v₁.holding (t.persisted id))
  | failed {e : Fault} {v₁ : Visit σ} :
    (s.putBack t).run (v.holding t) = (.error e, v₁) → SuspendingAgain s t v (.error e) v₁

theorem suspendAgain_cases {t : Transaction} {r : Except Fault Outcome}
    (h : (s.suspendAgain t).run v = (r, v')) : SuspendingAgain s t v r v' := by
  rcases Step.bind_cases h with ⟨_, _, hx, h⟩ | ⟨_, hx, -⟩ <;> cases hx
  rcases Step.bind_cases h with ⟨id, v₁, hx, h⟩ | ⟨e, hx, rfl⟩
  · cases h
    exact .stored hx
  · exact .failed hx

/-! ## The whole -/

/-- The visit in which the host is asked again. -/
def reconsidered (s : Server σ) (t : Transaction) (v : Visit σ) : Visit σ :=
  s.tally (·.countResumed) (v.holding (s.renewed t v))

theorem reconsidered_request (s : Server σ) (t : Transaction) (v : Visit σ) :
    (s.reconsidered t v).request = (v.holding (s.renewed t v)).request := tally_request ..

theorem reconsidered_response (s : Server σ) (t : Transaction) (v : Visit σ) :
    (s.reconsidered t v).response = v.response := tally_response ..

inductive Resuming (s : Server σ) (immediate : Immediate σ) (completion : Completion σ)
    (v : Visit σ) : Except Fault Outcome → Visit σ → Prop where
  | unloaded :
    v.request.transaction = none →
    Resuming s immediate completion v (.error (.error missingTransaction)) v
  | failed {t : Transaction} {e : OAuthError} {host : σ} :
    v.request.transaction = some t →
    (immediate (s.renewed t v)).guarded.run v.world.host = (.error (.error e), host) →
    Resuming s immediate completion v (.error (.error e)) ((s.reconsidered t v).withHost host)
  | granted {t : Transaction} {verdict : Verdict} {host : σ} {r : Except Fault Outcome}
    {v₁ : Visit σ} :
    v.request.transaction = some t →
    (immediate (s.renewed t v)).guarded.run v.world.host = (.ok verdict, host) →
    verdict.allow = true →
    GrantingStored s ((s.renewed t v).mergeLocals verdict.locals) (verdict.info.getD []) completion
      (((s.reconsidered t v).withHost host).holding ((s.renewed t v).mergeLocals verdict.locals))
      r v₁ →
    Resuming s immediate completion v r v₁
  | deferred {t : Transaction} {verdict : Verdict} {host : σ} {r : Except Fault Outcome}
    {v₁ : Visit σ} :
    v.request.transaction = some t →
    (immediate (s.renewed t v)).guarded.run v.world.host = (.ok verdict, host) →
    verdict.allow = false →
    SuspendingAgain s (((s.renewed t v).mergeLocals verdict.locals).withInfo verdict.info)
      (((s.reconsidered t v).withHost host).holding ((s.renewed t v).mergeLocals verdict.locals))
      r v₁ →
    Resuming s immediate completion v r v₁

theorem runResume_cases {immediate : Immediate σ} {completion : Completion σ}
    {r : Except Fault Outcome} (h : (s.runResume immediate completion).run v = (r, v')) :
    Resuming s immediate completion v r v' := by
  simp only [runResume, theTransaction, bind_assoc, Step.run_gets_bind] at h
  rcases ht : v.request.transaction with _ | t <;> rw [ht] at h
  · cases h
    exact .unloaded ht
  · simp only [pure_bind, Step.run_gets_bind] at h
    rcases Step.bind_cases h with ⟨_, _, hx, h⟩ | ⟨_, hx, -⟩ <;> cases hx
    rcases Step.bind_cases h with ⟨_, _, hx, h⟩ | ⟨_, hx, -⟩ <;> cases hx
    rcases Step.bind_cases h with ⟨verdict, v₁, hx, h⟩ | ⟨f, hx, rfl⟩
    · obtain ⟨host, rfl, ⟨_, hi, hr⟩ | ⟨_, -, hr⟩⟩ := asHost_guarded_cases hx <;> cases hr
      rw [tally_host] at hi
      rcases Step.bind_cases h with ⟨_, _, hx, h⟩ | ⟨_, hx, -⟩ <;> cases hx
      cases ha : verdict.allow <;> rw [ha] at h
      · exact .deferred ht hi ha (suspendAgain_cases h)
      · exact .granted ht hi ha (grantStored_cases h)
    · obtain ⟨host, rfl, ⟨_, -, hr⟩ | ⟨e, hi, hr⟩⟩ := asHost_guarded_cases hx <;> cases hr
      rw [tally_host] at hi
      exact .failed ht hi

end AuthServer.Server

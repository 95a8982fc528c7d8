import AuthServer.Endpoint.Decision
import AuthServer.Proofs.Endpoint.Response

/-!
# How a decision ends

Recording the decision fails before the removal is armed; answering it fails
after that.
-/

namespace AuthServer.Server

variable {σ : Type} {s : Server σ} {v v' : Visit σ}

theorem decisionInput_cases {c : DecisionCallbacks σ} {req : Request}
    {r : Except Fault DecisionInput} (h : (decisionInput c req).run v = (r, v')) :
    ∃ host, v' = v.withHost host ∧ ((∃ input, r = .ok input) ∨ ∃ e, r = .error (.error e)) := by
  unfold decisionInput at h
  rcases hp : c.parse with _ | parse <;> rw [hp] at h <;> simp only at h
  · cases h
    exact ⟨v.world.host, rfl, .inl ⟨_, rfl⟩⟩
  · obtain ⟨host, rfl, ⟨input, -, rfl⟩ | ⟨e, -, rfl⟩⟩ := asHost_guarded_cases h
    · exact ⟨host, rfl, .inl ⟨input, rfl⟩⟩
    · exact ⟨host, rfl, .inr ⟨e, rfl⟩⟩

/-! ## The record -/

/-- The transaction that is decided on. -/
def considered (s : Server σ) (t : Transaction) (input : DecisionInput) (v : Visit σ) : Transaction :=
  (s.renewed t v).mergeLocals input.locals

inductive Recording (s : Server σ) (v : Visit σ) : Except Fault Unit → Visit σ → Prop where
  | refused {e : OAuthError} (host : σ) : Recording s v (.error (.error e)) (v.withHost host)
  | decidedBefore {t : Transaction} {input : DecisionInput} {host : σ} {e : OAuthError} :
    v.request.transaction = some t →
    Recording s v (.error (.error e)) ((v.withHost host).holding (s.considered t input v))
  | recorded {t : Transaction} {body : Params} {input : DecisionInput} {host : σ} {allow : Bool}
    {t' : Transaction} :
    v.request.transaction = some t →
    v.request.body = some body →
    (s.considered t input v).decide (.withFields allow input.fields) = .ok t' →
    Recording s v (.ok ()) (s.tally (·.countDecision allow) ((v.withHost host).holding t'))

theorem recordDecision_cases {o : DecisionOptions} {c : DecisionCallbacks σ} {r : Except Fault Unit}
    (h : (s.recordDecision o c).run v = (r, v')) : Recording s v r v' := by
  simp only [recordDecision, theTransaction, Step.run_gets_bind] at h
  rcases hb : v.request.body with _ | body <;> rw [hb] at h
  · cases h
    exact .refused v.world.host
  simp only [bind_assoc, Step.run_gets_bind] at h
  rcases ht : v.request.transaction with _ | t <;> rw [ht] at h
  · cases h
    exact .refused v.world.host
  simp only [pure_bind] at h
  rcases Step.bind_cases h with ⟨input, v₁, hi, h⟩ | ⟨f, hi, rfl⟩
  · obtain ⟨host, rfl, -⟩ := decisionInput_cases hi
    have hrenewed : (s.renewed t (v.withHost host)).mergeLocals input.locals =
        s.considered t input v := rfl
    rw [Step.run_gets_bind, hrenewed] at h
    rcases Step.bind_cases h with ⟨_, _, hx, h⟩ | ⟨_, hx, -⟩ <;> cases hx
    rcases hd : (s.considered t input v).decide
        (.withFields (allows o body input) input.fields) with e | t' <;> rw [hd] at h
    · cases h
      exact .decidedBefore ht
    · cases h
      exact .recorded ht hb hd
  · obtain ⟨host, rfl, ⟨_, hr⟩ | ⟨e, hr⟩⟩ := decisionInput_cases hi <;> cases hr
    exact .refused host

/-- The record, where nothing is refused. -/
theorem recordDecision_eq {o : DecisionOptions} {c : DecisionCallbacks σ} {body : Params}
    {input : DecisionInput} {host : σ} {t' : Transaction} (ht : v.request.transaction = some t)
    (hbody : v.request.body = some body)
    (hinput : (decisionInput c v.request).run v = (.ok input, v.withHost host))
    (hdecide : (s.considered t input v).decide (.withFields (allows o body input) input.fields) =
      .ok t') :
    (s.recordDecision o c).run v =
      (.ok (), s.tally (·.countDecision (allows o body input)) ((v.withHost host).holding t')) := by
  unfold recordDecision theTransaction
  rw [Step.run_gets_bind]
  simp only [hbody, bind_assoc, Step.run_gets_bind, ht, pure_bind]
  rw [Step.run_bind, hinput]
  simp only [Step.run_gets_bind]
  have hconsidered : (s.renewed t (v.withHost host)).mergeLocals input.locals =
      s.considered t input v := rfl
  rw [hconsidered, hdecide]
  rfl

/-! ## The whole -/

inductive Deciding (s : Server σ) (completion : Completion σ) (v : Visit σ) :
    Except Fault Unit → Visit σ → Prop where
  | unrecorded {e : Fault} {v₁ : Visit σ} :
    Recording s v (.error e) v₁ → Deciding s completion v (.error e) v₁
  | answered {t : Transaction} {r : Except Fault Unit} {v₁ v₂ : Visit σ} :
    Recording s v (.ok ()) v₁ → v₁.request.transaction = some t →
    Responding s completion t.armStored (s.arm v₁) r v₂ → Deciding s completion v r v₂

theorem Recording.transaction {v₁ : Visit σ} (h : Recording s v (.ok ()) v₁) :
    ∃ t, v₁.request.transaction = some t := by
  cases h with
  | recorded _ _ _ => exact ⟨_, by rw [tally_request]; rfl⟩

theorem runDecision_cases {o : DecisionOptions} {c : DecisionCallbacks σ} {r : Except Fault Unit}
    (h : (s.runDecision o c).run v = (r, v')) : Deciding s c.completion v r v' := by
  rcases Step.bind_cases h with ⟨_, v₁, hr, h⟩ | ⟨e, hr, rfl⟩
  · have hrec := recordDecision_cases hr
    obtain ⟨t, ht⟩ := hrec.transaction
    rcases Step.bind_cases h with ⟨_, _, hx, h⟩ | ⟨_, hx, -⟩ <;> cases hx
    exact .answered hrec ht (respond_cases (by rw [arm_transaction, ht]; rfl) h)
  · exact .unrecorded (recordDecision_cases hr)

end AuthServer.Server

import AuthServer.Endpoint.Authorization
import AuthServer.Proofs.Endpoint.Response

/-!
# How the stages of an authorization end

One relation for each stage, with a case for each way it ends. The visit that
a stage leaves is written out in terms of what the callbacks and the store did.
-/

namespace AuthServer.Server

variable {σ : Type} {s : Server σ} {v v' : Visit σ}

/-- A kept transaction is on the request after an error, not after a crash. -/
theorem keeping_cases {α : Type} {t : Transaction} {x : Step (Visit σ) α} {r : Except Fault α}
    (h : (keeping t x).run v = (r, v')) :
    (x.run v = (r, v') ∧ ∀ e, r ≠ .error (.error e)) ∨
      ∃ e v₁, x.run v = (.error (.error e), v₁) ∧ r = .error (.error e) ∧ v' = v₁.holding t :=
  Step.onError_cases (fun _ (v₁ : Visit σ) => v₁.holding t) (fun _ _ => rfl) h

/-- A callback of the host under guard leaves the transaction on the request when it fails. -/
theorem keeping_asHost_cases {α : Type} {t : Transaction} {x : Step σ α} {r : Except Fault α}
    (h : (keeping t (Step.asHost x.guarded)).run v = (r, v')) :
    (∃ a host, x.guarded.run v.world.host = (.ok a, host) ∧ r = .ok a ∧ v' = v.withHost host) ∨
      ∃ e host, x.guarded.run v.world.host = (.error (.error e), host) ∧
        r = .error (.error e) ∧ v' = (v.withHost host).holding t := by
  rcases keeping_cases h with ⟨hr, hne⟩ | ⟨e, v₁, hr, rfl, rfl⟩
  · obtain ⟨host, rfl, ⟨a, hx, rfl⟩ | ⟨e, -, rfl⟩⟩ := asHost_guarded_cases hr
    · exact .inl ⟨a, host, hx, rfl, rfl⟩
    · exact absurd rfl (hne e)
  · obtain ⟨host, rfl, ⟨a, -, he⟩ | ⟨e', hx, he⟩⟩ := asHost_guarded_cases hr <;> cases he
    exact .inr ⟨e, host, hx, rfl, rfl⟩

/-! ## The new transaction -/

inductive Beginning (s : Server σ) (v : Visit σ) : Except Fault Transaction → Visit σ → Prop where
  | refused (e : Fault) (host : σ) : Beginning s v (.error e) (v.withHost host)
  | begun {type : TypeSet} {parsed : Parsed} {host : σ} :
    responseType v.request = .ok type →
    (s.dispatcher.parse type v.request).run v.world.host = (.ok parsed, host) →
    Beginning s v
      (.ok { Transaction.ofRequest parsed.request with
        user := v.request.principal? s.options.userProperty })
      (v.withHost host)

theorem Beginning.withHost {r : Except Fault Transaction} (h : Beginning s v r v') :
    ∃ host, v' = v.withHost host := by
  cases h with
  | refused _ host => exact ⟨host, rfl⟩
  | begun => exact ⟨_, rfl⟩

theorem newTransaction_cases {r : Except Fault Transaction} (h : s.newTransaction.run v = (r, v')) :
    Beginning s v r v' := by
  simp only [newTransaction, Step.run_gets_bind] at h
  rcases ht : responseType v.request with e | type <;> rw [ht] at h
  · cases h
    exact .refused (.error e) v.world.host
  · simp only [Step.ofExcept, pure_bind] at h
    rw [Step.run_bind, Step.run_asHost] at h
    rcases hp : (s.dispatcher.parse type v.request).run v.world.host with ⟨e | parsed, host⟩ <;>
      rw [hp] at h <;> simp only at h
    · cases h; exact .refused e host
    · split at h <;> cases h
      · exact .refused _ host
      · exact .begun ht hp

/-! ## Validation -/

inductive Validating (c : AuthorizationCallbacks σ) (t : Transaction) (v : Visit σ) :
    Except Fault Transaction → Visit σ → Prop where
  | failed {e : OAuthError} {host : σ} :
    (c.validate t.request).guarded.run v.world.host = (.error (.error e), host) →
    Validating c t v (.error (.error e)) ((v.withHost host).holding t)
  | unauthorized {a : Validated} {host : σ} :
    (c.validate t.request).guarded.run v.world.host = (.ok a, host) → a.client = none →
    Validating c t v (.error (.error .unauthorizedClient))
      ((v.withHost host).holding (t.validated none a.redirectUri a.webOrigin))
  | passed {a : Validated} {host : σ} {client : Json.Value} :
    (c.validate t.request).guarded.run v.world.host = (.ok a, host) → a.client = some client →
    Validating c t v
      (.ok ((t.validated (some client) a.redirectUri a.webOrigin).mergeLocals v.response.locals))
      (v.withHost host)

theorem validateClient_cases {c : AuthorizationCallbacks σ} {t : Transaction}
    {r : Except Fault Transaction} (h : (validateClient c t).run v = (r, v')) :
    Validating c t v r v' := by
  rcases Step.bind_cases h with ⟨a, v₁, hx, h⟩ | ⟨f, hx, rfl⟩
  · rcases keeping_asHost_cases hx with ⟨_, host, hv, hr, rfl⟩ | ⟨_, _, -, hr, -⟩ <;> cases hr
    simp only at h
    cases hc : a.client with
    | none =>
      rw [hc] at h
      cases h
      exact .unauthorized hv hc
    | some client =>
      rw [hc] at h
      cases h
      exact .passed hv hc
  · rcases keeping_asHost_cases hx with ⟨_, _, -, hr, -⟩ | ⟨e, host, hv, hr, rfl⟩ <;> cases hr
    exact .failed hv

/-! ## Suspension -/

inductive Suspending (s : Server σ) (t : Transaction) (v : Visit σ) :
    Except Fault Outcome → Visit σ → Prop where
  | stored {id : String} {v₁ : Visit σ} :
    (s.storeNew t).run v = (.ok id, v₁) →
    Suspending s t v (.ok (.pending id)) (s.tally (·.countStarted) (v₁.holding (t.persisted id)))
  | failed {e : OAuthError} {v₁ : Visit σ} :
    (s.storeNew t).run v = (.error (.error e), v₁) →
    Suspending s t v (.error (.error e)) (v₁.holding t)
  | crashed {v₁ : Visit σ} :
    (s.storeNew t).run v = (.error .crash, v₁) → Suspending s t v (.error .crash) v₁

theorem suspend_cases {t : Transaction} {r : Except Fault Outcome}
    (h : (s.suspend t).run v = (r, v')) : Suspending s t v r v' := by
  rcases Step.bind_cases h with ⟨id, v₁, hx, h⟩ | ⟨f, hx, rfl⟩
  · rcases keeping_cases hx with ⟨hs, -⟩ | ⟨_, _, -, hr, -⟩
    · cases h; exact .stored hs
    · cases hr
  · rcases keeping_cases hx with ⟨hs, hne⟩ | ⟨e, v₁, hs, hr, rfl⟩
    · cases f with
      | error e => exact absurd rfl (hne e)
      | crash => exact .crashed hs
    · cases hr; exact .failed hs

/-! ## An immediate decision -/

inductive Granting (s : Server σ) (t : Transaction) (fields : Params) (completion : Completion σ)
    (v : Visit σ) : Except Fault Outcome → Visit σ → Prop where
  | decided {e : OAuthError} :
    t.decide (.withFields true fields) = .error e →
    Granting s t fields completion v (.error (.error e)) (v.holding t)
  | responded {t' : Transaction} {v₁ : Visit σ} :
    t.decide (.withFields true fields) = .ok t' →
    Responding s completion t' (s.tally (·.countDecision true) (v.holding t')) (.ok ()) v₁ →
    Granting s t fields completion v (.ok .responded) v₁
  | failed {t' : Transaction} {e : Fault} {v₁ : Visit σ} :
    t.decide (.withFields true fields) = .ok t' →
    Responding s completion t' (s.tally (·.countDecision true) (v.holding t')) (.error e) v₁ →
    Granting s t fields completion v (.error e) v₁

theorem grantAtOnce_cases {t : Transaction} {fields : Params} {completion : Completion σ}
    {r : Except Fault Outcome} (h : (s.grantAtOnce t fields completion).run v = (r, v')) :
    Granting s t fields completion v r v' := by
  simp only [grantAtOnce] at h
  rcases hd : t.decide (.withFields true fields) with e | t' <;> rw [hd] at h
  · cases h
    exact .decided hd
  · have hheld : (s.tally (·.countDecision true) (v.holding t')).request.transaction = some t' := by
      rw [tally_request]; rfl
    rcases Step.bind_cases h with ⟨_, _, hx, h⟩ | ⟨_, hx, -⟩ <;> cases hx
    rcases Step.bind_cases h with ⟨_, _, hx, h⟩ | ⟨_, hx, -⟩ <;> cases hx
    rcases Step.bind_cases h with ⟨_, _, hx, h⟩ | ⟨_, hx, -⟩ <;> cases hx
    rcases Step.bind_cases h with ⟨_, _, hx, h⟩ | ⟨e, hx, rfl⟩
    · cases h; exact .responded hd (respond_cases hheld hx)
    · exact .failed hd (respond_cases hheld hx)

inductive Trying (s : Server σ) (immediate : Immediate σ) (completion : Completion σ)
    (t : Transaction) (v : Visit σ) : Except Fault Outcome → Visit σ → Prop where
  | failed {e : OAuthError} {host : σ} :
    (immediate t).guarded.run v.world.host = (.error (.error e), host) →
    Trying s immediate completion t v (.error (.error e)) ((v.withHost host).holding t)
  | granted {verdict : Verdict} {host : σ} {r : Except Fault Outcome} {v₁ : Visit σ} :
    (immediate t).guarded.run v.world.host = (.ok verdict, host) → verdict.allow = true →
    Granting s (t.mergeLocals verdict.locals) (verdict.info.getD []) completion (v.withHost host) r v₁ →
    Trying s immediate completion t v r v₁
  | deferred {verdict : Verdict} {host : σ} {r : Except Fault Outcome} {v₁ : Visit σ} :
    (immediate t).guarded.run v.world.host = (.ok verdict, host) → verdict.allow = false →
    Suspending s ((t.mergeLocals verdict.locals).withInfo verdict.info) (v.withHost host) r v₁ →
    Trying s immediate completion t v r v₁

theorem tryAtOnce_cases {immediate : Immediate σ} {completion : Completion σ} {t : Transaction}
    {r : Except Fault Outcome} (h : (s.tryAtOnce immediate completion t).run v = (r, v')) :
    Trying s immediate completion t v r v' := by
  rcases Step.bind_cases h with ⟨verdict, v₁, hx, h⟩ | ⟨f, hx, rfl⟩
  · rcases keeping_asHost_cases hx with ⟨_, host, hi, hr, rfl⟩ | ⟨_, _, -, hr, -⟩ <;> cases hr
    simp only at h
    cases ha : verdict.allow <;> rw [ha] at h
    · exact .deferred hi ha (suspend_cases h)
    · exact .granted hi ha (grantAtOnce_cases h)
  · rcases keeping_asHost_cases hx with ⟨_, _, -, hr, -⟩ | ⟨e, host, hi, hr, rfl⟩ <;> cases hr
    exact .failed hi

/-! ## The whole -/

inductive Authorizing (s : Server σ) (c : AuthorizationCallbacks σ) (v : Visit σ) :
    Except Fault Outcome → Visit σ → Prop where
  | refused {e : Fault} {v₁ : Visit σ} :
    s.newTransaction.run v = (.error e, v₁) → Authorizing s c v (.error e) v₁
  | invalid {t : Transaction} {v₁ v₂ : Visit σ} {e : Fault} :
    s.newTransaction.run v = (.ok t, v₁) → Validating c t v₁ (.error e) v₂ →
    Authorizing s c v (.error e) v₂
  | asked {t t' : Transaction} {v₁ v₂ v₃ : Visit σ} {r : Except Fault Outcome} :
    s.newTransaction.run v = (.ok t, v₁) → Validating c t v₁ (.ok t') v₂ → c.immediate = none →
    Suspending s t' v₂ r v₃ → Authorizing s c v r v₃
  | tried {t t' : Transaction} {v₁ v₂ v₃ : Visit σ} {immediate : Immediate σ}
    {r : Except Fault Outcome} :
    s.newTransaction.run v = (.ok t, v₁) → Validating c t v₁ (.ok t') v₂ →
    c.immediate = some immediate → Trying s immediate c.completion t' v₂ r v₃ →
    Authorizing s c v r v₃

theorem runAuthorization_cases {c : AuthorizationCallbacks σ} {r : Except Fault Outcome}
    (h : (s.runAuthorization c).run v = (r, v')) : Authorizing s c v r v' := by
  rcases Step.bind_cases h with ⟨t, v₁, hn, h⟩ | ⟨e, hn, rfl⟩
  · rcases Step.bind_cases h with ⟨t', v₂, hv, h⟩ | ⟨e, hv, rfl⟩
    · cases hi : c.immediate with
      | none =>
        rw [hi] at h
        exact .asked hn (validateClient_cases hv) hi (suspend_cases h)
      | some immediate =>
        rw [hi] at h
        exact .tried hn (validateClient_cases hv) hi (tryAtOnce_cases h)
    · exact .invalid hn (validateClient_cases hv)
  · exact .refused hn

/-! ## A plain server -/

/-- One response type without parameters, and clients stored as they are. -/
def plain (store : Store Unit) : Server Unit :=
  { ofStore store with
    dispatcher := Dispatcher.empty.addParser "code" fun _ => pure []
    clients := ⟨[fun client => pure (.matched client)], [fun stored => pure (.matched (some stored))]⟩ }

/-- Every client is `c1`, and is known to live at `https://c1.example/cb`. -/
def trusting : AuthorizationCallbacks Unit :=
  ⟨fun _ => pure ⟨some (.str "c1"), some "https://c1.example/cb", none⟩, none, .none⟩

def asking : Visit Unit :=
  ⟨{ Request.empty with query := [("response_type", .str "code")], session := some [] }, .empty,
    ⟨fun _ => [], ⟨fun _ => 0, 0⟩, .zero, ()⟩⟩

end AuthServer.Server

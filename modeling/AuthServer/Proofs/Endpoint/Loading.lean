import AuthServer.Endpoint.Loading
import AuthServer.Proofs.Endpoint.Response

/-!
# How loading a transaction ends

Only a transaction whose client is gone is removed, and that is reported as
an unauthorized client. A crash while removing it is no answer at all.
-/

namespace AuthServer.Server

variable {σ : Type} {s : Server σ} {v v' : Visit σ}

theorem removeQuietly_cases {id : String} {r : Except Fault Unit}
    (h : (s.removeQuietly id).run v = (r, v')) :
    (∃ r', (s.remove id).run v = (r', v') ∧ r' ≠ .error .crash ∧ r = .ok ()) ∨
      (s.remove id).run v = (.error .crash, v') ∧ r = .error .crash := by
  simp only [removeQuietly] at h
  rw [Step.run_bind, Step.run_attempt] at h
  rcases hx : (s.remove id).run v with ⟨(e | _) | _, v₁⟩ <;> rw [hx] at h <;> cases h
  · exact .inl ⟨_, rfl, nofun, rfl⟩
  · exact .inr ⟨rfl, rfl⟩
  · exact .inl ⟨_, rfl, nofun, rfl⟩

/-- The removal hook does what the store does. -/
theorem runHook_removal {id : String} {r : Except Fault Unit}
    (h : (Visit.runHook (.removal s.store s.options id)).run v = (r, v')) :
    ∃ r', (s.remove id).run v = (r', v') := by
  have hquietly : (s.removeQuietly id).run v = (r, v') := h
  rcases removeQuietly_cases hquietly with ⟨r', hremove, -, -⟩ | ⟨hremove, -⟩
  · exact ⟨r', hremove⟩
  · exact ⟨_, hremove⟩

inductive Loading (s : Server σ) (v : Visit σ) : Except Fault Unit → Visit σ → Prop where
  | present {t : Transaction} : v.request.transaction = some t → Loading s v (.ok ()) v
  | failed {e : Fault} {v₁ : Visit σ} (metrics : Metrics) :
    v.request.transaction = none → s.load.run v = (.error e, v₁) →
    Loading s v (.error e) (v₁.withMetrics metrics)
  | loaded {t : Transaction} {v₁ : Visit σ} (metrics : Metrics) :
    v.request.transaction = none → s.load.run v = (.ok t, v₁) → t.client.isSome →
    Loading s v (.ok ()) ((v₁.holding t).withMetrics metrics)
  | unstored {t : Transaction} {v₁ : Visit σ} (metrics : Metrics) :
    v.request.transaction = none → s.load.run v = (.ok t, v₁) → t.client = none → t.id = none →
    Loading s v (.error (.error .unauthorizedClient)) (v₁.withMetrics metrics)
  | removed {t : Transaction} {id : String} {r : Except Fault Unit} {v₁ v₂ : Visit σ}
    (metrics : Metrics) :
    v.request.transaction = none → s.load.run v = (.ok t, v₁) → t.client = none → t.id = some id →
    (s.remove id).run v₁ = (r, v₂) → r ≠ .error .crash →
    Loading s v (.error (.error .unauthorizedClient)) (v₂.withMetrics metrics)
  | crashed {t : Transaction} {id : String} {v₁ v₂ : Visit σ} (metrics : Metrics) :
    v.request.transaction = none → s.load.run v = (.ok t, v₁) → t.client = none → t.id = some id →
    (s.remove id).run v₁ = (.error .crash, v₂) →
    Loading s v (.error .crash) (v₂.withMetrics metrics)

theorem loadTransaction_cases {r : Except Fault Unit} (h : s.loadTransaction.run v = (r, v')) :
    Loading s v r v' := by
  simp only [loadTransaction, Step.run_gets_bind] at h
  rcases ht : v.request.transaction with _ | t <;> rw [ht] at h
  · obtain ⟨v₂, m, hx, rfl⟩ := counted_cases h
    rcases Step.bind_cases hx with ⟨t, v₁, hl, h⟩ | ⟨e, hl, rfl⟩
    · rcases hc : t.client with _ | client <;> simp only [hc] at h
      · rcases hid : t.id with _ | id <;> simp only [hid] at h
        · cases h
          exact .unstored m ht hl hc hid
        · rcases Step.bind_cases h with ⟨_, _, hq, h⟩ | ⟨_, hq, rfl⟩
          · cases h
            rcases removeQuietly_cases hq with ⟨r', hr, hne, -⟩ | ⟨-, hr⟩
            · exact .removed m ht hl hc hid hr hne
            · cases hr
          · rcases removeQuietly_cases hq with ⟨_, -, -, hr⟩ | ⟨hr, he⟩
            · cases hr
            · cases he
              exact .crashed m ht hl hc hid hr
      · cases h
        exact .loaded m ht hl (by rw [hc]; rfl)
    · exact .failed m ht hl
  · cases h
    exact .present ht

/-- What a request without a transaction has after it was loaded. -/
theorem loaded_of_ok (hnew : v.request.transaction = none)
    (h : s.loadTransaction.run v = (.ok (), v')) :
    ∃ t v₁ m, s.load.run v = (.ok t, v₁) ∧ t.client.isSome ∧ v' = (v₁.holding t).withMetrics m := by
  have hcases := loadTransaction_cases h
  generalize hr : (Except.ok () : Except Fault Unit) = r at hcases
  cases hcases with
  | present ht => rw [hnew] at ht; cases ht
  | failed => cases hr
  | loaded m _ hload hclient => exact ⟨_, _, m, hload, hclient, rfl⟩
  | unstored => cases hr
  | removed => cases hr
  | crashed => cases hr

/-- A stored transaction that still has its client is loaded. -/
theorem loads_of_client {t : Transaction} {v₁ : Visit σ} (hload : s.load.run v = (.ok t, v₁))
    (hclient : t.client.isSome) {r : Except Fault Unit} (h : s.loadTransaction.run v = (r, v')) :
    r = .ok () := by
  have hne : ∀ {t' v₂}, s.load.run v = (.ok t', v₂) → t'.client ≠ none := by
    intro t' v₂ hl hnone
    rw [hload] at hl
    cases hl
    rw [hnone] at hclient
    cases hclient
  cases loadTransaction_cases h with
  | present => rfl
  | failed _ _ hl => rw [hload] at hl; cases hl
  | loaded => rfl
  | unstored _ _ hl hnone => exact absurd hnone (hne hl)
  | removed _ _ hl hnone => exact absurd hnone (hne hl)
  | crashed _ _ hl hnone => exact absurd hnone (hne hl)

end AuthServer.Server

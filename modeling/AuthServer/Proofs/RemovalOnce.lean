import AuthServer.Proofs.Bundled
import AuthServer.Proofs.Calls
import AuthServer.Proofs.Endpoint.Decision
import AuthServer.Proofs.Endpoint.Error
import AuthServer.Proofs.Endpoint.Loading
import AuthServer.Proofs.Endpoint.Resume
import AuthServer.Proofs.FinishHooks

/-!
# Removal, armed once and run once

The flag of the transaction and the hook of the response are set together, by a decision or by an
error that is told to the client. The first finish of the written response takes the hooks off, so
the removal runs then or never.
-/

namespace AuthServer

open Json

variable {σ : Type}

/-! ## Hooks of others -/

/-- A hook of the host, under a key of its own if it has one. -/
def FinishHook.Foreign : FinishHook σ → Prop
  | removal .. => False
  | host key _ => key ≠ some removalKey

/-- As far as finishing goes `r'` is `r`, but that hooks of the host came in. -/
def Response.Extends (r r' : Response σ) : Prop :=
  r'.finished = r.finished ∧
    ∃ added, r'.hooks = r.hooks ++ added ∧ ∀ hook ∈ added, hook.Foreign

namespace Response

variable {r r₁ r' : Response σ}

theorem Extends.refl (r : Response σ) : r.Extends r := ⟨rfl, [], by simp, nofun⟩

theorem Extends.trans (h : r.Extends r₁) (h' : r₁.Extends r') : r.Extends r' := by
  obtain ⟨hfinished, added, hhooks, hadded⟩ := h
  obtain ⟨hfinished', added', hhooks', hadded'⟩ := h'
  refine ⟨hfinished'.trans hfinished, added ++ added', ?_, fun hook hmem => ?_⟩
  · rw [hhooks', hhooks, List.append_assoc]
  · rcases List.mem_append.1 hmem with hmem | hmem
    · exact hadded hook hmem
    · exact hadded' hook hmem

theorem extends_settled (r : Response σ) : Settled r.Extends := by
  rintro r₁ r' hhooks hfinished ⟨hfinished₁, added, hhooks₁, hadded⟩
  exact ⟨hfinished.trans hfinished₁, added, hhooks.trans hhooks₁, hadded⟩

theorem removals_foreign {hooks : List (FinishHook σ)} (h : ∀ hook ∈ hooks, hook.Foreign) :
    removals hooks = [] :=
  removals_eq_nil fun _ _ _ hmem => h _ hmem

theorem Extends.removals_eq (h : r.Extends r') : removals r'.hooks = removals r.hooks := by
  obtain ⟨-, added, hhooks, hadded⟩ := h
  rw [hhooks, removals_append, removals_foreign hadded, List.append_nil]

theorem Extends.initial (h : r.Extends r') : r.hooks <+: r'.hooks := by
  obtain ⟨-, added, hhooks, -⟩ := h
  exact ⟨added, hhooks.symm⟩

end Response

/-! ## Updates of a store -/

namespace Server

variable {s : Server σ} {id : String} {t t' : Transaction}

/-- An update answers with the id that it is given. -/
def UpdatesInPlace (s : Server σ) : Prop :=
  ∀ (id : String) (t : Transaction) (v : Visit σ) (id' : String),
    ((s.storeAgain id t).run v).1 = .ok id' → id' = id

/-- An update leaves the transaction of the request. -/
def SparesTransaction (s : Server σ) : Prop :=
  ∀ (id : String) (t : Transaction) (v : Visit σ),
    ((s.storeAgain id t).run v).2.request.transaction = v.request.transaction

theorem updates_memory {number : Nat} {lifetime : Store.Lifetime σ} (hs : s.store = .memory number lifetime) :
    s.SparesTransaction ∧ s.UpdatesInPlace := by
  refine ⟨fun id t v => ?_, fun id t v id' h => ?_⟩
  · rw [storeAgain_memory hs]
    rfl
  · rw [storeAgain_memory hs] at h
    exact (Except.ok.inj h).symm

theorem updates_session (hs : s.store = .session) : s.SparesTransaction ∧ s.UpdatesInPlace := by
  have hcases : ∀ {id : String} {t : Transaction} {v v' : Visit σ} {r : Except Fault String},
      (s.storeAgain id t).run v = (r, v') →
        v'.request.transaction = v.request.transaction ∧ ∀ id', r = .ok id' → id' = id := by
    intro id t v v' r h
    obtain ⟨host, ⟨rfl, e, rfl⟩ | ⟨session, record, -, -, rfl, rfl⟩⟩ := storeAgain_session_cases hs h
    · exact ⟨rfl, nofun⟩
    · exact ⟨rfl, fun _ hid => (Except.ok.inj hid).symm⟩
  exact ⟨fun _ _ _ => (hcases rfl).1, fun _ _ _ id' h => (hcases rfl).2 id' h⟩

/-- The transaction that was loaded under `id`. It has another id if an update gave it one. -/
def Under (s : Server σ) (id : String) (t : Transaction) : Prop :=
  ∃ id', t.id = some id' ∧ (s.UpdatesInPlace → id' = id)

theorem Under.congr (h : s.Under id t) (hid : t'.id = t.id) : s.Under id t' := by
  obtain ⟨id', ht, hplace⟩ := h
  exact ⟨id', hid.trans ht, hplace⟩

end Server

/-- Removes the transaction that was loaded under `id` from the store of `s`. -/
def FinishHook.Removes (s : Server σ) (id : String) (hook : FinishHook σ) : Prop :=
  ∃ id', hook = .removal s.store s.options id' ∧ (s.UpdatesInPlace → id' = id)

theorem FinishHook.Removes.removals_ne_nil {s : Server σ} {id : String} {hook : FinishHook σ}
    {hooks : List (FinishHook σ)} (h : hook.Removes s id) (hmem : hook ∈ hooks) : removals hooks ≠ [] := by
  obtain ⟨id', rfl, -⟩ := h
  exact List.ne_nil_of_mem (List.mem_filterMap.2 ⟨_, hmem, rfl⟩)

/-! ## What a call does to the removal -/

namespace Visit

/-- The removal of the transaction that was loaded under `id` is as it was. -/
structure Continues (s : Server σ) (id : String) (v v' : Visit σ) : Prop where
  transaction : ∀ t, v.request.transaction = some t → s.Under id t →
    ∃ t', v'.request.transaction = some t' ∧ s.Under id t' ∧
      t'.removalArmed = t.removalArmed ∧ t'.decision = t.decision
  response : v.response.Extends v'.response

variable {s : Server σ} {id : String} {v v₁ v' : Visit σ}

theorem Continues.refl (v : Visit σ) : Continues s id v v :=
  ⟨fun t ht hid => ⟨t, ht, hid, rfl, rfl⟩, .refl _⟩

theorem Continues.trans (h : Continues s id v v₁) (h' : Continues s id v₁ v') : Continues s id v v' := by
  refine ⟨fun t ht hid => ?_, h.response.trans h'.response⟩
  obtain ⟨t₁, ht₁, hid₁, harmed₁, hdecision₁⟩ := h.transaction t ht hid
  obtain ⟨t', ht', hid', harmed', hdecision'⟩ := h'.transaction t₁ ht₁ hid₁
  exact ⟨t', ht', hid', harmed'.trans harmed₁, hdecision'.trans hdecision₁⟩

theorem continues_of_eq (ht : v'.request.transaction = v.request.transaction)
    (hr : v'.response = v.response) : Continues s id v v' :=
  ⟨fun t ht' hid => ⟨t, ht.trans ht', hid, rfl, rfl⟩, by rw [hr]; exact .refl _⟩

/-- Another transaction in place of `t`, with the same id, flag and decision. -/
theorem continues_holding {t t' : Transaction} (ht : v.request.transaction = some t) (hid : t'.id = t.id)
    (harmed : t'.removalArmed = t.removalArmed) (hdecision : t'.decision = t.decision) :
    Continues s id v (v.holding t') := by
  refine ⟨fun t₁ ht₁ hunder => ?_, .refl _⟩
  rw [ht] at ht₁
  cases ht₁
  exact ⟨t', rfl, hunder.congr hid, harmed, hdecision⟩

theorem continues_withReply {α : Type} {x : Step (Reply σ) α} {r : Except Fault α} {reply : Reply σ}
    (hx : ∀ r₀ : Response σ, x.Keeps fun reply => r₀.Extends reply.response)
    (h : x.run v.reply = (r, reply)) : Continues s id v (v.withReply reply) := by
  refine ⟨fun t ht hid => ⟨t, ht, hid, rfl, rfl⟩, ?_⟩
  exact (hx v.response).of_run h (.refl _)

/-- The transaction of the request is decided. -/
def Decided (v : Visit σ) : Prop :=
  ∃ t d, v.request.transaction = some t ∧ t.decision = some d

theorem decided_iff {t : Transaction} (ht : v.request.transaction = some t) :
    v.Decided ↔ t.decision.isSome := by
  simp [Decided, ht, Option.isSome_iff_exists]

theorem Continues.decided_iff (h : Continues s id v v') {t : Transaction}
    (ht : v.request.transaction = some t) (hid : s.Under id t) : v'.Decided ↔ v.Decided := by
  obtain ⟨t', ht', -, -, hdecision⟩ := h.transaction t ht hid
  rw [Visit.decided_iff ht', Visit.decided_iff ht, hdecision]

end Visit

namespace Server

variable {s : Server σ} {id : String} {b : Bool} {v v₁ v' : Visit σ} {t : Transaction}

/-- The removal is left as it was, or it is armed on the way. -/
inductive Arranging (s : Server σ) (id : String) (v : Visit σ) : Bool → Visit σ → Prop where
  | left {v' : Visit σ} : v.Continues s id v' → Arranging s id v false v'
  | armed {v₁ v' : Visit σ} :
    v₁.response = v.response →
    (∀ t, v.request.transaction = some t → s.Under id t →
      ∃ t₁, v₁.request.transaction = some t₁ ∧ s.Under id t₁ ∧ t₁.removalArmed = t.removalArmed) →
    (s.arm v₁).Continues s id v' → Arranging s id v true v'

/-- With the transaction at hand, the removal is armed if and only if `P`. -/
def Arranges (s : Server σ) (id : String) (v : Visit σ) (P : Prop) (v' : Visit σ) : Prop :=
  ∃ b, Arranging s id v b v' ∧
    ∀ t, v.request.transaction = some t → s.Under id t → (b = true ↔ P)

/-- A decision is recorded between the two. -/
def Records (v v' : Visit σ) : Prop := ¬ v.Decided ∧ v'.Decided

end Server

/-- A call that arms the removal: it records a decision, or it tells the client of an error. -/
def Call.Arms (s : Server σ) (v : Visit σ) (c : Call σ) : Prop :=
  match c with
  | .decide .. | .resume .. => Server.Records v ((c.run s).run v).2
  | .redirectError _ => True
  | _ => False

/-- The calls that work on a loaded transaction and its response. -/
def Call.Answering : Call σ → Prop
  | authorize _ | load | token => False
  | _ => True

namespace Server

variable {s : Server σ} {id : String} {v v₁ v' : Visit σ} {t : Transaction}

theorem Arranges.of_left (h : v.Continues s id v') : Arranges s id v (Records v v') v' :=
  ⟨false, .left h, fun t ht hid => by simp [Records, h.decided_iff ht hid]⟩

/-! ## Suspending again -/

theorem putBack_response {r : Except Fault String} (h : (s.putBack t).run v = (r, v')) :
    v'.response = v.response := by
  have hkeeps : (s.putBack t).Keeps fun v₁ => v₁.response = v.response := by
    unfold putBack
    split
    · exact fun _ hv₁ => hv₁
    · exact fun _ hv₁ => hv₁
  exact hkeeps.of_run h rfl

theorem SuspendingAgain.continues (hstore : s.SparesTransaction) {r : Except Fault Outcome}
    (h : SuspendingAgain s t v r v') : (v.holding t).Continues s id v' := by
  have hput : ∀ {id' : String}, t.id = some id' → s.putBack t = s.storeAgain id' t :=
    fun hid => by rw [putBack, hid]
  cases h with
  | @stored id₁ v₁ hrun =>
    refine ⟨fun t₁ ht₁ hunder => ?_, ?_⟩
    · cases ht₁
      obtain ⟨id', hid, hplace⟩ := hunder
      rw [hput hid] at hrun
      exact ⟨_, rfl, ⟨id₁, rfl, fun h => (h id' t _ id₁ (by rw [hrun])).trans (hplace h)⟩, rfl, rfl⟩
    · show v.response.Extends v₁.response
      rw [putBack_response hrun]
      exact .refl _
  | failed hrun =>
    refine ⟨fun t₁ ht₁ hunder => ?_, ?_⟩
    · cases ht₁
      obtain ⟨id', hid, hplace⟩ := hunder
      rw [hput hid] at hrun
      have hspared := hstore id' t (v.holding t)
      rw [hrun] at hspared
      exact ⟨t, hspared, ⟨id', hid, hplace⟩, rfl, rfl⟩
    · rw [putBack_response hrun]
      exact .refl _

/-! ## Deciding, resuming and telling of errors -/

section Handlers

variable (hd : ∀ r₀ : Response σ, s.dispatcher.Keeps r₀.Extends)
include hd

theorem Responding.continues {complete : Completion σ} {r : Except Fault Unit}
    (ht : v.request.transaction = some t) (h : Responding s complete t v r v') :
    v.Continues s id v' := by
  have hkeeps : ∀ r₀ : Response σ,
      (s.dispatcher.respond t complete).Keeps fun reply => r₀.Extends reply.response :=
    fun r₀ => Dispatcher.respond_keeps fun l hl => (hd r₀).responders l hl t complete
  cases h with
  | @answered reply hrun =>
    have hheld : (v.withReply reply).request.transaction = some t := ht
    exact (Visit.continues_withReply hkeeps hrun).trans (Visit.continues_holding hheld rfl rfl rfl)
  | unsupported hrun => exact Visit.continues_withReply hkeeps hrun
  | failed hrun => exact Visit.continues_withReply hkeeps hrun

/-- What follows the record of a decision: `t₀` is what is decided on, `t₁` what becomes of it. -/
theorem Responding.arranges (t₀ : Transaction) {t₁ : Transaction} {d : Decision}
    {complete : Completion σ} {r : Except Fault Unit} {v₂ : Visit σ}
    (ht : v.request.transaction = some t) (hid : t₀.id = t.id)
    (harmed : t₀.removalArmed = t.removalArmed) (hdecision : t₀.decision = t.decision)
    (hdecide : t₀.decide d = .ok t₁) (ht₁ : v₁.request.transaction = some t₁)
    (hr : v₁.response = v.response) (h : Responding s complete t₁.armStored (s.arm v₁) r v₂)
    (hafter : v₂.Continues s id v') : Arranges s id v (Records v v') v' := by
  have hheld : (s.arm v₁).request.transaction = some t₁.armStored := by
    rw [arm_transaction, ht₁]
    rfl
  have hcontinues : (s.arm v₁).Continues s id v' := (h.continues hd hheld).trans hafter
  have ht₁eq := Transaction.decide_eq hdecide
  refine ⟨true, .armed hr (fun t' ht' hunder => ⟨t₁, ht₁, ?_⟩) hcontinues, fun t' ht' hunder => ?_⟩
  all_goals
    rw [ht] at ht'
    cases ht'
    have hunder₁ : s.Under id t₁ := hunder.congr (by rw [ht₁eq]; exact hid)
  · exact ⟨hunder₁, by rw [ht₁eq]; exact harmed⟩
  · have hundecided : t.decision = none := hdecision ▸ Transaction.undecided_of_decide hdecide
    have hdecided : v'.Decided := by
      rw [hcontinues.decided_iff hheld (hunder₁.congr rfl), Visit.decided_iff hheld, ht₁eq]
      rfl
    simp [Records, Visit.decided_iff ht, hundecided, hdecided]

theorem decide_arranges {o : DecisionOptions} {c : DecisionCallbacks σ} {r : Except Fault Unit}
    (h : (s.decide o c).run v = (r, v')) : Arranges s id v (Records v v') v' := by
  obtain ⟨v₂, m, hx, rfl⟩ := counted_cases h
  have hmetrics : v₂.Continues s id (v₂.withMetrics m) := Visit.continues_of_eq rfl rfl
  cases runDecision_cases hx with
  | @unrecorded e _ hrec =>
    refine .of_left (Visit.Continues.trans ?_ hmetrics)
    generalize hr : (Except.error e : Except Fault Unit) = r at hrec
    cases hrec with
    | refused => exact Visit.continues_of_eq rfl rfl
    | @decidedBefore t input host _ ht =>
      have hheld : (v.withHost host).request.transaction = some t := ht
      have hhost : v.Continues s id (v.withHost host) := Visit.continues_of_eq rfl rfl
      exact hhost.trans (Visit.continues_holding hheld rfl rfl rfl)
    | recorded => cases hr
  | @answered t' _ v₁ _ hrec ht' hresponding =>
    generalize hr : (Except.ok () : Except Fault Unit) = r at hrec
    cases hrec with
    | refused => cases hr
    | decidedBefore => cases hr
    | @recorded t body input host allow t₁ ht hbody hdecide =>
      have hheld : (s.tally (·.countDecision allow) ((v.withHost host).holding t₁)).request.transaction =
          some t₁ := by rw [tally_request]; rfl
      obtain rfl : t₁ = t' := Option.some.inj (hheld.symm.trans ht')
      exact Responding.arranges hd (s.considered t input v) ht rfl rfl rfl hdecide ht'
        (by rw [tally_response]; rfl) hresponding hmetrics

omit hd in
theorem continues_reconsidered (s : Server σ) (ht : v.request.transaction = some t) (host : σ)
    (locals : Option Params) : v.Continues s id
      (((s.reconsidered t v).withHost host).holding ((s.renewed t v).mergeLocals locals)) := by
  refine ⟨fun t₀ ht₀ hid => ?_, ?_⟩
  · rw [ht] at ht₀
    cases ht₀
    exact ⟨_, rfl, hid, rfl, rfl⟩
  · show v.response.Extends (s.reconsidered t v).response
    rw [reconsidered_response]
    exact .refl _

theorem resume_arranges (hstore : s.SparesTransaction) {immediate : Immediate σ}
    {completion : Completion σ} {r : Except Fault Outcome}
    (h : (s.resume immediate completion).run v = (r, v')) : Arranges s id v (Records v v') v' := by
  obtain ⟨v₂, m, hx, rfl⟩ := counted_cases h
  have hmetrics : v₂.Continues s id (v₂.withMetrics m) := Visit.continues_of_eq rfl rfl
  cases runResume_cases hx with
  | unloaded => exact .of_left hmetrics
  | @failed t e host ht =>
    refine .of_left (Visit.Continues.trans ⟨fun t₀ ht₀ hid => ?_, ?_⟩ hmetrics)
    · rw [ht] at ht₀
      cases ht₀
      refine ⟨s.renewed t v, ?_, hid, rfl, rfl⟩
      show (s.reconsidered t v).request.transaction = _
      rw [reconsidered_request]
      rfl
    · show v.response.Extends (s.reconsidered t v).response
      rw [reconsidered_response]
      exact .refl _
  | @granted t verdict host _ _ ht _ _ hgranting =>
    cases hgranting with
    | decided => exact .of_left ((s.continues_reconsidered ht host _).trans hmetrics)
    | @answered t₁ _ _ hdecide hresponding =>
      refine Responding.arranges hd ((s.renewed t v).mergeLocals verdict.locals) ht rfl rfl rfl
        hdecide (by rw [tally_request]; rfl) ?_ hresponding hmetrics
      rw [tally_response]
      exact s.reconsidered_response t v
  | @deferred t verdict host _ _ ht _ _ hsuspending =>
    have hreconsidered : v.Continues s id _ := s.continues_reconsidered ht host verdict.locals
    have hinfo : Visit.Continues s id _
        ((((s.reconsidered t v).withHost host).holding ((s.renewed t v).mergeLocals verdict.locals)).holding
          (((s.renewed t v).mergeLocals verdict.locals).withInfo verdict.info)) :=
      Visit.continues_holding rfl rfl rfl rfl
    exact .of_left (((hreconsidered.trans hinfo).trans (hsuspending.continues hstore)).trans hmetrics)

theorem redirectError_arranges {e : OAuthError} {r : Except Fault Unit}
    (h : (s.redirectError e).run v = (r, v')) : Arranges s id v True v' := by
  cases redirectError_cases h with
  | absent ht => exact ⟨false, .left (.refl _), fun t ht' => by rw [ht] at ht'; cases ht'⟩
  | @handed t r reply ht hrun =>
    have hkeeps : ∀ r₀ : Response σ,
        (s.dispatcher.respondError e t).Keeps fun reply => r₀.Extends reply.response :=
      fun r₀ => Dispatcher.respondError_keeps (fun l hl e => (hd r₀).errorResponders l hl e t) e
    refine ⟨true, .armed rfl (fun t ht hid => ⟨t, ht, hid, rfl⟩) ?_, fun _ _ _ => by simp⟩
    exact Visit.continues_withReply hkeeps hrun

omit hd in
theorem render_continues {renderer : ErrorRenderer σ} {e : OAuthError} {r : Except Fault Unit}
    (hmodes : ∀ r₀ : Response σ, (Call.renderError renderer e).Keeps r₀.Extends)
    (h : (renderer.render e).run v = (r, v')) : v.Continues s id v' := by
  cases ErrorRenderer.render_cases h with
  | direct =>
    refine ⟨fun t ht hid => ⟨t, ht, hid, rfl, rfl⟩, ?_⟩
    show v.response.Extends (ErrorRenderer.writeDirect e v.response)
    unfold ErrorRenderer.writeDirect
    split
    · exact v.response.extends_settled v.response _ rfl rfl (.refl _)
    · exact v.response.extends_settled v.response _ rfl rfl (.refl _)
  | absent => exact .refl v
  | @indirect t _ _ _ _ hrun =>
    have hkeeps : ∀ r₀ : Response σ,
        (renderer.renderIndirect e t).Keeps fun reply => r₀.Extends reply.response := by
      intro r₀
      have hredirects : ∀ place p, ((ResponseMode.redirecting place : ResponseMode σ).render t p).Keeps
          fun reply => r₀.Extends reply.response :=
        fun place p => ResponseMode.render_keeps fun _ _ r hr => r₀.extends_settled r _ rfl rfl hr
      exact ErrorRenderer.renderIndirect_keeps (fun m hm p => hmodes r₀ m hm t p) (hredirects _)
        (hredirects _) e
    exact Visit.continues_withReply hkeeps hrun

/-- A call but for a finish arms the removal as `Call.Arms` tells, or leaves it as it was. -/
theorem call_arranges (hstore : s.SparesTransaction) {c : Call σ} (hc : c.Answering)
    (hfinish : c ≠ .finish) (hmodes : ∀ r₀ : Response σ, c.Keeps r₀.Extends) :
    Arranges s id v (c.Arms s v) ((c.run s).run v).2 := by
  rcases hrun : (c.run s).run v with ⟨r, v'⟩
  cases c with
  | authorize => exact hc.elim
  | load => exact hc.elim
  | token => exact hc.elim
  | finish => exact absurd rfl hfinish
  | resume immediate completion =>
    obtain ⟨_, hx, -⟩ := Step.map_cases hrun
    simp only [Call.Arms, hrun]
    exact resume_arranges hd hstore hx
  | decide o c =>
    obtain ⟨_, hx, -⟩ := Step.map_cases hrun
    simp only [Call.Arms, hrun]
    exact decide_arranges hd hx
  | redirectError e =>
    obtain ⟨_, hx, -⟩ := Step.map_cases hrun
    exact redirectError_arranges hd hx
  | renderError renderer e =>
    obtain ⟨_, hx, -⟩ := Step.map_cases hrun
    exact ⟨false, .left (render_continues hmodes hx), fun _ _ _ => by simp [Call.Arms]⟩

end Handlers

/-! ## Before the finish -/

end Server

/-- A finish hook will remove the stored copy of the request's transaction. -/
def Visit.Armed (v : Visit σ) : Prop :=
  ∃ t, v.request.transaction = some t ∧ t.removalArmed = true

namespace Server

variable {s : Server σ} {id : String} {v v₁ v' : Visit σ}

/-- The response is yet to be finished. The transaction is armed if and only if the one removal hook
is there, and there is no hook but that one and those of the host. -/
structure Poised (s : Server σ) (id : String) (v : Visit σ) : Prop where
  unfinished : v.response.finished = false
  hooks : ∀ hook ∈ v.response.hooks, hook.Foreign ∨ hook.Removes s id
  loaded : ∃ t, v.request.transaction = some t ∧ s.Under id t ∧
    (removals v.response.hooks).length = if t.removalArmed then 1 else 0

namespace Poised

theorem continues (hv : Poised s id v) (h : v.Continues s id v') :
    Poised s id v' ∧ (v'.Armed ↔ v.Armed) ∧ v.response.hooks <+: v'.response.hooks := by
  obtain ⟨t, ht, hunder, hlength⟩ := hv.loaded
  obtain ⟨t', ht', hunder', harmed, -⟩ := h.transaction t ht hunder
  obtain ⟨hfinished, added, hhooks, hadded⟩ := h.response
  refine ⟨⟨hfinished.trans hv.unfinished, fun hook hmem => ?_, t', ht', hunder', ?_⟩, ?_,
    h.response.initial⟩
  · rw [hhooks] at hmem
    rcases List.mem_append.1 hmem with hmem | hmem
    · exact hv.hooks hook hmem
    · exact .inl (hadded hook hmem)
  · rw [h.response.removals_eq, hlength, harmed]
  · simp [Visit.Armed, ht, ht', harmed]

theorem armed_iff (hv : Poised s id v) :
    v.Armed ↔ ∃ hook ∈ v.response.hooks, hook.Removes s id := by
  obtain ⟨t, ht, -, hlength⟩ := hv.loaded
  have harmed : v.Armed ↔ t.removalArmed = true := by simp [Visit.Armed, ht]
  rw [harmed]
  constructor
  · intro ha
    by_contra hnone
    have hforeign : ∀ hook ∈ v.response.hooks, hook.Foreign := fun hook hmem =>
      (hv.hooks hook hmem).resolve_right fun hremoves => hnone ⟨hook, hmem, hremoves⟩
    rw [if_pos ha, Response.removals_foreign hforeign] at hlength
    cases hlength
  · rintro ⟨hook, hmem, hremoves⟩
    by_contra ha
    rw [if_neg ha, List.length_eq_zero_iff] at hlength
    exact hremoves.removals_ne_nil hmem hlength

theorem length_removals_le (hv : Poised s id v) : (removals v.response.hooks).length ≤ 1 := by
  obtain ⟨t, -, -, hlength⟩ := hv.loaded
  rw [hlength]
  split <;> simp

/-- Arming adds the removal, unless it is there. -/
theorem arm (hv : Poised s id v) :
    Poised s id (s.arm v) ∧ (s.arm v).Armed ∧ v.response.hooks <+: (s.arm v).response.hooks := by
  obtain ⟨t, ht, ⟨id', hid, hplace⟩, hlength⟩ := hv.loaded
  by_cases ha : t.removalArmed = true
  · have hsame : s.arm v = v := by simp [Server.arm, ht, hid, ha]
    rw [hsame]
    exact ⟨hv, ⟨t, ht, ha⟩, List.prefix_refl _⟩
  · rw [if_neg ha, List.length_eq_zero_iff] at hlength
    -- a hook of the host under the key of the removal would stand in its way
    have hnone : v.response.hasHook FinishHook.removalKey = false := by
      rw [Response.hasHook, List.any_eq_false]
      intro hook hmem hkey
      rcases hv.hooks hook hmem with hforeign | hremoves
      · cases hook with
        | removal => cases hforeign
        | host => exact hforeign (of_decide_eq_true hkey)
      · exact hremoves.removals_ne_nil hmem hlength
    rw [arm_unarmed ht hid (Bool.eq_false_iff.2 ha) hnone]
    refine ⟨⟨hv.unfinished, fun hook hmem => ?_, t.armRemoval, rfl, ⟨id', hid, hplace⟩, ?_⟩, ⟨_, rfl, rfl⟩,
      List.prefix_append _ _⟩
    · rcases List.mem_append.1 hmem with hmem | hmem
      · exact hv.hooks hook hmem
      · exact .inr ⟨id', List.mem_singleton.1 hmem, hplace⟩
    · show (removals (v.response.hooks ++ [_])).length = _
      rw [removals_append, hlength]
      rfl

theorem arranges {P : Prop} (hv : Poised s id v) (h : Arranges s id v P v') :
    Poised s id v' ∧ (v'.Armed ↔ v.Armed ∨ P) ∧ v.response.hooks <+: v'.response.hooks := by
  obtain ⟨t, ht, hunder, hlength⟩ := hv.loaded
  obtain ⟨b, harranging, hP⟩ := h
  have hP := hP t ht hunder
  cases harranging with
  | left hleft =>
    obtain ⟨hv', harmed, hkept⟩ := hv.continues hleft
    refine ⟨hv', ?_, hkept⟩
    rw [harmed, ← hP]
    simp
  | @armed v₁ _ hr hcarried harm =>
    obtain ⟨t₁, ht₁, hunder₁, harmed₁⟩ := hcarried t ht hunder
    have hv₁ : Poised s id v₁ :=
      ⟨by rw [hr]; exact hv.unfinished, by rw [hr]; exact hv.hooks, t₁, ht₁, hunder₁,
        by rw [hr, harmed₁]; exact hlength⟩
    obtain ⟨harmed, hisArmed, hkept⟩ := hv₁.arm
    obtain ⟨hv', hiff, hkept'⟩ := harmed.continues harm
    refine ⟨hv', ?_, hr ▸ hkept.trans hkept'⟩
    simp [hiff, hisArmed, ← hP]

end Poised

/-! ## After the finish -/

/-- The response is finished, and at most one removal came to it since. -/
structure Spent (r : Response σ) : Prop where
  finished : r.finished = true
  single : (removals r.hooks).length ≤ 1

theorem Spent.extends {r r' : Response σ} (h : Spent r) (hr : r.Extends r') : Spent r' :=
  ⟨hr.1.trans h.finished, by rw [hr.removals_eq]; exact h.single⟩

theorem Spent.arm (h : Spent v.response) : Spent (s.arm v).response := by
  rcases s.arm_response v with hr | ⟨id, hnone, hr⟩
  · rw [hr]
    exact h
  · rw [hr]
    refine ⟨h.finished, ?_⟩
    show (removals (v.response.hooks ++ [_])).length ≤ 1
    rw [removals_append, removals_of_hasHook hnone]
    exact Nat.le_refl 1

theorem Spent.arranges {P : Prop} (hv : Spent v.response) (h : Arranges s id v P v') :
    Spent v'.response := by
  obtain ⟨b, harranging, -⟩ := h
  cases harranging with
  | left hleft => exact hv.extends hleft.response
  | armed hr _ harm => exact (Spent.arm (hr ▸ hv)).extends harm.response

end Server

/-! ## Finishing -/

section Finishing

variable {s : Server σ} {id : String} {v v' : Visit σ} {hooks : List (FinishHook σ)}
  {trials : List (Trial (FinishHook σ) Unit)}

namespace Visit

theorem HooksCalled.initial (h : HooksCalled hooks v trials v') : trials.map Trial.handler <+: hooks := by
  cases h with
  | all _ hhooks => exact hhooks ▸ List.prefix_refl _
  | crashed _ hhooks =>
    rw [hhooks, List.map_append, List.prefix_append_right_inj]
    exact ⟨_, rfl⟩

/-- A hook makes its call, or it stands behind one that crashed. -/
theorem HooksCalled.mem_cases (h : HooksCalled hooks v trials v') {hook : FinishHook σ}
    (hmem : hook ∈ hooks) :
    (∃ t ∈ trials, t.handler = hook) ∨ ∃ earlier crashing later,
      hooks = earlier ++ crashing :: later ∧ hook ∈ later ∧ ⟨crashing, .error .crash⟩ ∈ trials := by
  cases h with
  | all _ hhooks =>
    rw [hhooks] at hmem
    exact .inl (List.mem_map.1 hmem)
  | @crashed earlier crashing later _ _ hhooks =>
    rw [hhooks, List.append_cons] at hmem
    rcases List.mem_append.1 hmem with hcalled | hlater
    · rw [← List.map_singleton (f := Trial.handler) (a := ⟨crashing, .error .crash⟩),
        ← List.map_append] at hcalled
      exact .inl (List.mem_map.1 hcalled)
    · exact .inr ⟨_, crashing, later, hhooks, hlater, List.mem_append_right _ (List.mem_singleton_self _)⟩

end Visit

namespace Server.Poised

theorem called (hv : Poised s id v) (h : Visit.HooksCalled v.response.hooks v.closed trials v') :
    (removals (trials.map Trial.handler)).length ≤ 1 ∧
      ∀ t ∈ trials, t.handler.Foreign ∨ t.handler.Removes s id := by
  refine ⟨?_, fun t ht => hv.hooks _ (h.initial.subset (List.mem_map.2 ⟨t, ht, rfl⟩))⟩
  exact Nat.le_trans (h.initial.filterMap _).length_le hv.length_removals_le

/-- The removal that is armed is called, unless a hook of the host crashes in front of it. -/
theorem called_armed (hv : Poised s id v) (ha : v.Armed)
    (h : Visit.HooksCalled v.response.hooks v.closed trials v') :
    (∃ t ∈ trials, t.handler.Removes s id) ∨
      ∃ key action, ⟨.host key action, .error .crash⟩ ∈ trials := by
  obtain ⟨hook, hmem, hremoves⟩ := hv.armed_iff.1 ha
  rcases h.mem_cases hmem with ⟨t, ht, rfl⟩ | ⟨earlier, crashing, later, hhooks, hlater, ht⟩
  · exact .inl ⟨t, ht, hremoves⟩
  · cases crashing with
    | host key action => exact .inr ⟨key, action, ht⟩
    | removal store options id' =>
      -- it would be the second removal
      have hlength := hv.length_removals_le
      rw [hhooks, removals_append, List.length_append] at hlength
      have hlater := List.length_pos_iff.2 (hremoves.removals_ne_nil hlater)
      have hcons : removals (.removal store options id' :: later) = id' :: removals later := rfl
      rw [hcons, List.length_cons] at hlength
      omega

end Server.Poised

end Finishing

/-! ## Calls on one pair -/

namespace Visit

variable {s : Server σ} {id : String} {v v' : Visit σ}

/-- The visit after a call. -/
def next (s : Server σ) (v : Visit σ) (c : Call σ) : Visit σ := ((c.run s).run v).2

/-- The visit after the calls. -/
def after (s : Server σ) (v : Visit σ) (calls : List (Call σ)) : Visit σ := calls.foldl (next s) v

/-- One of the calls is made on a visit where `P` holds of it. -/
def Meets (s : Server σ) (P : Visit σ → Call σ → Prop) (v : Visit σ) (calls : List (Call σ)) : Prop :=
  ∃ before c rest, calls = before ++ c :: rest ∧ P (v.after s before) c

/-- One of the calls arms the removal. -/
def ArmedBy (s : Server σ) : Visit σ → List (Call σ) → Prop := Meets s fun v c => c.Arms s v

/-- One of the calls finishes a written response. -/
def FinishedBy (s : Server σ) : Visit σ → List (Call σ) → Prop :=
  Meets s fun v c => c = .finish ∧ v.response.written = true

theorem after_append (before rest : List (Call σ)) :
    v.after s (before ++ rest) = (v.after s before).after s rest :=
  List.foldl_append

section Meets

variable {P : Visit σ → Call σ → Prop}

theorem not_meets_nil : ¬ Meets s P v [] := by
  rintro ⟨before, c, rest, hsplit, -⟩
  simp at hsplit

theorem meets_cons {c : Call σ} {rest : List (Call σ)} :
    Meets s P v (c :: rest) ↔ P v c ∨ Meets s P (v.next s c) rest := by
  constructor
  · rintro ⟨before, c', rest', hsplit, hP⟩
    rcases List.cons_eq_append_iff.1 hsplit with ⟨rfl, hcons⟩ | ⟨before', rfl, hrest⟩
    · cases hcons
      exact .inl hP
    · exact .inr ⟨before', c', rest', hrest, hP⟩
  · rintro (hP | ⟨before, c', rest', rfl, hP⟩)
    · exact ⟨[], c, rest, rfl, hP⟩
    · exact ⟨c :: before, c', rest', rfl, hP⟩

/-- The first of the calls where `P` holds. -/
theorem Meets.first {calls : List (Call σ)} (h : Meets s P v calls) :
    ∃ before c rest, calls = before ++ c :: rest ∧ P (v.after s before) c ∧ ¬ Meets s P v before := by
  induction calls generalizing v with
  | nil => exact absurd h not_meets_nil
  | cons c rest ih =>
    by_cases hnow : P v c
    · exact ⟨[], c, rest, rfl, hnow, not_meets_nil⟩
    · obtain ⟨before, c', rest', rfl, hP, hnone⟩ := ih ((meets_cons.1 h).resolve_left hnow)
      exact ⟨c :: before, c', rest', rfl, hP, fun h => (meets_cons.1 h).elim hnow hnone⟩

end Meets

theorem next_finish : v.next s .finish = (finish.run v).2 := by
  rw [next, Call.run, Step.run_map]

theorem next_finish_idle (hidle : (v.response.finished || !v.response.written) = true) :
    v.next s .finish = v := by
  rw [next_finish]
  rcases hrun : finish.run v with ⟨r, v'⟩
  cases finish_cases hrun with
  | idle => rfl
  | ran hran => rw [hidle] at hran; cases hran

/-! ## What hooks call on the way -/

/-- A finish runs the hooks. -/
def Due (v : Visit σ) : Prop := v.response.written = true ∧ v.response.finished = false

theorem due_of_written (hunfinished : v.response.finished = false) (hwritten : v.response.written = true) :
    (v.response.finished || !v.response.written) = false := by
  rw [hunfinished, hwritten]
  rfl

/-- From one visit to another by the calls, and what hooks call in them. Only a finish that is due has
them make their calls. -/
inductive Called (s : Server σ) :
    Visit σ → List (Call σ) → List (Trial (FinishHook σ) Unit) → Visit σ → Prop where
  | nil (v : Visit σ) : Called s v [] [] v
  | call {c : Call σ} {rest : List (Call σ)} {trials : List (Trial (FinishHook σ) Unit)} {v v' : Visit σ} :
    ¬ (c = .finish ∧ v.Due) → Called s (v.next s c) rest trials v' → Called s v (c :: rest) trials v'
  | finish {rest : List (Call σ)} {trials later : List (Trial (FinishHook σ) Unit)} {v v₁ v' : Visit σ} :
    v.Due → HooksCalled v.response.hooks v.closed trials v₁ → Called s v₁ rest later v' →
    Called s v (.finish :: rest) (trials ++ later) v'

theorem Called.append {before rest : List (Call σ)} {trials later : List (Trial (FinishHook σ) Unit)}
    {v₁ : Visit σ} (h : Called s v before trials v₁) (h' : Called s v₁ rest later v') :
    Called s v (before ++ rest) (trials ++ later) v' := by
  induction h with
  | nil => exact h'
  | call hidle _ ih => exact .call hidle (ih h')
  | finish hdue hcalled _ ih =>
    rw [List.append_assoc]
    exact .finish hdue hcalled (ih h')

/-- Hooks call nothing until a written response is finished. -/
theorem called_nil {calls : List (Call σ)} (h : ¬ v.FinishedBy s calls) :
    Called s v calls [] (v.after s calls) := by
  induction calls generalizing v with
  | nil => exact .nil v
  | cons c rest ih =>
    rw [FinishedBy, meets_cons, not_or] at h
    obtain ⟨hnow, hrest⟩ := h
    exact .call (fun hdue => hnow ⟨hdue.1, hdue.2.1⟩) (ih hrest)

/-- What hooks call in a finish that is due. -/
theorem called_finish (hdue : v.Due) :
    ∃ trials, HooksCalled v.response.hooks v.closed trials (v.next s .finish) := by
  rw [next_finish, finish_of_due (due_of_written hdue.2 hdue.1)]
  exact (runHooks_hooksRun v.response.hooks v.closed).called

end Visit

namespace Server

variable {s : Server σ} {id : String} {v : Visit σ}

/-- What becomes of the removal while calls are made on the visit `v`. The hooks call `trials`. -/
structure RemovedOnce (s : Server σ) (id : String) (v : Visit σ) (calls : List (Call σ))
    (trials : List (Trial (FinishHook σ) Unit)) : Prop where
  /-- Until a written response is finished, flag and hook are set together, by the calls that arm. -/
  armed : ∀ before, before <+: calls → ¬ v.FinishedBy s before →
    ((v.after s before).Armed ↔ ∃ hook ∈ (v.after s before).response.hooks, hook.Removes s id) ∧
    ((v.after s before).Armed ↔ v.ArmedBy s before)
  /-- Until then the hooks that were there stay, and all others are of the host but for the removal. -/
  kept : ∀ before, before <+: calls → ¬ v.FinishedBy s before →
    v.response.hooks <+: (v.after s before).response.hooks ∧
    ∀ hook ∈ (v.after s before).response.hooks, hook.Foreign ∨ hook.Removes s id
  single : ∀ before, before <+: calls → (removals (v.after s before).response.hooks).length ≤ 1
  called : v.Called s calls trials (v.after s calls)
  /-- Until then hooks call nothing, the store's removal included. -/
  quiet : ∀ before, before <+: calls → ¬ v.FinishedBy s before →
    v.Called s before [] (v.after s before)
  once : (removals (trials.map Trial.handler)).length ≤ 1
  own : ∀ t ∈ trials, t.handler.Foreign ∨ t.handler.Removes s id
  /-- All calls are made in the first finish of the written response. If the removal is armed by then
  it is among them; only a hook of the host that crashes keeps it from that. -/
  ran : v.FinishedBy s calls → ∃ before rest, calls = before ++ .finish :: rest ∧
    ¬ v.FinishedBy s before ∧ (v.after s before).response.written = true ∧
    Visit.HooksCalled (v.after s before).response.hooks (v.after s before).closed trials
      ((v.after s before).next s .finish) ∧
    ((v.after s before).Armed → (∃ t ∈ trials, t.handler.Removes s id) ∨
      ∃ key action, ⟨.host key action, .error .crash⟩ ∈ trials)

/-- The response that a finish leaves is finished and bare, if it was written. -/
theorem finish_spent (hunfinished : v.response.finished = false)
    (hwritten : v.response.written = true) : Spent (v.next s .finish).response := by
  rw [Visit.next_finish]
  rcases hrun : (Visit.finish : Step (Visit σ) Unit).run v with ⟨r, v'⟩
  cases Visit.finish_cases hrun with
  | idle hidle => rw [hunfinished, hwritten] at hidle; cases hidle
  | ran _ hhooks _ =>
    have hkept : v'.response = v.closed.response :=
      (Visit.runHooks_response v.response.hooks v.closed.response).of_run hhooks rfl
    rw [hkept]
    exact ⟨rfl, Nat.zero_le 1⟩

section Calls

variable (hd : ∀ r₀ : Response σ, s.dispatcher.Keeps r₀.Extends) (hstore : s.SparesTransaction)
include hd hstore

theorem Poised.after {calls : List (Call σ)} (hcalls : ∀ c ∈ calls, c.Answering)
    (hmodes : ∀ c ∈ calls, ∀ r₀ : Response σ, c.Keeps r₀.Extends) (hv : Poised s id v)
    (hfinish : ¬ v.FinishedBy s calls) :
    Poised s id (v.after s calls) ∧ ((v.after s calls).Armed ↔ v.Armed ∨ v.ArmedBy s calls) ∧
      v.response.hooks <+: (v.after s calls).response.hooks := by
  induction calls generalizing v with
  | nil => exact ⟨hv, by simp [Visit.after, Visit.ArmedBy, Visit.not_meets_nil], List.prefix_refl _⟩
  | cons c rest ih =>
    obtain ⟨hc, hrest⟩ := List.forall_mem_cons.1 hcalls
    obtain ⟨hmode, hmodes'⟩ := List.forall_mem_cons.1 hmodes
    have hstep : Poised s id (v.next s c) ∧ ((v.next s c).Armed ↔ v.Armed ∨ c.Arms s v) ∧
        v.response.hooks <+: (v.next s c).response.hooks := by
      by_cases hcf : c = .finish
      · subst hcf
        have hidle : (v.response.finished || !v.response.written) = true := by
          rw [hv.unfinished, Bool.false_or, Bool.not_eq_true']
          exact Bool.eq_false_iff.2 fun hwritten => hfinish (Visit.meets_cons.2 (.inl ⟨rfl, hwritten⟩))
        rw [Visit.next_finish_idle hidle]
        exact ⟨hv, by simp [Call.Arms], List.prefix_refl _⟩
      · exact hv.arranges (call_arranges hd hstore hc hcf hmode)
    obtain ⟨hv', harmed, hkept⟩ := hstep
    obtain ⟨hafter, harmed', hkept'⟩ := ih hrest hmodes' hv' fun h => hfinish (Visit.meets_cons.2 (.inr h))
    refine ⟨hafter, ?_, hkept.trans hkept'⟩
    rw [Visit.ArmedBy, Visit.meets_cons, ← or_assoc, ← harmed]
    exact harmed'

/-- Nothing is called after the finish. -/
theorem Spent.after {calls : List (Call σ)} (hcalls : ∀ c ∈ calls, c.Answering)
    (hmodes : ∀ c ∈ calls, ∀ r₀ : Response σ, c.Keeps r₀.Extends) (hv : Spent v.response) :
    Spent (v.after s calls).response ∧ v.Called s calls [] (v.after s calls) := by
  induction calls generalizing v with
  | nil => exact ⟨hv, .nil v⟩
  | cons c rest ih =>
    obtain ⟨hc, hrest⟩ := List.forall_mem_cons.1 hcalls
    obtain ⟨hmode, hmodes'⟩ := List.forall_mem_cons.1 hmodes
    have hstep : Spent (v.next s c).response := by
      by_cases hcf : c = .finish
      · subst hcf
        rw [Visit.next_finish_idle (by rw [hv.finished]; rfl)]
        exact hv
      · -- under which id the transaction is stored no longer matters
        have harranges : Arranges s "" v (c.Arms s v) (v.next s c) :=
          call_arranges hd hstore hc hcf hmode
        exact hv.arranges harranges
    obtain ⟨hafter, hcalled⟩ := ih hrest hmodes' hstep
    have hidle : ¬ v.Due := fun hdue => Bool.noConfusion (hv.finished.symm.trans hdue.2)
    exact ⟨hafter, .call (fun hfinish => hidle hfinish.2) hcalled⟩

/-- Up to the first finish of the written response the visit is poised. What hooks call they call in
that finish. -/
theorem Poised.after_finish {calls : List (Call σ)} (hcalls : ∀ c ∈ calls, c.Answering)
    (hmodes : ∀ c ∈ calls, ∀ r₀ : Response σ, c.Keeps r₀.Extends) (hv : Poised s id v)
    {before rest : List (Call σ)} (hsplit : calls = before ++ .finish :: rest)
    (hwritten : (v.after s before).response.written = true) (hfirst : ¬ v.FinishedBy s before) :
    Spent (v.after s calls).response ∧ ∃ trials,
      Visit.HooksCalled (v.after s before).response.hooks (v.after s before).closed trials
        ((v.after s before).next s .finish) ∧
      v.Called s calls trials (v.after s calls) := by
  subst hsplit
  obtain ⟨hcalls₁, hcalls₂⟩ := List.forall_mem_append.1 hcalls
  obtain ⟨hmodes₁, hmodes₂⟩ := List.forall_mem_append.1 hmodes
  obtain ⟨hpoised, -, -⟩ := hv.after hd hstore hcalls₁ hmodes₁ hfirst
  obtain ⟨hspent, hnone⟩ := Spent.after hd hstore (List.forall_mem_cons.1 hcalls₂).2
    (List.forall_mem_cons.1 hmodes₂).2 (finish_spent (s := s) hpoised.unfinished hwritten)
  have hdue : (v.after s before).Due := ⟨hwritten, hpoised.unfinished⟩
  obtain ⟨trials, htrials⟩ := Visit.called_finish (s := s) hdue
  have hcalled := (Visit.called_nil hfirst).append (.finish hdue htrials hnone)
  rw [List.nil_append, List.append_nil] at hcalled
  rw [Visit.after_append]
  exact ⟨hspent, trials, htrials, hcalled⟩

/-- Removal is armed once and runs once. -/
theorem removal_once {t : Transaction} {calls : List (Call σ)}
    (ht : v.request.transaction = some t) (hid : t.id = some id) (hclear : t.removalArmed = false)
    (hunfinished : v.response.finished = false) (hhooks : ∀ hook ∈ v.response.hooks, hook.Foreign)
    (hcalls : ∀ c ∈ calls, c.Answering)
    (hmodes : ∀ c ∈ calls, ∀ r₀ : Response σ, c.Keeps r₀.Extends) :
    ∃ trials, RemovedOnce s id v calls trials := by
  have hv : Poised s id v :=
    ⟨hunfinished, fun hook hmem => .inl (hhooks hook hmem), t, ht, ⟨id, hid, fun _ => rfl⟩,
      by rw [Response.removals_foreign hhooks, hclear]; rfl⟩
  have hunarmed : ¬ v.Armed := by simp [Visit.Armed, ht, hclear]
  have hwaiting : ∀ before, before <+: calls → ¬ v.FinishedBy s before →
      Poised s id (v.after s before) ∧ ((v.after s before).Armed ↔ v.Armed ∨ v.ArmedBy s before) ∧
        v.response.hooks <+: (v.after s before).response.hooks := fun before hbefore =>
    hv.after hd hstore (fun c hc => hcalls c (hbefore.subset hc))
      (fun c hc => hmodes c (hbefore.subset hc))
  have harmed : ∀ before, before <+: calls → ¬ v.FinishedBy s before →
      ((v.after s before).Armed ↔ ∃ hook ∈ (v.after s before).response.hooks, hook.Removes s id) ∧
      ((v.after s before).Armed ↔ v.ArmedBy s before) := by
    intro before hbefore hfinish
    obtain ⟨hpoised, harmed, -⟩ := hwaiting before hbefore hfinish
    exact ⟨hpoised.armed_iff, by rw [harmed, or_iff_right hunarmed]⟩
  have hkept : ∀ before, before <+: calls → ¬ v.FinishedBy s before →
      v.response.hooks <+: (v.after s before).response.hooks ∧
      ∀ hook ∈ (v.after s before).response.hooks, hook.Foreign ∨ hook.Removes s id := by
    intro before hbefore hfinish
    obtain ⟨hpoised, -, hkept⟩ := hwaiting before hbefore hfinish
    exact ⟨hkept, hpoised.hooks⟩
  have hsingle : ∀ before, before <+: calls →
      (removals (v.after s before).response.hooks).length ≤ 1 := by
    intro before hbefore
    by_cases hfinish : v.FinishedBy s before
    · obtain ⟨first, _, rest, hsplit, ⟨rfl, hwritten⟩, hfirst⟩ := hfinish.first
      exact (hv.after_finish hd hstore (fun c hc => hcalls c (hbefore.subset hc))
        (fun c hc => hmodes c (hbefore.subset hc)) hsplit hwritten hfirst).1.single
    · exact (hwaiting before hbefore hfinish).1.length_removals_le
  have hquiet : ∀ before, before <+: calls → ¬ v.FinishedBy s before →
      v.Called s before [] (v.after s before) := fun _ _ hfinish => Visit.called_nil hfinish
  by_cases hfinish : v.FinishedBy s calls
  · obtain ⟨first, _, rest, hsplit, ⟨rfl, hwritten⟩, hfirst⟩ := hfinish.first
    obtain ⟨-, trials, htrials, hcalled⟩ := hv.after_finish hd hstore hcalls hmodes hsplit hwritten hfirst
    have hpoised := (hwaiting first (hsplit ▸ List.prefix_append _ _) hfirst).1
    obtain ⟨honce, hown⟩ := hpoised.called htrials
    exact ⟨trials, harmed, hkept, hsingle, hcalled, hquiet, honce, hown, fun _ =>
      ⟨first, rest, hsplit, hfirst, hwritten, htrials, fun ha => hpoised.called_armed ha htrials⟩⟩
  · exact ⟨[], harmed, hkept, hsingle, Visit.called_nil hfinish, hquiet, Nat.zero_le 1, nofun,
      fun h => absurd h hfinish⟩

end Calls

/-! ## One request -/

/-- A transaction waits under `zeroId`, and the request is loaded with it. The host has a hook of its
own on the response. -/
def atHand : Visit Unit :=
  ((coding (.memory 0 none)).loadTransaction.run
    ⟨naming, Response.empty.addHook (.host none (pure ())),
      (((coding (.memory 0 none)).authorize trusting).run { asking with request := codeRequest }).2.world⟩).2

/-- The decision and an error arm the same removal. -/
def armedTwice : List (Call Unit) :=
  [.decide .standard ⟨none, .none⟩, .redirectError ResponseMode.noRedirect, .finish, .finish]

theorem armedTwice_removal_once :
    (∃ trials, RemovedOnce (coding (.memory 0 none)) zeroId atHand armedTwice trials) ∧
      ((atHand.world.memories 0).value? zeroId).isSome ∧
      (atHand.after (coding (.memory 0 none)) armedTwice).world.memories 0 = [] := by
  have hd : ∀ r₀ : Response Unit, (coding (.memory 0 none)).dispatcher.Keeps r₀.Extends :=
    fun r₀ => (coding_bundled _).keeps nofun r₀.extends_settled
  have hloaded : ∃ t, atHand.request.transaction = some t ∧ t.id = some zeroId ∧
      t.removalArmed = false := ⟨_, rfl, rfl, rfl⟩
  obtain ⟨t, ht, hid, hclear⟩ := hloaded
  have hforeign : ∀ hook ∈ atHand.response.hooks, hook.Foreign := List.forall_mem_singleton.2 nofun
  have honce : ∃ trials, RemovedOnce (coding (.memory 0 none)) zeroId atHand armedTwice trials := by
    refine removal_once hd (updates_memory rfl).1 ht hid hclear rfl hforeign ?_ ?_
    · simp only [armedTwice, List.forall_mem_cons]
      exact ⟨trivial, trivial, trivial, trivial, nofun⟩
    · simp only [armedTwice, List.forall_mem_cons]
      exact ⟨fun _ => trivial, fun _ => trivial, fun _ => trivial, fun _ => trivial, nofun⟩
  exact ⟨honce, rfl, rfl⟩

end Server

end AuthServer

import AuthServer.Proofs.Bundled
import AuthServer.Proofs.Calls
import AuthServer.Proofs.Consent
import AuthServer.Proofs.Endpoint.Token
import AuthServer.Proofs.Redirects

/-!
# After a removal

A request keeps its copy of a transaction when the memory loses it. To suspend
that copy again puts it back under its id; no other call does that, and without
a copy the transaction is gone for good.
-/

namespace AuthServer

open Json Store

variable {σ : Type}

/-- The request carries a copy of the transaction that is stored under `id`. -/
def Request.Carries (r : Request) (id : String) : Prop := ∃ t, r.transaction = some t ∧ t.id = some id

/-- Finishing the response removes transactions of the server's store at most. -/
def Response.Harmless (s : Server σ) (r : Response σ) : Prop := ∀ hook ∈ r.hooks, hook.Harmless s

theorem Response.settled_harmless (s : Server σ) : Settled (Harmless s) := by
  intro r r' hhooks _ hr
  rw [Harmless, hhooks]
  exact hr

namespace Server

variable {s : Server σ} {number : Nat} {lifetime : Lifetime σ} {id : String} {C : Prop}
  {v v' : Visit σ} {t : Transaction}

/-! ## A visit without the transaction -/

/-- The memory has nothing under `id`, and the request has a copy only if `C`. -/
structure Cleared (s : Server σ) (number : Nat) (id : String) (C : Prop) (v : Visit σ) : Prop where
  absent : (v.world.memories number).value? id = none
  harmless : v.response.Harmless s
  copied : v.request.Carries id → C

namespace Cleared

theorem congr (h : Cleared s number id C v) (hmemories : v'.world.memories = v.world.memories)
    (hhooks : v'.response.hooks = v.response.hooks)
    (htransaction : v'.request.transaction = v.request.transaction) : Cleared s number id C v' := by
  refine ⟨?_, ?_, fun hcarries => h.copied ?_⟩
  · rw [hmemories]
    exact h.absent
  · rw [Response.Harmless, hhooks]
    exact h.harmless
  · rw [Request.Carries, ← htransaction]
    exact hcarries

/-- Another world without the transaction. -/
theorem elsewhere (h : Cleared s number id C v) {w : World σ}
    (habsent : (w.memories number).value? id = none) :
    Cleared s number id C { v with world := w } :=
  ⟨habsent, h.harmless, h.copied⟩

theorem withHost (h : Cleared s number id C v) (host : σ) : Cleared s number id C (v.withHost host) :=
  h.congr rfl rfl rfl

theorem withMetrics (h : Cleared s number id C v) (m : Metrics) :
    Cleared s number id C (v.withMetrics m) :=
  h.congr rfl rfl rfl

theorem tally (h : Cleared s number id C v) (f : Metrics → Metrics) :
    Cleared s number id C (s.tally f v) :=
  h.congr (tally_memories s f v) (by rw [tally_response]) (by rw [tally_request])

theorem holding (h : Cleared s number id C v) (ht : t.id = some id → C) :
    Cleared s number id C (v.holding t) := by
  refine ⟨h.absent, h.harmless, ?_⟩
  rintro ⟨t', ht', hid⟩
  cases ht'
  exact ht hid

theorem arm (h : Cleared s number id C v) : Cleared s number id C (s.arm v) := by
  refine ⟨?_, ?_, ?_⟩
  · rw [arm_world]
    exact h.absent
  · rcases arm_response s v with hr | ⟨id', -, hr⟩ <;> rw [hr]
    · exact h.harmless
    · intro hook hmem
      rcases List.mem_append.1 hmem with hmem | hmem
      · exact h.harmless hook hmem
      · obtain rfl := List.mem_singleton.1 hmem
        exact ⟨rfl, rfl⟩
  · rintro ⟨t', ht', hid⟩
    rw [arm_transaction] at ht'
    obtain ⟨t₁, ht₁, rfl⟩ := Option.map_eq_some_iff.1 ht'
    exact h.copied ⟨t₁, ht₁, hid⟩

theorem withReply {α : Type} {x : Step (Reply σ) α} {r : Except Fault α} {reply : Reply σ}
    (h : Cleared s number id C v) (hx : x.Keeps fun reply => reply.response.Harmless s)
    (hrun : x.run v.reply = (r, reply)) : Cleared s number id C (v.withReply reply) := by
  have hreply := hx v.reply h.harmless
  rw [hrun] at hreply
  exact ⟨h.absent, hreply, h.copied⟩

end Cleared

/-! ## The memory -/

theorem kept_absent {host : σ} {m : Memory} (h : m.value? id = none) :
    (kept lifetime host m).value? id = none := by
  rcases hvalue : (kept lifetime host m).value? id with _ | t
  · rfl
  · rw [← value?_of_kept hvalue, h]

/-- Writing under another id leaves `id` without a transaction. -/
theorem Cleared.written (h : Cleared s number id C v) {id' : String} (hne : id' ≠ id) (n : Nat)
    (host : σ) :
    Cleared s number id C
      ((v.drawn n).withMemory number ((kept lifetime host (v.world.memories number)).put id' t)) := by
  refine ⟨?_, h.harmless, h.copied⟩
  simp only [Visit.withMemory, World.memories_setMemory]
  rw [Entries.value?_put_ne _ _ hne, kept_absent h.absent]

section Store

variable (hs : s.store = .memory number lifetime)
include hs

theorem Cleared.remove (h : Cleared s number id C v) {id' : String} {r : Except Fault Unit}
    (hrun : (s.remove id').run v = (r, v')) : Cleared s number id C v' := by
  rw [remove_memory hs] at hrun
  cases hrun
  refine ⟨?_, h.harmless, h.copied⟩
  simp only [Visit.withMemory, World.memories_setMemory]
  rw [Entries.value?_remove, h.absent, ite_self]

/-- What is loaded is another transaction. -/
theorem Cleared.load (h : Cleared s number id C v) {r : Except Fault Transaction}
    (hrun : s.load.run v = (r, v')) : Cleared s number id C v' ∧ ∀ t, r = .ok t → t.id ≠ some id := by
  rcases hid : idParam s.options v.request with e | id'
  · rw [load_memory_unnamed hs hid] at hrun
    cases hrun
    exact ⟨h, fun _ => nofun⟩
  · rw [load_memory hs hid] at hrun
    cases hrun
    refine ⟨h, fun t ht => ?_⟩
    rcases hvalue : (kept lifetime v.world.host (v.world.memories number)).value? id' with _ | t'
    · rw [hvalue] at ht
      cases ht
    · rw [hvalue] at ht
      cases ht
      rintro ⟨⟩
      have hheld := value?_of_kept hvalue
      rw [h.absent] at hheld
      cases hheld

theorem Cleared.storeNew (h : Cleared s number id C v)
    (hfresh : v.world.ids.peek Supply.tokenLength ≠ id) {r : Except Fault String}
    (hrun : (s.storeNew t).run v = (r, v')) :
    Cleared s number id C v' ∧ ∀ id', r = .ok id' → id' ≠ id := by
  rw [storeNew_memory hs] at hrun
  cases hrun
  refine ⟨h.written hfresh _ _, ?_⟩
  rintro id' ⟨⟩
  exact hfresh

/-- A copy that goes back under its own id is the only one that clears nothing. -/
theorem Cleared.putBack (h : Cleared s number id C v)
    (hfresh : v.world.ids.peek Supply.tokenLength ≠ id) {r : Except Fault String}
    (hrun : (s.putBack t).run v = (r, v')) :
    (Cleared s number id C v' ∧ ∀ id', r = .ok id' → id' ≠ id) ∨ r = .ok id ∧ t.id = some id := by
  unfold Server.putBack at hrun
  rcases hid : t.id with _ | id' <;> rw [hid] at hrun
  · exact .inl (h.storeNew hs hfresh hrun)
  · rw [storeAgain_memory hs] at hrun
    cases hrun
    by_cases hne : id' = id
    · subst hne
      exact .inr ⟨rfl, rfl⟩
    · refine .inl ⟨h.written hne 0 _, ?_⟩
      rintro _ ⟨⟩
      exact hne

theorem Suspending.cleared {r : Except Fault Outcome} (h : Suspending s t v r v')
    (hv : Cleared s number id C v) (hfresh : v.world.ids.peek Supply.tokenLength ≠ id)
    (ht : t.id = some id → C) : Cleared s number id C v' := by
  cases h with
  | stored hstore =>
    obtain ⟨hcleared, hne⟩ := hv.storeNew hs hfresh hstore
    refine (hcleared.holding fun hid => ?_).tally _
    exact absurd (Option.some.inj hid) (hne _ rfl)
  | failed hstore => exact (hv.storeNew hs hfresh hstore).1.holding ht
  | crashed hstore => exact (hv.storeNew hs hfresh hstore).1

theorem SuspendingAgain.cleared {r : Except Fault Outcome} (h : SuspendingAgain s t v r v')
    (hv : Cleared s number id C v) (hfresh : v.world.ids.peek Supply.tokenLength ≠ id)
    (ht : t.id = some id → C) : Cleared s number id C v' ∨ r = .ok (.pending id) ∧ C := by
  have hheld := hv.holding ht
  cases h with
  | stored hput =>
    rcases hheld.putBack hs hfresh hput with ⟨hcleared, hne⟩ | ⟨hr, hid⟩
    · refine .inl (hcleared.holding fun hid => ?_)
      exact absurd (Option.some.inj hid) (hne _ rfl)
    · cases hr
      exact .inr ⟨rfl, ht hid⟩
  | failed hput =>
    rcases hheld.putBack hs hfresh hput with ⟨hcleared, -⟩ | ⟨hr, -⟩
    · exact .inl hcleared
    · cases hr

end Store

/-! ## Answers -/

section Responders

variable (hd : ∀ l ∈ s.dispatcher.responders, ∀ t complete,
  (l.handler t complete).Keeps fun reply => reply.response.Harmless s)
include hd

theorem Responding.cleared {complete : Completion σ} {r : Except Fault Unit}
    (h : Responding s complete t v r v') (hv : Cleared s number id C v) (ht : t.id = some id → C) :
    Cleared s number id C v' := by
  have hkeeps := Dispatcher.respond_keeps fun l hl => hd l hl t complete
  cases h with
  | answered hrun => exact (hv.withReply hkeeps hrun).holding (t := t.responded) ht
  | unsupported hrun => exact hv.withReply hkeeps hrun
  | failed hrun => exact hv.withReply hkeeps hrun

theorem Granting.cleared {fields : Params} {completion : Completion σ} {r : Except Fault Outcome}
    (h : Granting s t fields completion v r v') (hv : Cleared s number id C v)
    (ht : t.id = some id → C) : Cleared s number id C v' := by
  have hdecided : ∀ {t' d}, t.decide d = .ok t' → t'.id = some id → C := by
    intro t' d hdecide
    rw [Transaction.decide_eq hdecide]
    exact ht
  cases h with
  | decided => exact hv.holding ht
  | responded hdecide hr =>
    exact hr.cleared hd ((hv.holding (hdecided hdecide)).tally _) (hdecided hdecide)
  | failed hdecide hr =>
    exact hr.cleared hd ((hv.holding (hdecided hdecide)).tally _) (hdecided hdecide)

theorem GrantingStored.cleared {fields : Params} {completion : Completion σ}
    {r : Except Fault Outcome} (h : GrantingStored s t fields completion v r v')
    (hv : Cleared s number id C v) (ht : t.id = some id → C) : Cleared s number id C v' := by
  cases h with
  | decided => exact hv
  | @answered t' _ _ hdecide hr =>
    have hdecided : t'.id = some id → C := by
      rw [Transaction.decide_eq hdecide]
      exact ht
    exact hr.cleared hd ((hv.holding hdecided).tally _).arm hdecided

theorem decide_cleared {o : DecisionOptions} {c : DecisionCallbacks σ} {r : Except Fault Unit}
    (hv : Cleared s number id C v) (h : (s.decide o c).run v = (r, v')) :
    Cleared s number id C v' := by
  obtain ⟨v₂, m, hx, rfl⟩ := counted_cases h
  refine Cleared.withMetrics ?_ m
  have hrecorded : ∀ {r v₁}, Recording s v r v₁ → Cleared s number id C v₁ := by
    intro r v₁ hrec
    cases hrec with
    | refused host => exact hv.withHost host
    | @decidedBefore t _ _ _ ht =>
      have hcopied : t.id = some id → C := fun hid => hv.copied ⟨t, ht, hid⟩
      exact (hv.withHost _).holding hcopied
    | @recorded t _ _ _ _ t' ht _ hdecide =>
      have hcopied : t'.id = some id → C := by
        rw [Transaction.decide_eq hdecide]
        exact fun hid => hv.copied ⟨t, ht, hid⟩
      exact ((hv.withHost _).holding hcopied).tally _
  cases runDecision_cases hx with
  | unrecorded hrec => exact hrecorded hrec
  | @answered t _ _ _ hrec ht hr =>
    have hcleared := hrecorded hrec
    exact hr.cleared hd hcleared.arm fun hid => hcleared.copied ⟨t, ht, hid⟩

end Responders

/-! ## The endpoints -/

theorem id_of_begun {v₁ : Visit σ} (hn : s.newTransaction.run v = (.ok t, v₁)) : t.id = none := by
  have hbegun := newTransaction_cases hn
  generalize hr : (Except.ok t : Except Fault Transaction) = r at hbegun
  cases hbegun with
  | refused => cases hr
  | begun =>
    cases hr
    rfl

/-- A validated transaction has no id yet, and the supply of ids is untouched. -/
theorem Validating.cleared {c : AuthorizationCallbacks σ} {r : Except Fault Transaction}
    (h : Validating c t v r v') (hv : Cleared s number id C v) (ht : t.id = none) :
    Cleared s number id C v' ∧
      ∀ t', r = .ok t' → t'.id = none ∧ v'.world.ids = v.world.ids := by
  have hunnamed : t.id = some id → C := by
    rw [ht]
    exact nofun
  cases h with
  | failed => exact ⟨(hv.withHost _).holding hunnamed, fun _ => nofun⟩
  | @unauthorized a =>
    exact ⟨(hv.withHost _).holding (t := t.validated none a.redirectUri a.webOrigin) hunnamed,
      fun _ => nofun⟩
  | passed =>
    refine ⟨hv.withHost _, ?_⟩
    rintro t' ⟨⟩
    exact ⟨ht, rfl⟩

section Endpoints

variable (hs : s.store = .memory number lifetime)
include hs

theorem authorize_cleared (hd : s.dispatcher.Keeps (Response.Harmless s))
    {c : AuthorizationCallbacks σ} {r : Except Fault Outcome} (hv : Cleared s number id C v)
    (hfresh : v.world.ids.peek Supply.tokenLength ≠ id) (h : (s.authorize c).run v = (r, v')) :
    Cleared s number id C v' := by
  obtain ⟨v₂, m, hx, rfl⟩ := counted_cases h
  refine Cleared.withMetrics ?_ m
  have hbegun : ∀ {r v₁}, s.newTransaction.run v = (r, v₁) →
      Cleared s number id C v₁ ∧ v₁.world.ids = v.world.ids := by
    intro r v₁ hn
    obtain ⟨host, rfl⟩ := (newTransaction_cases hn).withHost
    exact ⟨hv.withHost host, rfl⟩
  cases runAuthorization_cases hx with
  | refused hn => exact (hbegun hn).1
  | invalid hn hval => exact (hval.cleared (hbegun hn).1 (id_of_begun hn)).1
  | asked hn hval _ hsuspend =>
    obtain ⟨hcleared, hok⟩ := hval.cleared (hbegun hn).1 (id_of_begun hn)
    obtain ⟨hunnamed, hids⟩ := hok _ rfl
    rw [← (hbegun hn).2, ← hids] at hfresh
    exact hsuspend.cleared hs hcleared hfresh (by rw [hunnamed]; exact nofun)
  | tried hn hval _ htry =>
    obtain ⟨hcleared, hok⟩ := hval.cleared (hbegun hn).1 (id_of_begun hn)
    obtain ⟨hunnamed, hids⟩ := hok _ rfl
    rw [← (hbegun hn).2, ← hids] at hfresh
    have hcopied : ∀ {p : Prop}, _ = some id → p := fun h => nomatch hunnamed.symm.trans h
    cases htry with
    | failed => exact (hcleared.withHost _).holding hcopied
    | granted _ _ hgrant => exact hgrant.cleared hd.responders (hcleared.withHost _) hcopied
    | deferred _ _ hsuspend => exact hsuspend.cleared hs (hcleared.withHost _) hfresh hcopied

theorem load_cleared {r : Except Fault Unit} (hv : Cleared s number id C v)
    (h : s.loadTransaction.run v = (r, v')) : Cleared s number id C v' := by
  cases loadTransaction_cases h with
  | present => exact hv
  | failed m _ hload => exact (hv.load hs hload).1.withMetrics m
  | loaded m _ hload =>
    obtain ⟨hcleared, hother⟩ := hv.load hs hload
    exact (hcleared.holding fun hid => absurd hid (hother _ rfl)).withMetrics m
  | unstored m _ hload => exact (hv.load hs hload).1.withMetrics m
  | removed m _ hload _ _ hremove =>
    exact ((hv.load hs hload).1.remove hs hremove).withMetrics m
  | crashed m _ hload _ _ hremove =>
    exact ((hv.load hs hload).1.remove hs hremove).withMetrics m

/-- A new request is told that there is no such transaction. -/
theorem load_refused (habsent : (v.world.memories number).value? id = none)
    (hnew : v.request.transaction = none) (hid : idParam s.options v.request = .ok id) :
    (s.loadTransaction.run v).1 = .error (.error (unknownId id)) := by
  have hload : s.load.run v = (.error (.error (unknownId id)), v) := by
    rw [load_memory hs hid, kept_absent habsent]
  rcases hrun : s.loadTransaction.run v with ⟨r, v'⟩
  cases loadTransaction_cases hrun with
  | present ht => rw [hnew] at ht; cases ht
  | failed _ _ hl => rw [hload] at hl; cases hl; rfl
  | loaded _ _ hl => rw [hload] at hl; cases hl
  | unstored _ _ hl => rw [hload] at hl; cases hl
  | removed _ _ hl => rw [hload] at hl; cases hl
  | crashed _ _ hl => rw [hload] at hl; cases hl

theorem resume_cleared (hd : s.dispatcher.Keeps (Response.Harmless s)) {immediate : Immediate σ}
    {completion : Completion σ} {r : Except Fault Outcome} (hv : Cleared s number id C v)
    (hfresh : v.world.ids.peek Supply.tokenLength ≠ id)
    (h : (s.resume immediate completion).run v = (r, v')) :
    Cleared s number id C v' ∨ r = .ok (.pending id) ∧ C := by
  obtain ⟨v₂, m, hx, rfl⟩ := counted_cases h
  suffices hv₂ : Cleared s number id C v₂ ∨ r = .ok (.pending id) ∧ C from
    hv₂.imp_left fun hcleared => hcleared.withMetrics m
  have hreconsidered : ∀ {t}, v.request.transaction = some t →
      Cleared s number id C (s.reconsidered t v) ∧ (t.id = some id → C) := fun {t} ht =>
    have hcopied : t.id = some id → C := fun hid => hv.copied ⟨t, ht, hid⟩
    ⟨(hv.holding (t := s.renewed t v) hcopied).tally _, hcopied⟩
  cases runResume_cases hx with
  | unloaded => exact .inl hv
  | failed ht => exact .inl ((hreconsidered ht).1.withHost _)
  | @granted t verdict host _ _ ht _ _ hgrant =>
    obtain ⟨hcleared, hcopied⟩ := hreconsidered ht
    exact .inl (hgrant.cleared hd.responders ((hcleared.withHost host).holding hcopied) hcopied)
  | @deferred t verdict host _ _ ht _ _ hsuspend =>
    obtain ⟨hcleared, hcopied⟩ := hreconsidered ht
    refine hsuspend.cleared hs ((hcleared.withHost host).holding hcopied) ?_ hcopied
    show (s.tally (·.countResumed) (v.holding (s.renewed t v))).world.ids.peek _ ≠ id
    rw [tally_ids]
    exact hfresh

end Endpoints

section Handlers

variable (hd : s.dispatcher.Keeps (Response.Harmless s))
include hd

theorem redirectError_cleared {e : OAuthError} {r : Except Fault Unit}
    (hv : Cleared s number id C v) (h : (s.redirectError e).run v = (r, v')) :
    Cleared s number id C v' := by
  cases redirectError_cases h with
  | absent => exact hv
  | handed _ hrun =>
    exact hv.arm.withReply
      (Dispatcher.respondError_keeps (fun l hl e => hd.errorResponders l hl e _) e) hrun

theorem token_cleared {r : Except Fault Unit} (hv : Cleared s number id C v)
    (h : s.token.run v = (r, v')) : Cleared s number id C v' := by
  obtain ⟨_, _, m, hrun, rfl⟩ := token_cases h
  have hkeeps := Dispatcher.exchange_keeps (fun l hl => hd.exchanges l hl v.request)
    (v.request.bodyText? "grant_type")
  exact (hv.withReply hkeeps hrun).withMetrics m

end Handlers

theorem render_cleared {renderer : ErrorRenderer σ} {e : OAuthError}
    (hc : (Call.renderError renderer e).Keeps (Response.Harmless s)) {r : Except Fault Unit}
    (hv : Cleared s number id C v) (h : (renderer.render e).run v = (r, v')) :
    Cleared s number id C v' := by
  cases ErrorRenderer.render_cases h with
  | direct =>
    refine ⟨hv.absent, ?_, hv.copied⟩
    show ∀ hook ∈ (ErrorRenderer.writeDirect e v.response).hooks, _
    rw [ErrorRenderer.hooks_writeDirect]
    exact hv.harmless
  | absent => exact hv
  | @indirect t _ _ _ _ hrun =>
    have hredirects := (Response.settled_harmless s).redirectable t.redirectUri
    exact hv.withReply (ErrorRenderer.renderIndirect_keeps (fun m hm p => hc m hm t p)
      (ResponseMode.query_keeps hredirects) (ResponseMode.fragment_keeps hredirects) e) hrun

theorem finish_cleared (hs : s.store = .memory number lifetime) {r : Except Fault Unit}
    (hv : Cleared s number id C v) (h : Visit.finish.run v = (r, v')) :
    Cleared s number id C v' := by
  have hhook : ∀ hook ∈ v.response.hooks, (Visit.runHook hook).Keeps (Cleared s number id C) := by
    intro hook hmem v₁ hv₁
    have hharmless := hv.harmless hook hmem
    rcases hrun : (Visit.runHook hook).run v₁ with ⟨r₁, v₂⟩
    cases hook with
    | removal store options id' =>
      obtain ⟨rfl, rfl⟩ := hharmless
      obtain ⟨_, hremove⟩ := runHook_removal hrun
      exact hv₁.remove hs hremove
    | host key action =>
      cases hrun
      exact hv₁.congr rfl rfl (hharmless (v₁.request, v₁.world.host)).2
  cases Visit.finish_cases h with
  | idle => exact hv
  | ran _ hrun =>
    have hclosed : Cleared s number id C v.closed := ⟨hv.absent, nofun, hv.copied⟩
    have hkept := Visit.runHooks_keeps hhook _ hclosed
    rw [hrun] at hkept
    exact hkept

/-! ## Calls -/

section Calls

variable (hs : s.store = .memory number lifetime) (hd : s.dispatcher.Keeps (Response.Harmless s))
include hs hd

/-- Only a deferring resumption of a copy brings the transaction back. -/
theorem call_cleared {c : Call σ} (hc : c.Keeps (Response.Harmless s))
    (hfresh : v.world.ids.peek Supply.tokenLength ≠ id) {r : Except Fault (Option Outcome)}
    (hv : Cleared s number id C v) (h : (c.run s).run v = (r, v')) :
    Cleared s number id C v' ∨
      (∃ immediate completion, c = .resume immediate completion) ∧
        r = .ok (some (.pending id)) ∧ C := by
  cases c with
  | resume immediate completion =>
    obtain ⟨r₁, hrun, rfl⟩ := Step.map_cases h
    rcases resume_cleared hs hd hv hfresh hrun with hcleared | ⟨rfl, hC⟩
    · exact .inl hcleared
    · exact .inr ⟨⟨immediate, completion, rfl⟩, rfl, hC⟩
  | authorize c =>
    obtain ⟨_, hrun, -⟩ := Step.map_cases h
    exact .inl (authorize_cleared hs hd hv hfresh hrun)
  | load =>
    obtain ⟨_, hrun, -⟩ := Step.map_cases h
    exact .inl (load_cleared hs hv hrun)
  | decide o c =>
    obtain ⟨_, hrun, -⟩ := Step.map_cases h
    exact .inl (decide_cleared hd.responders hv hrun)
  | redirectError e =>
    obtain ⟨_, hrun, -⟩ := Step.map_cases h
    exact .inl (redirectError_cleared hd hv hrun)
  | renderError renderer e =>
    obtain ⟨_, hrun, -⟩ := Step.map_cases h
    exact .inl (render_cleared hc hv hrun)
  | token =>
    obtain ⟨_, hrun, -⟩ := Step.map_cases h
    exact .inl (token_cleared hd hv hrun)
  | finish =>
    obtain ⟨_, hrun, -⟩ := Step.map_cases h
    exact .inl (finish_cleared hs hv hrun)

/-- What the memory does not hold under `id` is not to be loaded after any calls, if no new id is
`id`, unless one of the calls suspended a copy again that a request had from before. -/
theorem refused_or_suspended_again {T : Traffic σ} {calls : List (Nat × Call σ)}
    (habsent : (T.world.memories number).value? id = none)
    (hharmless : ∀ i, (T.pairs i).2.Harmless s)
    (hcalls : ∀ call ∈ calls, call.2.Keeps (Response.Harmless s))
    (hfresh : ∀ before, before <+: calls →
      (T.after s before).world.ids.peek Supply.tokenLength ≠ id)
    (hv : v.world = (T.after s calls).world) (hnew : v.request.transaction = none)
    (hid : idParam s.options v.request = .ok id) :
    (s.loadTransaction.run v).1 = .error (.error (unknownId id)) ∨
      ∃ before i immediate completion rest,
        calls = before ++ (i, .resume immediate completion) :: rest ∧
        ((T.after s before).call s i (.resume immediate completion)).1 = .ok (some (.pending id)) ∧
        (T.pairs i).1.Carries id := by
  -- each request may carry a copy at most if it did so at first
  let P : Traffic σ → Prop := fun U =>
    ∀ i, Cleared s number id ((T.pairs i).1.Carries id) (U.visit i)
  have hstart : P T := fun i => ⟨habsent, hharmless i, fun hcarries => hcarries⟩
  by_cases hend : P (T.after s calls)
  · refine .inl (load_refused hs ?_ hnew hid)
    rw [hv]
    exact (hend 0).absent
  · right
    obtain ⟨before, i, c, rest, rfl, hbefore, hlost⟩ := Traffic.lost_in_call hstart hend
    have hc : c.Keeps (Response.Harmless s) :=
      hcalls (i, c) (List.mem_append_right before List.mem_cons_self)
    have hnext : ((T.after s before).visit i).world.ids.peek Supply.tokenLength ≠ id :=
      hfresh before (List.prefix_append before _)
    rcases call_cleared hs hd hc hnext (hbefore i) rfl with
      hcleared | ⟨⟨immediate, completion, rfl⟩, hr, hcarries⟩
    · refine absurd (Traffic.forall_visit_call hcleared fun j _ => ?_) hlost
      exact (hbefore j).elsewhere hcleared.absent
    · exact ⟨before, i, immediate, completion, rest, rfl, hr, hcarries⟩

end Calls

/-! ## Two requests for one transaction -/

/-- A code is asked for once; any number of requests name the transaction. The bytes of its id do
not come again. -/
def rivals : Traffic Unit where
  pairs i := (if i = 0 then codeRequest else naming, .empty)
  world := ⟨fun _ => [], ⟨fun n => if n < 16 then 0 else 1, 0⟩, .zero, ()⟩

/-- Two requests load the transaction, and one of them is answered. -/
def answered : Traffic Unit :=
  rivals.after (coding (.memory 0 none))
    [(0, .authorize trusting), (1, .load), (2, .load), (1, .decide .standard ⟨none, .none⟩)]

/-- Its answer is written. -/
def consumed : Traffic Unit := (answered.call (coding (.memory 0 none)) 1 .finish).2

theorem consumed_comes_back :
    (answered.world.memories 0).has zeroId = true ∧ (consumed.world.memories 0).has zeroId = false ∧
      (consumed.call (coding (.memory 0 none)) 2 (.resume deferring .none)).1 =
        .ok (some (.pending zeroId)) ∧
      ((consumed.call (coding (.memory 0 none)) 2 (.resume deferring .none)).2.call
        (coding (.memory 0 none)) 3 .load).1 = .ok none := by
  refine ⟨?_, ?_, ?_, ?_⟩ <;> rfl

theorem coding_harmless (store : Store Unit) :
    (coding store).dispatcher.Keeps (Response.Harmless (coding store)) :=
  (coding_bundled store).keeps nofun (Response.settled_harmless _)

/-- The slower request may be answered as well: nothing is left to load. -/
theorem consumed_refused :
    ((coding (.memory 0 none)).loadTransaction.run
      ⟨naming, .empty, (consumed.after (coding (.memory 0 none))
        [(2, .decide .standard ⟨none, .none⟩), (2, .finish)]).world⟩).1 =
      .error (.error (unknownId zeroId)) := by
  have hharmless : ∀ i, (consumed.pairs i).2.Harmless (coding (.memory 0 none)) := by
    intro i
    have hnone : (consumed.pairs i).2.hooks = [] := by
      rcases i with _ | _ | _ | i <;> rfl
    rw [Response.Harmless, hnone]
    exact nofun
  have hcalls : ∀ call ∈ [(2, .decide .standard ⟨none, .none⟩), (2, .finish)],
      Call.Keeps (Response.Harmless (coding (.memory 0 none))) (Prod.snd (α := Nat) call) := by
    simp [Call.Keeps]
  have hfresh : ∀ before, before <+: [(2, .decide .standard ⟨none, .none⟩), (2, .finish)] →
      (consumed.after (coding (.memory 0 none)) before).world.ids.peek Supply.tokenLength ≠ zeroId := by
    intro before hbefore
    simp only [List.prefix_cons_iff, List.prefix_nil] at hbefore
    rcases hbefore with rfl | ⟨_, rfl, rfl | ⟨_, rfl, rfl⟩⟩ <;> decide
  have hnew : naming.transaction = none := rfl
  have hnamed : idParam TransactionOptions.standard naming = .ok zeroId := rfl
  have habsent : (consumed.world.memories 0).value? zeroId = none := rfl
  rcases refused_or_suspended_again (s := coding (.memory 0 none)) (v := ⟨naming, .empty, _⟩)
      rfl (coding_harmless _) habsent hharmless hcalls hfresh rfl hnew hnamed with
    hrefused | ⟨before, i, immediate, completion, rest, hresumed, -⟩
  · exact hrefused
  · have hmem : (i, .resume immediate completion) ∈ before ++ (i, .resume immediate completion) :: rest :=
      List.mem_append_right before List.mem_cons_self
    rw [← hresumed] at hmem
    simp at hmem

end Server

end AuthServer

import AuthServer.Endpoint.Authorization
import AuthServer.Endpoint.Loading
import AuthServer.Proofs.Endpoint.Error
import AuthServer.Proofs.Endpoint.Finish
import AuthServer.Proofs.Issuing
import AuthServer.Store.Memory
import AuthServer.Store.Session

/-!
# Steps that leave the host alone

Suspending a transaction, loading it, telling an error and finishing a response
change the state of the host only through its callbacks. Where those leave it
alone, so do the endpoints.
-/

namespace AuthServer

open Json Store

variable {σ : Type} {host : σ}

/-! ## Stores -/

namespace Store

variable {c : ClientForms σ} {o : TransactionOptions}

theorem keeps_theSession : (theSession : Step (Access σ) Params).Keeps fun a => a.world.host = host := by
  refine (Step.keeps_gets _).bind fun session => ?_
  cases session with
  | some session => exact Step.keeps_pure _
  | none => exact Step.keeps_fail _

theorem session_load_keeps (hread : ∀ stored, (c.read stored).Keeps (· = host)) :
    ((session : Store σ).load c o).Keeps fun a => a.world.host = host := by
  refine keeps_theSession.bind fun held => ?_
  cases pending? held o.sessionKey with
  | none => exact Step.keeps_fail _
  | some records =>
    refine (Step.keeps_gets _).bind fun request => (Step.keeps_ofExcept _).bind fun id => ?_
    cases records.value? id with
    | none => exact Step.keeps_fail _
    | some record =>
      refine (Step.keeps_ofExcept _).bind fun t => ?_
      rcases t.client with _ | stored
      · exact (Step.keeps_pure _).bind fun _ => Step.keeps_pure _
      · exact Step.Keeps.bind (fun a ha => hread stored a.world.host ha) fun _ => Step.keeps_pure _

theorem session_store_keeps (hwrite : ∀ client, (c.write client).Keeps (· = host)) (t : Transaction) :
    ((session : Store σ).store c o t).Keeps fun a => a.world.host = host := by
  have hrecord : (recordOf c t).Keeps fun a => a.world.host = host := by
    unfold recordOf
    cases t.client with
    | none => exact Step.keeps_pure _
    | some client =>
      exact Step.Keeps.bind (fun a ha => hwrite client a.world.host ha) fun _ => Step.keeps_pure _
  refine keeps_theSession.bind fun _ => hrecord.bind fun record => ?_
  refine Step.Keeps.bind (fun _ ha => ha) fun id => ?_
  exact keeps_theSession.bind fun _ => Step.Keeps.bind (fun _ ha => ha) fun _ => Step.keeps_pure _

end Store

/-! ## Redirects -/

theorem ResponseMode.redirecting_spares (place : String → Params → String) (t : Transaction)
    (p : Params) :
    ((redirecting place : ResponseMode σ).render t p).Keeps fun reply => reply.host = host := by
  show (Step.ofExcept (redirectUri t) >>= fun uri => Step.onResponse _).Keeps _
  exact (Step.keeps_ofExcept _).bind fun uri => Step.keeps_modify fun _ hr => hr

theorem ResponseModes.BuiltIn.render_spares {modes : ResponseModes σ} (hm : modes.BuiltIn)
    {m : String × ResponseMode σ} (hmem : m ∈ modes) (t : Transaction) (p : Params) :
    (m.2.render t p).Keeps fun reply => reply.host = host := by
  rcases hm m hmem with hmode | hmode <;> rw [hmode]
  · exact ResponseMode.redirecting_spares _ t p
  · exact ResponseMode.redirecting_spares _ t p

theorem Grant.redirectErrors_spares {modes : ResponseModes σ} (hm : modes.BuiltIn)
    (defaultMode : String) (e : OAuthError) (t : Transaction) :
    (redirectErrors modes defaultMode e t).Keeps fun reply => reply.host = host := by
  unfold redirectErrors
  split
  · exact Step.keeps_pure _
  · rcases hmode : modes.select t.request.responseMode defaultMode with f | mode
    · exact Step.keeps_pure _
    · obtain ⟨place, -, rfl⟩ := hm.selected hmode
      have hvalidate : (Step.inReply ((ResponseMode.redirecting place : ResponseMode σ).validate t)).Keeps
          fun reply => reply.host = host := by
        intro reply hr
        rw [ResponseMode.run_validate]
        exact Step.keeps_ofExcept (P := fun reply : Reply σ => reply.host = host) _ reply hr
      refine hvalidate.attempt.bind fun r => ?_
      rcases r with (f | _) | _
      · exact Step.keeps_pure _
      · exact Step.keeps_crash
      · exact (ResponseMode.redirecting_spares _ t _).bind fun _ => Step.keeps_pure _

theorem ErrorRenderer.render_spares {renderer : ErrorRenderer σ} (hm : renderer.modes.BuiltIn)
    (e : OAuthError) : (renderer.render e).Keeps fun v => v.world.host = host := by
  intro v hv
  rcases hrun : (renderer.render e).run v with ⟨r, v'⟩
  cases render_cases hrun with
  | direct => exact hv
  | absent => exact hv
  | @indirect t _ _ _ _ hrendered =>
    have hkeeps := renderIndirect_keeps (P := fun reply => reply.host = host)
      (fun m hmem p => hm.render_spares hmem t p) (fun p => ResponseMode.redirecting_spares _ t p)
      (fun p => ResponseMode.redirecting_spares _ t p) e
    have hreply := hkeeps v.reply hv
    rw [hrendered] at hreply
    exact hreply

/-! ## Endpoints -/

namespace Server

variable {s : Server σ}

/-- The callbacks that the server was given leave the host alone, but for those that answer. -/
structure Sparing (s : Server σ) : Prop where
  store : s.store = .session ∨ ∃ number lifetime, s.store = .memory number lifetime
  write : ∀ client host, (s.clients.write client).Keeps (· = host)
  read : ∀ stored host, (s.clients.read stored).Keeps (· = host)
  parse : ∀ l ∈ s.dispatcher.parsers, ∀ req host, (l.handler req).Keeps (· = host)
  tell : ∀ l ∈ s.dispatcher.errorResponders, ∀ e t host,
    (l.handler e t).Keeps fun reply => reply.host = host

theorem counted_keeps {α : Type} {x : Step (Visit σ) α} (hx : x.Keeps fun v => v.world.host = host) :
    (s.counted x).Keeps fun v => v.world.host = host :=
  hx.onError fun _ => Step.keeps_modify fun _ hv => by rw [tally_host, hv]

theorem keeping_keeps {α : Type} {t : Transaction} {x : Step (Visit σ) α}
    (hx : x.Keeps fun v => v.world.host = host) : (keeping t x).Keeps fun v => v.world.host = host :=
  hx.onError fun _ => Step.keeps_modify fun _ hv => hv

namespace Sparing

variable (hs : s.Sparing)
include hs

theorem load_keeps : s.load.Keeps fun v => v.world.host = host := by
  have hload : (s.store.load s.clients s.options).Keeps fun a => a.world.host = host := by
    obtain hstore | ⟨number, lifetime, hstore⟩ := hs.store <;> rw [hstore]
    · exact session_load_keeps fun stored => hs.read stored host
    · refine (Step.keeps_gets _).bind fun request => (Step.keeps_ofExcept _).bind fun id => ?_
      refine Step.Keeps.bind (fun _ ha => ha) fun t => ?_
      cases t with
      | some t => exact Step.keeps_pure _
      | none => exact Step.keeps_fail _
  exact fun v hv => hload v.access hv

theorem storeNew_keeps (t : Transaction) : (s.storeNew t).Keeps fun v => v.world.host = host := by
  have hstored : (s.store.store s.clients s.options t).Keeps fun a => a.world.host = host := by
    obtain hstore | ⟨number, lifetime, hstore⟩ := hs.store <;> rw [hstore]
    · exact session_store_keeps (fun client => hs.write client host) t
    · exact fun _ ha => ha
  exact fun v hv => hstored v.access hv

theorem remove_keeps (id : String) : (s.remove id).Keeps fun v => v.world.host = host := by
  have hremoved : (s.store.remove s.options id).Keeps fun a => a.world.host = host := by
    obtain hstore | ⟨number, lifetime, hstore⟩ := hs.store <;> rw [hstore]
    · exact keeps_theSession.bind fun _ => fun _ ha => ha
    · exact fun _ ha => ha
  exact fun v hv => hremoved v.access hv

theorem newTransaction_keeps : s.newTransaction.Keeps fun v => v.world.host = host := by
  have hparse : ∀ {req : Request} {layers : List (Layer (RequestParser σ))} {p : Parsed},
      (∀ l ∈ layers, (l.handler req).Keeps (· = host)) →
      (Dispatcher.parseWith req layers p).Keeps (· = host) := by
    intro req layers p hlayers
    induction layers generalizing p with
    | nil => exact Step.keeps_pure _
    | cons l rest ih =>
      obtain ⟨hl, hrest⟩ := List.forall_mem_cons.1 hlayers
      exact hl.guarded.bind fun fields => ih hrest
  refine (Step.keeps_gets _).bind fun req => (Step.keeps_ofExcept _).bind fun type => ?_
  refine Step.Keeps.bind (fun v hv => hparse (fun l hl => ?_) v.world.host hv) fun parsed => ?_
  · exact hs.parse l (List.mem_filter.1 hl).1 req host
  · split
    · exact Step.keeps_fail _
    · exact Step.keeps_pure _

omit hs in
theorem validateClient_keeps {c : AuthorizationCallbacks σ}
    (hc : ∀ r, (c.validate r).Keeps (· = host)) (t : Transaction) :
    (validateClient c t).Keeps fun v => v.world.host = host := by
  have hvalidate : (Step.asHost (c.validate t.request).guarded : Step (Visit σ) Validated).Keeps
      fun v => v.world.host = host := fun v hv => (hc t.request).guarded v.world.host hv
  refine (keeping_keeps hvalidate).bind fun validated => ?_
  simp only
  split
  · exact keeping_keeps (Step.keeps_fail _)
  · exact (Step.keeps_gets _).bind fun _ => Step.keeps_pure _

theorem suspend_keeps (t : Transaction) : (s.suspend t).Keeps fun v => v.world.host = host := by
  have hset : ∀ t', (setTransaction t' : Step (Visit σ) Unit).Keeps fun v => v.world.host = host :=
    fun _ => Step.keeps_modify fun _ hv => hv
  have hcount : (s.count (·.countStarted)).Keeps fun v => v.world.host = host :=
    Step.keeps_modify fun _ hv => by rw [tally_host, hv]
  refine (keeping_keeps (hs.storeNew_keeps t)).bind fun id => ?_
  exact (hset _).bind fun _ => hcount.bind fun _ => Step.keeps_pure _

/-- Asking the resource owner leaves the host alone. -/
theorem authorize_keeps {c : AuthorizationCallbacks σ} (hc : ∀ r, (c.validate r).Keeps (· = host))
    (himmediate : c.immediate = none) : (s.authorize c).Keeps fun v => v.world.host = host := by
  refine counted_keeps (hs.newTransaction_keeps.bind fun t => ?_)
  refine (validateClient_keeps hc t).bind fun t' => ?_
  rw [himmediate]
  exact hs.suspend_keeps t'

theorem loadTransaction_keeps : s.loadTransaction.Keeps fun v => v.world.host = host := by
  refine (Step.keeps_gets _).bind fun held => ?_
  cases held with
  | some _ => exact Step.keeps_pure _
  | none =>
    refine counted_keeps (hs.load_keeps.bind fun t => ?_)
    have hfail : (Step.fail .unauthorizedClient : Step (Visit σ) Unit).Keeps
        fun v => v.world.host = host := Step.keeps_fail _
    split
    · exact Step.keeps_modify fun _ hv => hv
    · cases t.id with
      | none => exact hfail
      | some id =>
        have hquietly : (s.removeQuietly id).Keeps fun v => v.world.host = host :=
          Visit.runHook_removal_keeps (hs.remove_keeps id)
        exact hquietly.bind fun _ => hfail

theorem redirectError_keeps (e : OAuthError) :
    (s.redirectError e).Keeps fun v => v.world.host = host := by
  refine (Step.keeps_gets _).bind fun held => ?_
  cases held with
  | none => exact Step.keeps_fail e
  | some t =>
    have htold := Dispatcher.respondError_keeps (P := fun reply => reply.host = host)
      (fun l hl e => hs.tell l hl e t host) e
    refine (Step.keeps_modify fun _ hv => by rw [arm_world, hv]).bind fun _ => ?_
    exact fun v hv => htold v.reply hv

/-- A removal touches the store alone. -/
theorem finish_host {v v' : Visit σ} {r : Except Fault Unit}
    (hhooks : ∀ hook ∈ v.response.hooks, ∃ id, hook = .removal s.store s.options id)
    (h : Visit.finish.run v = (r, v')) : v'.world.host = v.world.host := by
  cases Visit.finish_cases h with
  | idle => rfl
  | ran _ hran =>
    have hkeeps := Visit.runHooks_keeps (P := fun u => u.world.host = v.world.host) fun hook hmem => by
      obtain ⟨id, rfl⟩ := hhooks hook hmem
      exact Visit.runHook_removal_keeps (hs.remove_keeps id)
    have hclosed := hkeeps v.closed rfl
    rw [hran] at hclosed
    exact hclosed

end Sparing

end Server

end AuthServer

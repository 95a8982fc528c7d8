import AuthServer.Proofs.Endpoint.Authorization
import AuthServer.Proofs.Endpoint.Decision
import AuthServer.Proofs.Endpoint.Error
import AuthServer.Proofs.Endpoint.Finish
import AuthServer.Proofs.Endpoint.Loading
import AuthServer.Proofs.Endpoint.Resume
import AuthServer.Proofs.Location
import AuthServer.Proofs.Store.Archive
import AuthServer.Proofs.Traffic

/-!
# Redirects

A server of bundled grants sends nobody to a place that the host did not give
when it validated the client of the transaction that is answered. Beside the
traffic runs an account of what these validations returned; the redirect URI
that a client asks for has no part in it.
-/

namespace AuthServer

open Json Store

variable {σ : Type}

/-- A removal from the server's own store, or a hook of the host that leaves the session and the
transaction of the request alone. -/
def FinishHook.Harmless (s : Server σ) : FinishHook σ → Prop
  | removal store options _ => store = s.store ∧ options = s.options
  | host _ action => ∀ p, (action.run p).2.1.session = p.1.session ∧
    (action.run p).2.1.transaction = p.1.transaction

namespace Server

variable {s : Server σ} {k : Archive} {u : Option String} {o : String → Option String}
  {r₀ : Response σ} {v v₁ v' : Visit σ} {t : Transaction}

/-! ## On the way to one URI -/

/-- The response leads where `r₀` did or to the URI `u`; what is stored is traced by `o`. -/
structure Routed (s : Server σ) (k : Archive) (u : Option String) (o : String → Option String)
    (r₀ : Response σ) (v : Visit σ) : Prop where
  located : Located u r₀ v.response
  hooks : ∀ hook ∈ v.response.hooks, hook.Harmless s
  traced : Traced s k o v

/-- The transaction of the request has the URI `u`, too. -/
structure Guided (s : Server σ) (k : Archive) (u : Option String) (o : String → Option String)
    (r₀ : Response σ) (v : Visit σ) : Prop extends Routed s k u o r₀ v where
  carried : ∀ t, v.request.transaction = some t → t.redirectUri = u

theorem Routed.of_response (h : Routed s k u o r₀ v) (hresponse : v'.response = v.response)
    {o' : String → Option String} (htraced : Traced s k o' v') : Routed s k u o' r₀ v' := by
  refine ⟨?_, ?_, htraced⟩
  · rw [hresponse]
    exact h.located
  · rw [hresponse]
    exact h.hooks

theorem Routed.congr (h : Routed s k u o r₀ v) (hresponse : v'.response = v.response)
    (hsession : v'.request.session = v.request.session)
    (hmemories : v'.world.memories = v.world.memories) : Routed s k u o r₀ v' :=
  h.of_response hresponse (h.traced.congr hsession hmemories)

theorem Routed.withHost (h : Routed s k u o r₀ v) (host : σ) : Routed s k u o r₀ (v.withHost host) :=
  h.congr rfl rfl rfl

theorem Routed.holding (h : Routed s k u o r₀ v) (ht : t.redirectUri = u) :
    Guided s k u o r₀ (v.holding t) := by
  refine ⟨h.congr rfl rfl rfl, ?_⟩
  rintro _ ⟨⟩
  exact ht

theorem Guided.congr (h : Guided s k u o r₀ v)
    (htransaction : v'.request.transaction = v.request.transaction)
    (hresponse : v'.response = v.response) (hsession : v'.request.session = v.request.session)
    (hmemories : v'.world.memories = v.world.memories) : Guided s k u o r₀ v' := by
  refine ⟨h.toRouted.congr hresponse hsession hmemories, fun t ht => h.carried t ?_⟩
  rw [← htransaction]
  exact ht

theorem Guided.withHost (h : Guided s k u o r₀ v) (host : σ) : Guided s k u o r₀ (v.withHost host) :=
  h.congr rfl rfl rfl rfl

theorem Guided.withMetrics (h : Guided s k u o r₀ v) (m : Metrics) :
    Guided s k u o r₀ (v.withMetrics m) :=
  h.congr rfl rfl rfl rfl

theorem Guided.tally (h : Guided s k u o r₀ v) (f : Metrics → Metrics) :
    Guided s k u o r₀ (s.tally f v) :=
  h.congr (by rw [tally_request]) (tally_response s f v) (by rw [tally_request]) (tally_memories s f v)

theorem Guided.arm (h : Guided s k u o r₀ v) : Guided s k u o r₀ (s.arm v) := by
  refine ⟨⟨?_, ?_, h.traced.congr (arm_session s v) (by rw [arm_world])⟩, fun t ht => ?_⟩
  · rcases arm_response s v with hr | ⟨id, -, hr⟩ <;> rw [hr]
    · exact h.located
    · exact h.located.congr rfl
  · rcases arm_response s v with hr | ⟨id, -, hr⟩ <;> rw [hr]
    · exact h.hooks
    · intro hook hmem
      rcases List.mem_append.1 hmem with hmem | hmem
      · exact h.hooks hook hmem
      · obtain rfl := List.mem_singleton.1 hmem
        exact ⟨rfl, rfl⟩
  · rw [arm_transaction] at ht
    obtain ⟨t₁, ht₁, rfl⟩ := Option.map_eq_some_iff.1 ht
    exact h.carried t₁ ht₁

/-- A handler that redirects to `u` alone stays on the way. -/
theorem Guided.withReply {α : Type} {x : Step (Reply σ) α} {r : Except Fault α} {reply : Reply σ}
    (h : Guided s k u o r₀ v)
    (hx : ∀ P, Redirectable u P → x.Keeps fun reply => P reply.response)
    (hrun : x.run v.reply = (r, reply)) : Guided s k u o r₀ (v.withReply reply) := by
  have hkeeps := hx _ ((redirectable_located u r₀).and (redirectable_hooks u v.response.hooks))
  have hreply := hkeeps v.reply ⟨h.located, rfl⟩
  rw [hrun] at hreply
  refine ⟨⟨hreply.1, ?_, h.traced.congr rfl rfl⟩, h.carried⟩
  show ∀ hook ∈ reply.response.hooks, _
  rw [hreply.2]
  exact h.hooks

/-! ## The store -/

/-- The account of the store after a call that may have put a transaction with the URI `u`. -/
def recorded (o : String → Option String) (u : Option String) :
    Except Fault (Option Outcome) → String → Option String
  | .ok (some (.pending id)) => Function.update o id u
  | _ => o

theorem Guided.aside (h : Guided s k u o r₀ v) (haside : Aside v v') {o' : String → Option String}
    (htraced : Traced s k o' v') : Guided s k u o' r₀ v' := by
  refine ⟨h.toRouted.of_response haside.response htraced, ?_⟩
  rw [haside.transaction]
  exact h.carried

section Store

variable (hk : s.Archived k)
include hk

theorem Suspending.guided {r : Except Fault Outcome} (h : Suspending s t v r v')
    (hv : Routed s k u o r₀ v) (ht : t.redirectUri = u) :
    Guided s k u (recorded o u (r.map some)) r₀ v' := by
  cases h with
  | @stored id _ hstore =>
    cases hk.storeNew hv.traced hstore with
    | put haside htraced =>
      rw [ht] at htraced
      exact Guided.tally ((hv.of_response haside.response htraced).holding (t := t.persisted id) ht) _
  | failed hstore =>
    cases hk.storeNew hv.traced hstore with
    | failed haside htraced => exact (hv.of_response haside.response htraced).holding ht
  | crashed hstore => cases hk.storeNew hv.traced hstore

theorem putBack_writing {r : Except Fault String} (hv : Traced s k o v)
    (h : (s.putBack t).run v = (r, v')) : Writing s k o t v r v' := by
  unfold putBack at h
  rcases hid : t.id with _ | id <;> rw [hid] at h
  · exact hk.storeNew hv h
  · exact hk.storeAgain hv h

theorem SuspendingAgain.guided {r : Except Fault Outcome} (h : SuspendingAgain s t v r v')
    (hv : Routed s k u o r₀ v) (ht : t.redirectUri = u) :
    Guided s k u (recorded o u (r.map some)) r₀ v' := by
  have hheld := hv.holding ht
  cases h with
  | @stored id _ hput =>
    cases putBack_writing hk hheld.traced hput with
    | put haside htraced =>
      rw [ht] at htraced
      exact (hheld.toRouted.of_response haside.response htraced).holding (t := t.persisted id) ht
  | failed hput =>
    cases putBack_writing hk hheld.traced hput with
    | failed haside htraced => exact hheld.aside haside htraced

end Store

/-! ## Validation -/

/-- What the host's validation returned as redirect URI, if the authorization got there. -/
def validation (s : Server σ) (c : AuthorizationCallbacks σ) (v : Visit σ) :
    Option (Option String) :=
  match s.newTransaction.run v with
  | (.ok t, v₁) =>
    some (((c.validate t.request).guarded.run v₁.world.host).1.toOption.bind (·.redirectUri))
  | (.error _, _) => none

section Validation

variable {c : AuthorizationCallbacks σ}

theorem validation_of_refused {e : Fault} (hn : s.newTransaction.run v = (.error e, v₁)) :
    s.validation c v = none := by
  rw [validation, hn]

theorem validation_of_begun (hn : s.newTransaction.run v = (.ok t, v₁)) :
    s.validation c v =
      some (((c.validate t.request).guarded.run v₁.world.host).1.toOption.bind (·.redirectUri)) := by
  rw [validation, hn]

/-- What the request asks for does not count before the validation. -/
theorem redirectUri_of_begun (hn : s.newTransaction.run v = (.ok t, v₁)) : t.redirectUri = none := by
  have hbegun := newTransaction_cases hn
  generalize hr : (Except.ok t : Except Fault Transaction) = r at hbegun
  cases hbegun with
  | refused => cases hr
  | begun =>
    cases hr
    rfl

/-- From a validation on, the transaction has the URI that the host returned, or none. -/
theorem Validating.guided {w : Visit σ} (hv : Routed s k u o r₀ w)
    (hn : s.newTransaction.run v = (.ok t, w)) (hu : s.validation c v = some u)
    {r : Except Fault Transaction} (h : Validating c t w r v') :
    Routed s k u o r₀ v' ∧ (∀ t', r = .ok t' → t'.redirectUri = u) ∧
      ∀ e, r = .error e → Guided s k u o r₀ v' := by
  rw [validation_of_begun hn] at hu
  cases h with
  | @failed _ host hrun =>
    rw [hrun] at hu
    obtain rfl : none = u := Option.some.inj hu
    have hguided := (hv.withHost host).holding (redirectUri_of_begun hn)
    exact ⟨hguided.toRouted, fun _ => nofun, fun _ _ => hguided⟩
  | @unauthorized a host hrun =>
    rw [hrun] at hu
    obtain rfl : a.redirectUri = u := Option.some.inj hu
    have hguided := (hv.withHost host).holding (t := t.validated none a.redirectUri a.webOrigin) rfl
    exact ⟨hguided.toRouted, fun _ => nofun, fun _ _ => hguided⟩
  | @passed a host _ hrun =>
    rw [hrun] at hu
    obtain rfl : a.redirectUri = u := Option.some.inj hu
    refine ⟨hv.withHost host, ?_, fun _ => nofun⟩
    rintro _ ⟨⟩
    rfl

end Validation

/-! ## Answers -/

section Answers

variable (hk : s.Archived k) (hb : s.Bundled)

section Bundled

include hb

theorem Responding.guided {complete : Completion σ} {r : Except Fault Unit}
    (h : Responding s complete t v r v') (hv : Guided s k u o r₀ v) (ht : t.redirectUri = u) :
    Guided s k u o r₀ v' := by
  subst ht
  have hkeeps := fun P (hP : Redirectable t.redirectUri P) => hb.respond_keeps hP complete
  cases h with
  | answered hrun => exact (hv.withReply hkeeps hrun).toRouted.holding (t := t.responded) rfl
  | unsupported hrun => exact hv.withReply hkeeps hrun
  | failed hrun => exact hv.withReply hkeeps hrun

theorem Granting.guided {fields : Params} {completion : Completion σ} {r : Except Fault Outcome}
    (h : Granting s t fields completion v r v') (hv : Routed s k u o r₀ v)
    (ht : t.redirectUri = u) : Guided s k u (recorded o u (r.map some)) r₀ v' := by
  cases h with
  | decided => exact hv.holding ht
  | responded hd hr =>
    have ht' := (Transaction.redirectUri_decide hd).trans ht
    show Guided s k u o r₀ v'
    exact hr.guided hb ((hv.holding ht').tally _) ht'
  | failed hd hr =>
    have ht' := (Transaction.redirectUri_decide hd).trans ht
    show Guided s k u o r₀ v'
    exact hr.guided hb ((hv.holding ht').tally _) ht'

theorem GrantingStored.guided {fields : Params} {completion : Completion σ}
    {r : Except Fault Outcome} (h : GrantingStored s t fields completion v r v')
    (hv : Guided s k u o r₀ v) (ht : t.redirectUri = u) :
    Guided s k u (recorded o u (r.map some)) r₀ v' := by
  cases h with
  | decided => exact hv
  | @answered _ r _ hd hr =>
    have ht' := (Transaction.redirectUri_decide hd).trans ht
    have hguided := hr.guided hb ((hv.toRouted.holding ht').tally _).arm ht'
    cases r <;> exact hguided

end Bundled

include hk hb

theorem Trying.guided {immediate : Immediate σ} {completion : Completion σ}
    {r : Except Fault Outcome} (h : Trying s immediate completion t v r v')
    (hv : Routed s k u o r₀ v) (ht : t.redirectUri = u) :
    Guided s k u (recorded o u (r.map some)) r₀ v' := by
  cases h with
  | failed => exact (hv.withHost _).holding ht
  | granted _ _ hgrant => exact hgrant.guided hb (hv.withHost _) ht
  | deferred _ _ hsuspend => exact hsuspend.guided hk (hv.withHost _) ht

theorem authorize_guided {c : AuthorizationCallbacks σ} (hv : Guided s k u o r₀ v)
    {r : Except Fault Outcome} (h : (s.authorize c).run v = (r, v')) :
    (s.validation c v = none ∧ Guided s k u o v.response v') ∨
      ∃ u', s.validation c v = some u' ∧
        Guided s k u' (recorded o u' (r.map some)) v.response v' := by
  obtain ⟨v₂, m, hx, rfl⟩ := counted_cases h
  have hstart : ∀ u', Routed s k u' o v.response v := fun u' => ⟨.kept rfl, hv.hooks, hv.traced⟩
  have hbegun : ∀ {t w} u', s.newTransaction.run v = (.ok t, w) → Routed s k u' o v.response w := by
    intro t w u' hn
    obtain ⟨host, rfl⟩ := (newTransaction_cases hn).withHost
    exact (hstart u').withHost host
  cases runAuthorization_cases hx with
  | refused hn =>
    obtain ⟨host, rfl⟩ := (newTransaction_cases hn).withHost
    have hguided : Guided s k u o v.response v := ⟨hstart u, hv.carried⟩
    exact .inl ⟨validation_of_refused hn, (hguided.withHost host).withMetrics m⟩
  | invalid hn hval =>
    have hu := validation_of_begun (c := c) hn
    obtain ⟨-, -, hguided⟩ := hval.guided (hbegun _ hn) hn hu
    exact .inr ⟨_, hu, (hguided _ rfl).withMetrics m⟩
  | asked hn hval _ hsuspend =>
    have hu := validation_of_begun (c := c) hn
    obtain ⟨hrouted, ht, -⟩ := hval.guided (hbegun _ hn) hn hu
    exact .inr ⟨_, hu, (hsuspend.guided hk hrouted (ht _ rfl)).withMetrics m⟩
  | tried hn hval _ htry =>
    have hu := validation_of_begun (c := c) hn
    obtain ⟨hrouted, ht, -⟩ := hval.guided (hbegun _ hn) hn hu
    exact .inr ⟨_, hu, (htry.guided hk hb hrouted (ht _ rfl)).withMetrics m⟩

theorem resume_guided {immediate : Immediate σ} {completion : Completion σ}
    (hv : Guided s k u o r₀ v) {r : Except Fault Outcome}
    (h : (s.resume immediate completion).run v = (r, v')) :
    Guided s k u (recorded o u (r.map some)) r₀ v' := by
  obtain ⟨v₂, m, hx, rfl⟩ := counted_cases h
  refine Guided.withMetrics ?_ m
  have hcases := runResume_cases hx
  have hreconsidered : ∀ {t}, v.request.transaction = some t →
      Guided s k u o r₀ (s.reconsidered t v) := fun {t} ht =>
    (hv.toRouted.holding (t := s.renewed t v) (hv.carried t ht)).tally _
  cases hcases with
  | unloaded => exact hv
  | failed ht => exact (hreconsidered ht).withHost _
  | @granted _ _ host _ _ ht _ _ hgrant =>
    have htu := hv.carried _ ht
    have hrouted := ((hreconsidered ht).withHost host).toRouted
    exact hgrant.guided hb (hrouted.holding htu) htu
  | @deferred _ _ host _ _ ht _ _ hsuspend =>
    have htu := hv.carried _ ht
    have hrouted := ((hreconsidered ht).withHost host).toRouted
    exact hsuspend.guided hk (hrouted.congr rfl rfl rfl) htu

omit hk hb in
theorem Recording.guided {r : Except Fault Unit} (h : Recording s v r v')
    (hv : Guided s k u o r₀ v) : Guided s k u o r₀ v' := by
  cases h with
  | refused host => exact hv.withHost host
  | decidedBefore ht =>
    have htu := hv.carried _ ht
    exact (hv.withHost _).toRouted.holding htu
  | @recorded t _ input host _ _ ht _ hd =>
    have hconsidered : (s.considered t input v).redirectUri = u := hv.carried t ht
    exact ((hv.withHost host).toRouted.holding
      ((Transaction.redirectUri_decide hd).trans hconsidered)).tally _

omit hk in
theorem decide_guided {d : DecisionOptions} {c : DecisionCallbacks σ} (hv : Guided s k u o r₀ v)
    {r : Except Fault Unit} (h : (s.decide d c).run v = (r, v')) : Guided s k u o r₀ v' := by
  obtain ⟨v₂, m, hx, rfl⟩ := counted_cases h
  refine Guided.withMetrics ?_ m
  cases runDecision_cases hx with
  | unrecorded hrec => exact hrec.guided hv
  | answered hrec ht hr =>
    have hguided := hrec.guided hv
    have htu := hguided.carried _ ht
    exact hr.guided hb hguided.arm htu

omit hk in
theorem redirectError_guided {e : OAuthError} (hv : Guided s k u o r₀ v) {r : Except Fault Unit}
    (h : (s.redirectError e).run v = (r, v')) : Guided s k u o r₀ v' := by
  cases redirectError_cases h with
  | absent => exact hv
  | handed ht hrun =>
    obtain rfl := hv.carried _ ht
    exact hv.arm.withReply (fun P hP => hb.respondError_keeps hP e) hrun

end Answers

theorem render_guided {renderer : ErrorRenderer σ} (hm : renderer.modes.BuiltIn) {e : OAuthError}
    (hv : Guided s k u o r₀ v) {r : Except Fault Unit} (h : (renderer.render e).run v = (r, v')) :
    Guided s k u o r₀ v' := by
  cases ErrorRenderer.render_cases h with
  | direct =>
    refine ⟨⟨hv.located.congr (ErrorRenderer.header?_writeDirect e v.response), ?_,
      hv.traced.congr rfl rfl⟩, hv.carried⟩
    show ∀ hook ∈ (ErrorRenderer.writeDirect e v.response).hooks, _
    rw [ErrorRenderer.hooks_writeDirect]
    exact hv.hooks
  | absent => exact hv
  | indirect _ ht hrun =>
    obtain rfl := hv.carried _ ht
    exact hv.withReply (fun P hP => ErrorRenderer.redirect_keeps hm hP e) hrun

/-! ## Loading -/

/-- The URI of the request's transaction after a load: that of what is stored under the id that
the request names, if there was no transaction before. -/
def loadedUri (s : Server σ) (o : String → Option String) (u : Option String) (v : Visit σ) :
    Except Fault (Option Outcome) → Option String
  | .ok _ =>
    match v.request.transaction, idParam s.options v.request with
    | none, .ok id => o id
    | _, _ => u
  | .error _ => u

theorem load_guided (hk : s.Archived k) (hv : Guided s k u o v.response v) {r : Except Fault Unit}
    (h : s.loadTransaction.run v = (r, v')) :
    Guided s k (s.loadedUri o u v (r.map fun _ => none)) o v.response v' := by
  have hloads : ∀ {r v₁}, s.load.run v = (r, v₁) → Guided s k u o v.response v₁ := fun hload =>
    hv.aside (hk.load hv.traced hload).1 (hk.load hv.traced hload).2.1
  have hremoves : ∀ {id r v₁ v₂}, Guided s k u o v.response v₁ → (s.remove id).run v₁ = (r, v₂) →
      Guided s k u o v.response v₂ := fun hv₁ hremove =>
    hv₁.aside (hk.remove hv₁.traced hremove).1 (hk.remove hv₁.traced hremove).2
  cases loadTransaction_cases h with
  | present ht =>
    have hu : s.loadedUri o u v (.ok none) = u := by simp only [loadedUri, ht]
    exact hu.symm ▸ hv
  | failed m _ hload => exact (hloads hload).withMetrics m
  | @loaded t v₁ m hnew hload =>
    obtain ⟨haside, htraced, hfound⟩ := hk.load hv.traced hload
    obtain ⟨id, hid, ht⟩ := hfound t rfl
    have hu : s.loadedUri o u v (.ok none) = o id := by simp only [loadedUri, hnew, hid]
    have hrouted : Routed s k (o id) o v.response v := ⟨.kept rfl, hv.hooks, hv.traced⟩
    exact hu.symm ▸ ((hrouted.of_response haside.response htraced).holding ht).withMetrics m
  | unstored m _ hload => exact (hloads hload).withMetrics m
  | removed m _ hload _ _ hremove => exact (hremoves (hloads hload) hremove).withMetrics m
  | crashed m _ hload _ _ hremove => exact (hremoves (hloads hload) hremove).withMetrics m

/-! ## Finishing -/

theorem runHook_keeps (hk : s.Archived k) {hook : FinishHook σ} (hhook : hook.Harmless s) :
    (Visit.runHook hook).Keeps (Guided s k u o r₀) := by
  intro v hv
  rcases hrun : (Visit.runHook hook).run v with ⟨r, v'⟩
  cases hook with
  | removal store options id =>
    obtain ⟨rfl, rfl⟩ := hhook
    obtain ⟨_, hremove⟩ := runHook_removal hrun
    exact hv.aside (hk.remove hv.traced hremove).1 (hk.remove hv.traced hremove).2
  | host key action =>
    cases hrun
    obtain ⟨hsession, htransaction⟩ := hhook (v.request, v.world.host)
    exact hv.congr htransaction rfl hsession rfl

theorem finish_guided (hk : s.Archived k) (hv : Guided s k u o r₀ v) {r : Except Fault Unit}
    (h : Visit.finish.run v = (r, v')) : Guided s k u o r₀ v' := by
  cases Visit.finish_cases h with
  | idle => exact hv
  | ran _ hrun =>
    have hclosed : Guided s k u o r₀ v.closed :=
      ⟨⟨hv.located.congr rfl, nofun, hv.traced.congr rfl rfl⟩, hv.carried⟩
    have hkept := Visit.runHooks_keeps (fun hook hmem => runHook_keeps hk (hv.hooks hook hmem)) _ hclosed
    rw [hrun] at hkept
    exact hkept

end Server

end AuthServer

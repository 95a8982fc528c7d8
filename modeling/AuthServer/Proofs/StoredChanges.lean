import AuthServer.Proofs.Endpoint.Authorization
import AuthServer.Proofs.Endpoint.Decision
import AuthServer.Proofs.Endpoint.Error
import AuthServer.Proofs.Endpoint.Finish
import AuthServer.Proofs.Endpoint.Loading
import AuthServer.Proofs.Endpoint.Resume
import AuthServer.Proofs.Endpoint.Token
import AuthServer.Proofs.Traffic

/-!
# How the stored transactions change

A suspension sets the id that it reports, the loading of a transaction whose
client is gone clears its id, and the first finish of a written response clears
the id whose removal it was armed with. Nothing else changes what is stored.
-/

namespace AuthServer

open Json Store

variable {σ : Type}

/-- The id that the finish of the response clears: none before it is written or after it was
finished. -/
def Visit.due (v : Visit σ) : Option String :=
  if v.response.finished || !v.response.written then none else (removals v.response.hooks).head?

namespace Server

variable {s : Server σ} {k : Shelf} {v v₁ v' : Visit σ} {t : Transaction}

/-! ## Moves -/

/-- The hooks of the response and the records of the session are in order. -/
def Tidy (s : Server σ) (v : Visit σ) : Prop :=
  v.request.Distinct s.options.sessionKey ∧ v.response.Orderly s

/-- From a tidy visit to a tidy one, with `f` done to what is stored. -/
def Moves (s : Server σ) (k : Shelf) (f : (String → Option Stored) → String → Option Stored)
    (v v' : Visit σ) : Prop :=
  s.Tidy v → s.Tidy v' ∧ k.held s.options v' = f (k.held s.options v)

/-- Nothing stored changes. -/
abbrev Stays (s : Server σ) (k : Shelf) (v v' : Visit σ) : Prop := Moves s k id v v'

theorem Moves.trans {f g : (String → Option Stored) → String → Option Stored}
    (h : Moves s k f v v₁) (h' : Moves s k g v₁ v') : Moves s k (g ∘ f) v v' := by
  intro htidy
  obtain ⟨htidy₁, hheld₁⟩ := h htidy
  obtain ⟨htidy', hheld'⟩ := h' htidy₁
  refine ⟨htidy', ?_⟩
  rw [hheld', hheld₁]
  rfl

theorem held_congr (k : Shelf) (o : TransactionOptions) (hsession : v'.request.session = v.request.session)
    (hmemories : v'.world.memories = v.world.memories) : k.held o v' = k.held o v := by
  funext id
  cases k with
  | memory number => simp only [Shelf.held, hmemories]
  | session => simp only [Shelf.held, Request.recordAt?, hsession]

theorem stays_of_eq (hsession : v'.request.session = v.request.session)
    (hmemories : v'.world.memories = v.world.memories)
    (horderly : v.response.Orderly s → v'.response.Orderly s) : Stays s k v v' := by
  rintro ⟨hdistinct, hresponse⟩
  refine ⟨⟨?_, horderly hresponse⟩, held_congr k s.options hsession hmemories⟩
  intro session records hs
  rw [hsession] at hs
  exact hdistinct session records hs

theorem Stays.refl (v : Visit σ) : Stays s k v v := fun h => ⟨h, rfl⟩

theorem stays_withHost (v : Visit σ) (host : σ) : Stays s k v (v.withHost host) :=
  stays_of_eq rfl rfl fun h => h

theorem stays_holding (v : Visit σ) (t : Transaction) : Stays s k v (v.holding t) :=
  stays_of_eq rfl rfl fun h => h

theorem stays_withMetrics (v : Visit σ) (m : Metrics) : Stays s k v (v.withMetrics m) :=
  stays_of_eq rfl rfl fun h => h

theorem stays_tally (f : Metrics → Metrics) (v : Visit σ) : Stays s k v (s.tally f v) :=
  stays_of_eq (by rw [tally_request]) (tally_memories s f v) fun h => by rw [tally_response]; exact h

theorem stays_arm (v : Visit σ) : Stays s k v (s.arm v) := by
  refine stays_of_eq (arm_session s v) (by rw [arm_world]) fun h => ?_
  rcases arm_response s v with hr | ⟨id, hnone, hr⟩ <;> rw [hr]
  · exact h
  · refine ⟨?_, ?_⟩
    · intro hook hmem
      rcases List.mem_append.1 hmem with hmem | hmem
      · exact h.hooks hook hmem
      · exact .inr ⟨_, List.mem_singleton.1 hmem⟩
    · show (removals (v.response.hooks ++ [_])).length ≤ 1
      rw [removals_append, removals_of_hasHook hnone]
      exact Nat.le_refl 1

theorem stays_granted (t : Transaction) (v : Visit σ) : Stays s k v (s.granted t v) :=
  ((stays_holding v t).trans (stays_tally _ _)).trans (stays_arm _)

theorem stays_reconsidered (t : Transaction) (v : Visit σ) : Stays s k v (s.reconsidered t v) :=
  (stays_holding v _).trans (stays_tally _ _)

/-- A handler that keeps responses orderly changes nothing stored. -/
theorem stays_withReply {α : Type} {x : Step (Reply σ) α} {r : Except Fault α} {reply : Reply σ}
    (hx : x.Keeps fun reply => reply.response.Orderly s) (h : x.run v.reply = (r, reply)) :
    Stays s k v (v.withReply reply) := by
  refine stays_of_eq rfl rfl fun horderly => ?_
  have hreply := hx v.reply horderly
  rw [h] at hreply
  exact hreply

theorem Puts.moves {id : String} (h : Puts s k id t v v') :
    ∃ x : Stored, x.redirectUri = t.redirectUri ∧
      Moves s k (fun held => Function.update held id (some x)) v v' := by
  obtain ⟨x, hx, hheld⟩ := h.held
  refine ⟨x, hx, fun htidy => ⟨⟨h.distinct htidy.1, ?_⟩, hheld⟩⟩
  rw [h.response]
  exact htidy.2

theorem stays_of_load (hs : s.store = k.store) {r : Except Fault Transaction}
    (h : s.load.run v = (r, v')) : Stays s k v v' := by
  obtain ⟨host, rfl, -⟩ := load_held hs h
  exact stays_withHost v host

theorem moves_of_remove (hs : s.store = k.store) {id : String} {r : Except Fault Unit}
    (h : (s.remove id).run v = (r, v')) :
    Moves s k (fun held => Function.update held id none) v v' := by
  rintro ⟨hdistinct, horderly⟩
  obtain ⟨-, hheld, hdistinct', -, hresponse⟩ := remove_held hs hdistinct h
  refine ⟨⟨hdistinct', ?_⟩, hheld⟩
  rw [hresponse]
  exact horderly

/-! ## Suspensions -/

/-- How a call ends that may suspend: the transaction of the request is set under an id that fits
`P` and is reported, or nothing stored changes. -/
inductive Storing (s : Server σ) (k : Shelf) (P : String → Prop) (v : Visit σ) :
    Except Fault Outcome → Visit σ → Prop where
  | put {id : String} {x : Stored} {t : Transaction} {v' : Visit σ} :
    P id → v'.request.transaction = some t → x.redirectUri = t.redirectUri →
    Moves s k (fun held => Function.update held id (some x)) v v' →
    Storing s k P v (.ok (.pending id)) v'
  | kept {r : Except Fault Outcome} {v' : Visit σ} :
    (∀ id, r ≠ .ok (.pending id)) → Stays s k v v' → Storing s k P v r v'

theorem Storing.after {P : String → Prop} {r : Except Fault Outcome} (hs : Storing s k P v₁ r v')
    (h : Stays s k v v₁) : Storing s k P v r v' := by
  cases hs with
  | put hid ht hx hmoves => exact .put hid ht hx (h.trans hmoves)
  | kept hr hstays => exact .kept hr (h.trans hstays)

theorem Storing.withMetrics {P : String → Prop} {r : Except Fault Outcome}
    (hs : Storing s k P v r v') (m : Metrics) : Storing s k P v r (v'.withMetrics m) := by
  cases hs with
  | put hid ht hx hmoves => exact .put hid ht hx (hmoves.trans (stays_withMetrics v' m))
  | kept hr hstays => exact .kept hr (hstays.trans (stays_withMetrics v' m))

theorem Suspending.storing (hs : s.store = k.store) {r : Except Fault Outcome}
    (h : Suspending s t v r v') : Storing s k (· = k.nextId s.options v.world) v r v' := by
  cases h with
  | stored hstore =>
    rcases storeNew_puts hs hstore with ⟨_, _, he, -⟩ | ⟨hid, hput⟩
    · cases he
    · cases hid
      obtain ⟨x, hx, hmoves⟩ := hput.moves
      exact .put (t := t.persisted (k.nextId s.options v.world)) rfl (by rw [tally_request]; rfl) hx
        (hmoves.trans ((stays_holding _ _).trans (stays_tally _ _)))
  | failed hstore =>
    rcases storeNew_puts hs hstore with ⟨_, host, -, rfl⟩ | ⟨hid, -⟩
    · exact .kept nofun ((stays_withHost v host).trans (stays_holding _ _))
    · cases hid
  | crashed hstore =>
    rcases storeNew_puts hs hstore with ⟨_, host, -, rfl⟩ | ⟨hid, -⟩
    · exact .kept nofun (stays_withHost v host)
    · cases hid

theorem putBack_puts (hs : s.store = k.store) {r : Except Fault String}
    (h : (s.putBack t).run v = (r, v')) :
    (∃ e host, r = .error e ∧ v' = v.withHost host) ∨ ∃ id, r = .ok id ∧ Puts s k id t v v' := by
  unfold putBack at h
  rcases hid : t.id with _ | id <;> rw [hid] at h
  · rcases storeNew_puts hs h with hfail | ⟨hr, hput⟩
    · exact .inl hfail
    · exact .inr ⟨_, hr, hput⟩
  · rcases storeAgain_puts hs h with hfail | ⟨hr, hput⟩
    · exact .inl hfail
    · exact .inr ⟨_, hr, hput⟩

theorem SuspendingAgain.storing (hs : s.store = k.store) {r : Except Fault Outcome}
    (h : SuspendingAgain s t v r v') : Storing s k (fun _ => True) v r v' := by
  cases h with
  | stored hput =>
    rcases putBack_puts hs hput with ⟨_, _, he, -⟩ | ⟨_, hid, hput⟩
    · cases he
    · cases hid
      obtain ⟨x, hx, hmoves⟩ := hput.moves
      exact .put trivial rfl hx (((stays_holding v t).trans hmoves).trans (stays_holding _ _))
  | failed hput =>
    rcases putBack_puts hs hput with ⟨_, host, -, rfl⟩ | ⟨_, hid, -⟩
    · exact .kept nofun ((stays_holding v t).trans (stays_withHost _ host))
    · cases hid

/-! ## Loading -/

/-- The id of the transaction that a load finds without its client. -/
def deauthorized (s : Server σ) (v : Visit σ) : Option String :=
  match v.request.transaction, (s.load.run v).1 with
  | none, .ok t => if t.client.isNone then t.id else none
  | _, _ => none

theorem Loading.moves (hs : s.store = k.store) {r : Except Fault Unit} (h : Loading s v r v') :
    (s.deauthorized v = none ∧ Stays s k v v') ∨
      ∃ id, s.deauthorized v = some id ∧
        Moves s k (fun held => Function.update held id none) v v' ∧
        (s.Tidy v → r = .error (.error .unauthorizedClient)) := by
  cases h with
  | present ht => exact .inl ⟨by simp [deauthorized, ht], Stays.refl v⟩
  | failed m ht hload =>
    refine .inl ⟨by simp [deauthorized, ht, hload], ?_⟩
    exact (stays_of_load hs hload).trans (stays_withMetrics _ m)
  | @loaded t v₁ m ht hload hclient =>
    have hnone : t.client.isNone = false := by simpa [← Option.not_isSome] using hclient
    refine .inl ⟨by simp [deauthorized, ht, hload, hnone], ?_⟩
    exact ((stays_of_load hs hload).trans (stays_holding _ t)).trans (stays_withMetrics _ m)
  | unstored m ht hload hclient hid =>
    refine .inl ⟨by simp [deauthorized, ht, hload, hid], ?_⟩
    exact (stays_of_load hs hload).trans (stays_withMetrics _ m)
  | @removed t id _ _ _ m ht hload hclient hid hremove =>
    refine .inr ⟨id, by simp [deauthorized, ht, hload, hclient, hid], ?_, fun _ => rfl⟩
    exact ((stays_of_load hs hload).trans (moves_of_remove hs hremove)).trans (stays_withMetrics _ m)
  | @crashed t id _ _ m ht hload hclient hid hremove =>
    refine .inr ⟨id, by simp [deauthorized, ht, hload, hclient, hid], ?_, fun htidy => ?_⟩
    · exact ((stays_of_load hs hload).trans (moves_of_remove hs hremove)).trans (stays_withMetrics _ m)
    · have htidy₁ := (stays_of_load hs hload htidy).1
      exact absurd rfl (remove_held hs htidy₁.1 hremove).1

/-! ## Finishing -/

/-- Clears ids one after the other. -/
def clear (ids : List String) (held : String → Option Stored) : String → Option Stored :=
  ids.foldl (fun held id => Function.update held id none) held

theorem clear_append (ids ids' : List String) : clear (ids ++ ids') = clear ids' ∘ clear ids := by
  funext held
  exact List.foldl_append

theorem runHook_moves (hs : s.store = k.store) {hook : FinishHook σ}
    (hhook : hook.Quiet ∨ ∃ id, hook = .removal s.store s.options id) {r : Except Fault Unit}
    (h : (Visit.runHook hook).run v = (r, v')) : Moves s k (clear (removals [hook])) v v' := by
  rcases hhook with hquiet | ⟨id, rfl⟩
  · cases hook with
    | removal => cases hquiet
    | host key action =>
      cases h
      exact stays_of_eq (hquiet _) rfl fun h => h
  · obtain ⟨_, hremove⟩ := runHook_removal h
    exact moves_of_remove hs hremove

/-- The hooks up to a crash clear their ids; without a crash all do. -/
theorem runHooks_moves (hs : s.store = k.store) {hooks : List (FinishHook σ)}
    (hhooks : ∀ hook ∈ hooks, hook.Quiet ∨ ∃ id, hook = .removal s.store s.options id)
    {r : Except Fault (Option OAuthError)} (h : (Visit.runHooks hooks).run v = (r, v')) :
    ∃ ids, ids <+: removals hooks ∧ Moves s k (clear ids) v v' ∧
      (r ≠ .error .crash → ids = removals hooks) := by
  induction hooks generalizing v r with
  | nil =>
    cases h
    exact ⟨[], List.nil_prefix, Stays.refl _, fun _ => rfl⟩
  | cons hook rest ih =>
    obtain ⟨hhook, hrest⟩ := List.forall_mem_cons.1 hhooks
    have hsplit : removals (hook :: rest) = removals [hook] ++ removals rest :=
      removals_append [hook] rest
    simp only [Visit.runHooks] at h
    rw [Step.run_bind, Step.run_attempt] at h
    rcases hrun : (Visit.runHook hook).run v with ⟨r₁, v₁⟩
    have hmoves := runHook_moves hs hhook hrun
    rw [hrun] at h
    have hgo : ∀ {r₂}, (Visit.runHooks rest).run v₁ = (r₂, v') → (r ≠ .error .crash → r₂ ≠ .error .crash) →
        ∃ ids, ids <+: removals (hook :: rest) ∧ Moves s k (clear ids) v v' ∧
          (r ≠ .error .crash → ids = removals (hook :: rest)) := by
      intro r₂ hrun₂ hcrash
      obtain ⟨ids, hprefix, hmoves₂, hids⟩ := ih hrest hrun₂
      refine ⟨removals [hook] ++ ids, ?_, ?_, fun hr => ?_⟩
      · rw [hsplit]
        exact (List.prefix_append_right_inj _).2 hprefix
      · rw [clear_append]
        exact hmoves.trans hmoves₂
      · rw [hsplit, hids (hcrash hr)]
    rcases r₁ with (e | _) | _ <;> simp only at h
    · rcases Step.bind_cases h with ⟨_, v₂, hrun₂, h⟩ | ⟨e, hrun₂, rfl⟩
      · cases h
        exact hgo hrun₂ fun _ => nofun
      · refine hgo hrun₂ fun hr he => hr ?_
        cases he
        rfl
    · cases h
      refine ⟨removals [hook], ?_, hmoves, fun hr => absurd rfl hr⟩
      rw [hsplit]
      exact List.prefix_append _ _
    · exact hgo h fun hr => hr

theorem finish_moves (hs : s.store = k.store) {r : Except Fault Unit}
    (h : Visit.finish.run v = (r, v')) (htidy : s.Tidy v) :
    s.Tidy v' ∧
      match v.due with
      | none => k.held s.options v' = k.held s.options v
      | some id =>
        k.held s.options v' = Function.update (k.held s.options v) id none ∨
          r = .error .crash ∧ k.held s.options v' = k.held s.options v := by
  cases Visit.finish_cases h with
  | idle hdone =>
    refine ⟨htidy, ?_⟩
    rw [Visit.due, if_pos hdone]
  | ran hdone hrun hcrash =>
    obtain ⟨ids, hprefix, hmoves, hids⟩ := runHooks_moves hs htidy.2.hooks hrun
    have hstart : s.Tidy v.closed := ⟨htidy.1, Response.orderly_of_nil rfl⟩
    obtain ⟨htidy', hheld⟩ := hmoves hstart
    refine ⟨htidy', ?_⟩
    rw [Visit.due, if_neg (by rw [hdone]; exact nofun)]
    rcases hlist : removals v.response.hooks with _ | ⟨id, rest⟩
    · rw [hlist, List.prefix_nil] at hprefix
      subst hprefix
      exact hheld
    · have hrest : rest = [] := by
        have hsingle := htidy.2.single
        rw [hlist, List.length_cons] at hsingle
        exact List.length_eq_zero_iff.1 (by omega)
      subst hrest
      rw [hlist] at hprefix hids
      rcases List.prefix_cons_iff.1 hprefix with rfl | ⟨ids', rfl, hnil⟩
      · refine .inr ⟨?_, hheld⟩
        by_contra hr
        exact absurd (hids (hcrash hr)) nofun
      · rw [List.prefix_nil] at hnil
        subst hnil
        exact .inl hheld

theorem stays_writeDirect (e : OAuthError) (v : Visit σ) :
    Stays s k v (v.withReply ⟨ErrorRenderer.writeDirect e v.response, v.world.host⟩) := by
  refine stays_of_eq rfl rfl fun horderly => horderly.of_hooks ?_
  unfold ErrorRenderer.writeDirect
  split <;> rfl

theorem render_stays {renderer : ErrorRenderer σ} {e : OAuthError} {r : Except Fault Unit}
    (hmodes : (Call.renderError renderer e).Orderly s) (h : (renderer.render e).run v = (r, v')) :
    Stays s k v v' := by
  cases ErrorRenderer.render_cases h with
  | direct => exact stays_writeDirect e v
  | absent => exact Stays.refl v
  | @indirect t _ _ _ _ hrun =>
    have hredirects : ∀ place p, ((ResponseMode.redirecting place : ResponseMode σ).render t p).Keeps
        fun reply => reply.response.Orderly s :=
      fun place p => ResponseMode.render_keeps fun _ _ _ h => h.of_hooks rfl
    have hkeeps : (renderer.renderIndirect e t).Keeps fun reply => reply.response.Orderly s :=
      ErrorRenderer.renderIndirect_keeps (fun m hm p => hmodes m hm t p) (hredirects _) (hredirects _) e
    exact stays_withReply hkeeps hrun

/-! ## Answers -/

section Handlers

variable (hd : s.dispatcher.Keeps fun r => r.Orderly s)
include hd

theorem Responding.stays {complete : Completion σ} {r : Except Fault Unit}
    (h : Responding s complete t v r v') : Stays s k v v' := by
  have hkeeps : (s.dispatcher.respond t complete).Keeps fun reply => reply.response.Orderly s :=
    Dispatcher.respond_keeps fun l hl => hd.responders l hl t complete
  cases h with
  | answered hrun => exact (stays_withReply hkeeps hrun).trans (stays_holding _ _)
  | unsupported hrun => exact stays_withReply hkeeps hrun
  | failed hrun => exact stays_withReply hkeeps hrun

theorem Granting.storing {P : String → Prop} {fields : Params} {completion : Completion σ}
    {r : Except Fault Outcome} (h : Granting s t fields completion v r v') :
    Storing s k P v r v' := by
  cases h with
  | decided => exact .kept nofun (stays_holding v t)
  | responded _ hr =>
    exact .kept nofun (((stays_holding v _).trans (stays_tally _ _)).trans (hr.stays hd))
  | failed _ hr =>
    exact .kept nofun (((stays_holding v _).trans (stays_tally _ _)).trans (hr.stays hd))

theorem Trying.storing (hs : s.store = k.store) {immediate : Immediate σ}
    {completion : Completion σ} {r : Except Fault Outcome}
    (h : Trying s immediate completion t v r v') :
    Storing s k (· = k.nextId s.options v.world) v r v' := by
  cases h with
  | failed => exact .kept nofun ((stays_withHost v _).trans (stays_holding _ _))
  | granted _ _ hgrant => exact (hgrant.storing hd).after (stays_withHost v _)
  | deferred _ _ hsuspend => exact (hsuspend.storing hs).after (stays_withHost v _)

theorem Authorizing.storing (hs : s.store = k.store) {c : AuthorizationCallbacks σ}
    {r : Except Fault Outcome} (h : Authorizing s c v r v') :
    Storing s k (· = k.nextId s.options v.world) v r v' := by
  cases h with
  | refused hn =>
    obtain ⟨host, rfl⟩ := (newTransaction_cases hn).withHost
    exact .kept nofun (stays_withHost v host)
  | invalid hn hv =>
    obtain ⟨host, rfl⟩ := (newTransaction_cases hn).withHost
    have hstays : Stays s k (v.withHost host) v' := by
      cases hv with
      | failed => exact (stays_withHost _ _).trans (stays_holding _ _)
      | unauthorized => exact (stays_withHost _ _).trans (stays_holding _ _)
    exact .kept nofun ((stays_withHost v host).trans hstays)
  | asked hn hv _ hsuspend =>
    obtain ⟨host, rfl⟩ := (newTransaction_cases hn).withHost
    cases hv with
    | passed =>
      exact (hsuspend.storing hs).after ((stays_withHost v host).trans (stays_withHost _ _))
  | tried hn hv _ htry =>
    obtain ⟨host, rfl⟩ := (newTransaction_cases hn).withHost
    cases hv with
    | passed =>
      exact (htry.storing hd hs).after ((stays_withHost v host).trans (stays_withHost _ _))

theorem authorize_storing (hs : s.store = k.store) {c : AuthorizationCallbacks σ}
    {r : Except Fault Outcome} (h : (s.authorize c).run v = (r, v')) :
    Storing s k (· = k.nextId s.options v.world) v r v' := by
  obtain ⟨v₁, m, hx, rfl⟩ := counted_cases h
  exact ((runAuthorization_cases hx).storing hd hs).withMetrics m

theorem GrantingStored.storing {P : String → Prop} {fields : Params} {completion : Completion σ}
    {r : Except Fault Outcome} (h : GrantingStored s t fields completion v r v') :
    Storing s k P v r v' := by
  have hpending : ∀ id, r ≠ .ok (.pending id) := fun id => h.ne_pending
  cases h with
  | decided => exact .kept hpending (Stays.refl v)
  | answered _ hr => exact .kept hpending ((stays_granted _ v).trans (hr.stays hd))

theorem resume_storing (hs : s.store = k.store) {immediate : Immediate σ}
    {completion : Completion σ} {r : Except Fault Outcome}
    (h : (s.resume immediate completion).run v = (r, v')) :
    Storing s k (fun _ => True) v r v' := by
  obtain ⟨v₁, m, hx, rfl⟩ := counted_cases h
  have hcases := runResume_cases hx
  refine Storing.withMetrics ?_ m
  cases hcases with
  | unloaded => exact .kept nofun (Stays.refl v)
  | @failed t _ host => exact .kept nofun ((stays_reconsidered t v).trans (stays_withHost _ host))
  | @granted t _ host _ _ _ _ _ hgrant =>
    exact (hgrant.storing hd).after
      (((stays_reconsidered t v).trans (stays_withHost _ host)).trans (stays_holding _ _))
  | @deferred t _ host _ _ _ _ _ hsuspend =>
    exact (hsuspend.storing hs).after
      (((stays_reconsidered t v).trans (stays_withHost _ host)).trans (stays_holding _ _))

theorem decide_stays {o : DecisionOptions} {c : DecisionCallbacks σ} {r : Except Fault Unit}
    (h : (s.decide o c).run v = (r, v')) : Stays s k v v' := by
  obtain ⟨v₁, m, hx, rfl⟩ := counted_cases h
  have hrecording : ∀ {r v₂}, Recording s v r v₂ → Stays s k v v₂ := by
    intro r v₂ hrec
    cases hrec with
    | refused host => exact stays_withHost v host
    | decidedBefore => exact (stays_withHost v _).trans (stays_holding _ _)
    | recorded => exact ((stays_withHost v _).trans (stays_holding _ _)).trans (stays_tally _ _)
  refine Moves.trans ?_ (stays_withMetrics v₁ m)
  cases runDecision_cases hx with
  | unrecorded hrec => exact hrecording hrec
  | answered hrec _ hr => exact ((hrecording hrec).trans (stays_arm _)).trans (hr.stays hd)

theorem redirectError_stays {e : OAuthError} {r : Except Fault Unit}
    (h : (s.redirectError e).run v = (r, v')) : Stays s k v v' := by
  cases redirectError_cases h with
  | absent => exact Stays.refl v
  | @handed t _ _ _ hrun =>
    have hkeeps : (s.dispatcher.respondError e t).Keeps fun reply => reply.response.Orderly s :=
      Dispatcher.respondError_keeps (fun l hl e => hd.errorResponders l hl e t) e
    exact (stays_arm v).trans (stays_withReply hkeeps hrun)

theorem token_stays {r : Except Fault Unit} (h : s.token.run v = (r, v')) : Stays s k v v' := by
  obtain ⟨flow, reply, m, hrun, rfl⟩ := token_cases h
  have hkeeps : (s.dispatcher.exchange (v.request.bodyText? "grant_type") v.request).Keeps
      fun reply => reply.response.Orderly s :=
    Dispatcher.exchange_keeps (fun l hl => hd.exchanges l hl v.request) _
  exact (stays_withReply hkeeps hrun).trans (stays_withMetrics _ m)

/-! ## A call -/

/-- What a call did to the stored transactions, by how it ended. An authorization uses the id that
was to be drawn next. A crash of a hook of the host may come before the removal. -/
def Effect (s : Server σ) (k : Shelf) (c : Call σ) (v : Visit σ) (r : Except Fault (Option Outcome))
    (before after : String → Option Stored) : Prop :=
  match c, r with
  | .authorize _, .ok (some (.pending id)) =>
    id = k.nextId s.options v.world ∧ ∃ x, after = Function.update before id (some x)
  | .resume _ _, .ok (some (.pending id)) => ∃ x, after = Function.update before id (some x)
  | .load, r =>
    match s.deauthorized v with
    | some id => r = .error (.error .unauthorizedClient) ∧ after = Function.update before id none
    | none => after = before
  | .finish, r =>
    match v.due with
    | some id => after = Function.update before id none ∨ r = .error .crash ∧ after = before
    | none => after = before
  | _, _ => after = before

theorem authorize_effect (hs : s.store = k.store) {c : AuthorizationCallbacks σ}
    {r : Except Fault Outcome} (htidy : s.Tidy v) (h : (s.authorize c).run v = (r, v')) :
    s.Tidy v' ∧
      Effect s k (.authorize c) v (r.map some) (k.held s.options v) (k.held s.options v') := by
  cases authorize_storing hd hs h with
  | put hid _ _ hmoves =>
    obtain ⟨htidy', hheld⟩ := hmoves htidy
    exact ⟨htidy', hid, _, hheld⟩
  | kept hr hstays =>
    obtain ⟨htidy', hheld⟩ := hstays htidy
    refine ⟨htidy', ?_⟩
    rcases r with e | _ | _
    · exact hheld
    · exact absurd rfl (hr _)
    · exact hheld

theorem resume_effect (hs : s.store = k.store) {immediate : Immediate σ} {completion : Completion σ}
    {r : Except Fault Outcome} (htidy : s.Tidy v)
    (h : (s.resume immediate completion).run v = (r, v')) :
    s.Tidy v' ∧
      Effect s k (.resume immediate completion) v (r.map some) (k.held s.options v)
        (k.held s.options v') := by
  cases resume_storing hd hs h with
  | put _ _ _ hmoves =>
    obtain ⟨htidy', hheld⟩ := hmoves htidy
    exact ⟨htidy', _, hheld⟩
  | kept hr hstays =>
    obtain ⟨htidy', hheld⟩ := hstays htidy
    refine ⟨htidy', ?_⟩
    rcases r with e | _ | _
    · exact hheld
    · exact absurd rfl (hr _)
    · exact hheld

omit hd in
theorem load_effect (hs : s.store = k.store) {r : Except Fault Unit} (htidy : s.Tidy v)
    (h : s.loadTransaction.run v = (r, v')) :
    s.Tidy v' ∧
      Effect s k .load v (r.map fun _ => none) (k.held s.options v) (k.held s.options v') := by
  unfold Effect
  rcases (loadTransaction_cases h).moves hs with ⟨hnone, hstays⟩ | ⟨id, hsome, hmoves, hr⟩
  · obtain ⟨htidy', hheld⟩ := hstays htidy
    refine ⟨htidy', ?_⟩
    simp only [hnone]
    exact hheld
  · obtain ⟨htidy', hheld⟩ := hmoves htidy
    refine ⟨htidy', ?_⟩
    simp only [hsome]
    exact ⟨by rw [hr htidy]; rfl, hheld⟩

omit hd in
theorem finish_effect (hs : s.store = k.store) {r : Except Fault Unit} (htidy : s.Tidy v)
    (h : Visit.finish.run v = (r, v')) :
    s.Tidy v' ∧
      Effect s k .finish v (r.map fun _ => none) (k.held s.options v) (k.held s.options v') := by
  obtain ⟨htidy', hheld⟩ := finish_moves hs h htidy
  refine ⟨htidy', ?_⟩
  unfold Effect
  rcases hdue : v.due with _ | id <;> rw [hdue] at hheld
  · exact hheld
  · rcases hheld with hheld | ⟨rfl, hheld⟩
    · exact .inl hheld
    · exact .inr ⟨rfl, hheld⟩

/-- A call on a tidy visit leaves a tidy visit, and does to the store what it may. -/
theorem call_effect (hs : s.store = k.store) {c : Call σ} (hc : c.Orderly s)
    {r : Except Fault (Option Outcome)} (htidy : s.Tidy v) (h : (c.run s).run v = (r, v')) :
    s.Tidy v' ∧ Effect s k c v r (k.held s.options v) (k.held s.options v') := by
  cases c with
  | authorize cb =>
    obtain ⟨_, hrun, rfl⟩ := Step.map_cases h
    exact authorize_effect hd hs htidy hrun
  | load =>
    obtain ⟨_, hrun, rfl⟩ := Step.map_cases h
    exact load_effect hs htidy hrun
  | resume immediate completion =>
    obtain ⟨_, hrun, rfl⟩ := Step.map_cases h
    exact resume_effect hd hs htidy hrun
  | decide o cb =>
    obtain ⟨_, hrun, rfl⟩ := Step.map_cases h
    exact decide_stays hd hrun htidy
  | redirectError e =>
    obtain ⟨_, hrun, rfl⟩ := Step.map_cases h
    exact redirectError_stays hd hrun htidy
  | renderError renderer e =>
    obtain ⟨_, hrun, rfl⟩ := Step.map_cases h
    exact render_stays hc hrun htidy
  | token =>
    obtain ⟨_, hrun, rfl⟩ := Step.map_cases h
    exact token_stays hd hrun htidy
  | finish =>
    obtain ⟨_, hrun, rfl⟩ := Step.map_cases h
    exact finish_effect hs htidy hrun

/-! ## Any run -/

theorem tidy_of_reachable (hs : s.store = k.store) {T : Traffic σ} (hT : Reachable s T) (i : Nat) :
    s.Tidy (T.visit i) := by
  have hput : ∀ {T : Traffic σ} {i : Nat} {v : Visit σ}, (∀ j, s.Tidy (T.visit j)) → s.Tidy v →
      ∀ j, s.Tidy ((T.put i v).visit j) := by
    intro T i v hall hv j
    by_cases hj : j = i
    · subst hj
      rw [Traffic.visit_put]
      exact hv
    · rw [Traffic.visit_put_ne T hj]
      exact hall j
  induction hT generalizing i with
  | start hfresh => exact ⟨(hfresh i).1, Response.orderly_of_nil (hfresh i).2⟩
  | arrive _ _ hdistinct hnil ih => exact hput ih ⟨hdistinct, Response.orderly_of_nil hnil⟩ i
  | @work T request response hooks j host _ hsession hhooks hquiet ih =>
    refine hput ih ⟨?_, ?_⟩ i
    · intro session records hr
      rw [hsession] at hr
      exact (ih j).1 session records hr
    · refine ⟨fun hook hmem => ?_, ?_⟩
      · rw [hhooks] at hmem
        rcases List.mem_append.1 hmem with hmem | hmem
        · exact (ih j).2.hooks hook hmem
        · exact .inl (hquiet hook hmem)
      · rw [hhooks, removals_append, removals_of_quiet hquiet, List.append_nil]
        exact (ih j).2.single
  | call j _ hc ih => exact hput ih (call_effect hd hs hc (ih j) rfl).1 i

end Handlers

/-- Whatever came before, a call changes the stored transactions only as its end tells. The id that
an authorization reports is added, if the ids drawn are new. With sessions the other pairs keep
what they have; a memory is shared by all of them. -/
theorem stored_changes (hs : s.store = k.store) (hd : s.dispatcher.Keeps fun r => r.Orderly s)
    {T T' : Traffic σ} {i : Nat} {c : Call σ} {r : Except Fault (Option Outcome)}
    (hT : Reachable s T) (hc : c.Orderly s) (h : T.call s i c = (r, T'))
    (hfresh : ∀ cb, c = .authorize cb →
      k.held s.options (T.visit i) (k.nextId s.options T.world) = none) :
    Effect s k c (T.visit i) r (k.held s.options (T.visit i)) (k.held s.options (T'.visit i)) ∧
      (∀ cb id, c = .authorize cb → r = .ok (some (.pending id)) →
        k.held s.options (T.visit i) id = none) ∧
      ∀ j ≠ i, k = .session → k.held s.options (T'.visit j) = k.held s.options (T.visit j) := by
  rcases hrun : (c.run s).run (T.visit i) with ⟨r₁, v'⟩
  rw [Traffic.call, hrun, Prod.mk.injEq] at h
  obtain ⟨rfl, rfl⟩ := h
  have heffect := (call_effect hd hs hc (tidy_of_reachable hd hs hT i) hrun).2
  refine ⟨?_, ?_, ?_⟩
  · rw [Traffic.visit_put]
    exact heffect
  · rintro cb id rfl rfl
    obtain ⟨rfl, -⟩ := heffect
    exact hfresh cb rfl
  · rintro j hj rfl
    rw [Traffic.visit_put_ne T hj]
    rfl

/-- Every request asks for a code, and nothing is stored yet. -/
def calm : Traffic Unit := ⟨fun _ => (asking.request, .empty), asking.world⟩

/-- After the first authorization of a plain server with one memory. -/
def busy : Traffic Unit := (calm.call (plain (.memory 0 none)) 3 (.authorize trusting)).2

theorem calm_stored_changes : ∃ id x,
    (Shelf.memory 0).held .standard (calm.visit 3) id = none ∧
      (Shelf.memory 0).held .standard (busy.visit 3) =
        Function.update ((Shelf.memory 0).held .standard (calm.visit 3)) id (some x) := by
  have hd : (plain (.memory 0 none)).dispatcher.Keeps fun r => r.Orderly (plain (.memory 0 none)) :=
    ⟨nofun, nofun, nofun⟩
  have hstart : Reachable (plain (.memory 0 none)) calm := by
    refine .start fun i => ⟨?_, rfl⟩
    intro session records hsession hrecords
    cases hsession
    cases hrecords
  have hcall : calm.call (plain (.memory 0 none)) 3 (.authorize trusting) =
      (.ok (some (.pending "00000000000000000000000000000000")), busy) := rfl
  obtain ⟨⟨-, x, hx⟩, hnew, -⟩ :=
    stored_changes (k := .memory 0) (c := .authorize trusting) rfl hd hstart trivial hcall
      fun _ _ => rfl
  exact ⟨_, x, hnew trusting _ rfl rfl, hx⟩

end Server

end AuthServer

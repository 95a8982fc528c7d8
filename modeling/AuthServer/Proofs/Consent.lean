import AuthServer.Proofs.Endpoint.Authorization
import AuthServer.Proofs.Endpoint.Loading
import AuthServer.Proofs.Endpoint.Resume
import AuthServer.Proofs.Parsing
import AuthServer.Proofs.Store.Shelf

/-!
# Waiting for consent

A transaction that is suspended and resumed, any number of times, is loaded
each time as it was left. A memory keeps the transaction itself; a session
keeps a record of it, with the client in its stored form.
-/

namespace AuthServer

open Json Store

variable {σ : Type}

namespace Server

variable {s : Server σ} {k : Shelf} {id : String} {u v v' : Visit σ} {t : Transaction}

/-! ## What a shelf holds -/

/-- The shelf holds `t` under `id`, and the host is in the state in which it was put there. -/
inductive Kept (s : Server σ) (id : String) (t : Transaction) (v : Visit σ) : Shelf → Prop where
  | memory {number : Nat} : (v.world.memories number).value? id = some t → Kept s id t v (.memory number)
  | session {client stored : Value} {host : σ} :
    t.client = some client →
    (s.clients.write client).run host = (.ok stored, v.world.host) →
    v.request.recordAt? s.options.sessionKey id =
      some { t with id := none, client := some stored }.toValue →
    Kept s id t v .session

theorem kept_of_storeNew (hs : s.store = k.store) (hl : k = .session → 0 < s.options.idLength)
    (hc : t.client.isSome) (h : (s.storeNew t).run v = (.ok id, v')) : Kept s id t v' k ∧ id ≠ "" := by
  cases k with
  | memory number =>
    rw [storeNew_memory hs] at h
    cases h
    refine ⟨.memory ?_, Supply.peek_ne_empty _ (by decide)⟩
    simp [Visit.withMemory]
  | session =>
    obtain ⟨host, ⟨-, e, he⟩ | ⟨session, record, hsession, hrec, hid, rfl⟩⟩ := storeNew_session_cases hs h
    · cases he
    · cases hid
      refine ⟨?_, Supply.peek_ne_empty _ (hl rfl)⟩
      cases hrec with
      | bare hnone => rw [hnone] at hc; cases hc
      | written hclient hwrite =>
        exact .session hclient hwrite ((recordAt?_putRecord _ hsession _ _ _ _).trans (if_pos rfl))

theorem kept_of_storeAgain (hs : s.store = k.store) (hc : t.client.isSome) {id' : String}
    (h : (s.storeAgain id t).run v = (.ok id', v')) : id' = id ∧ Kept s id t v' k := by
  cases k with
  | memory number =>
    rw [storeAgain_memory hs] at h
    cases h
    exact ⟨rfl, .memory (by simp [Visit.withMemory])⟩
  | session =>
    obtain ⟨host, ⟨-, e, he⟩ | ⟨session, record, hsession, hrec, hid, rfl⟩⟩ := storeAgain_session_cases hs h
    · cases he
    · cases hid
      refine ⟨rfl, ?_⟩
      cases hrec with
      | bare hnone => rw [hnone] at hc; cases hc
      | written hclient hwrite =>
        exact .session hclient hwrite ((recordAt?_putRecord _ hsession _ _ _ _).trans (if_pos rfl))

theorem Kept.congr (h : Kept s id t v k) (hmemories : v'.world.memories = v.world.memories)
    (hsession : v'.request.session = v.request.session) (hhost : v'.world.host = v.world.host) :
    Kept s id t v' k := by
  cases h with
  | memory ht => exact .memory (by rw [hmemories, ht])
  | session hc hw hr =>
    refine .session hc (by rw [hhost, hw]) ?_
    rw [← hr]
    unfold Request.recordAt?
    rw [hsession]

/-! ## Pending transactions -/

end Server

namespace Transaction

variable {t : Transaction} {id : String}

/-- Suspended under `id`, with everything that a record keeps. -/
structure Pending (t : Transaction) (id : String) : Prop where
  named : t.id = some id
  phase : t.phase = .persisted
  unarmed : t.removalArmed = false
  client : t.client.isSome
  storable : t.Storable

theorem Pending.persisted_eq (h : t.Pending id) : t.persisted id = t := by
  have hphase : (if t.phase.rank < Phase.persisted.rank then .persisted else t.phase) = t.phase := by
    rw [h.phase]
    rfl
  unfold persisted
  rw [hphase, ← h.named]

theorem Pending.of_persisted (h : (t.persisted id).Pending id) :
    t.persisted id = { t with id := some id, phase := .persisted, removalArmed := false } := by
  have hphase : (if t.phase.rank < Phase.persisted.rank then .persisted else t.phase) = .persisted :=
    h.phase
  have hunarmed : t.removalArmed = false := h.unarmed
  unfold persisted
  rw [hphase, ← hunarmed]

theorem Pending.defer (h : t.Pending id) {user : Option Value} (hu : user ≠ some .null)
    (locals locals' info : Option Params) :
    ((({ t with user }.mergeLocals locals).mergeLocals locals').withInfo info).Pending id where
  named := h.named
  phase := h.phase
  unarmed := h.unarmed
  client := h.client
  storable := ⟨h.storable.words, h.storable.untyped, hu, h.storable.undecided⟩

/-- Ready to be suspended for the first time. -/
structure Unstored (t : Transaction) : Prop where
  unnamed : t.id = none
  phase : t.phase = .clientValidated
  unarmed : t.removalArmed = false
  client : t.client.isSome
  storable : t.Storable

theorem Unstored.pending (h : t.Unstored) (id : String) : (t.persisted id).Pending id where
  named := rfl
  phase := by rw [persisted, h.phase]; rfl
  unarmed := h.unarmed
  client := h.client
  storable := h.storable.of_eq rfl rfl rfl

theorem Unstored.defer (h : t.Unstored) (locals info : Option Params) :
    ((t.mergeLocals locals).withInfo info).Unstored where
  unnamed := h.unnamed
  phase := h.phase
  unarmed := h.unarmed
  client := h.client
  storable := h.storable.of_eq rfl rfl rfl

end Transaction

namespace Server

variable {s : Server σ} {k : Shelf} {id : String} {u v v' : Visit σ} {t : Transaction}

/-- The request of `v` carries a transaction that is pending under `id` and kept on the shelf. -/
structure Waiting (s : Server σ) (k : Shelf) (id : String) (v : Visit σ) (t : Transaction) : Prop where
  held : v.request.transaction = some t
  pending : t.Pending id
  kept : ∃ t₀ : Transaction, t₀.persisted id = t ∧ Kept s id t₀ v k
  nonempty : id ≠ ""

theorem Waiting.withMetrics (h : Waiting s k id v t) (m : Metrics) :
    Waiting s k id (v.withMetrics m) t := by
  obtain ⟨t₀, ht, hk⟩ := h.kept
  exact ⟨h.held, h.pending, ⟨t₀, ht, hk.congr rfl rfl rfl⟩, h.nonempty⟩

/-! ## Suspension -/

theorem responseType_isWord {req : Request} {type : TypeSet} (h : responseType req = .ok type) :
    ∀ w ∈ type.tokens, Text.IsWord w := by
  unfold responseType at h
  rcases ht : req.text? "response_type" with _ | text <;> rw [ht] at h
  · cases h
  · rw [Option.map_some, Option.filter_some] at h
    cases hempty : (TypeSet.parse text).isEmpty <;> rw [hempty] at h <;> cases h
    exact fun w hw => Text.isWord_of_mem_words hw

theorem Suspending.waiting (hs : s.store = k.store)
    (hl : k = .session → 0 < s.options.idLength) (ht : t.Unstored)
    (h : Suspending s t v (.ok (.pending id)) v') : Waiting s k id v' (t.persisted id) := by
  cases h with
  | stored hstore =>
    obtain ⟨hkept, hne⟩ := kept_of_storeNew hs hl ht.client hstore
    refine ⟨by rw [tally_request]; rfl, ht.pending id, ⟨t, rfl, ?_⟩, hne⟩
    exact hkept.congr (tally_memories s _ _) (by rw [tally_request]; rfl) (tally_host s _ _)

theorem unstored_of_validating {c : AuthorizationCallbacks σ} {t' : Transaction} {v₁ v₂ : Visit σ}
    (hp : s.dispatcher.ParsesMaps)
    (hprincipal : v.request.principal? s.options.userProperty ≠ some .null)
    (hn : s.newTransaction.run v = (.ok t, v₁)) (hv : Validating c t v₁ (.ok t') v₂) :
    t'.Unstored := by
  have hbegun := newTransaction_cases hn
  generalize hr : (Except.ok t : Except Fault Transaction) = r at hbegun
  cases hbegun with
  | refused => cases hr
  | begun htype hparse =>
    cases hr
    obtain ⟨huntyped, hrequested⟩ := Dispatcher.parse_untyped hp hparse
    cases hv with
    | passed =>
      refine ⟨rfl, rfl, rfl, rfl, ⟨?_, huntyped, hprincipal, rfl⟩⟩
      have hwords := responseType_isWord htype
      rw [← hrequested] at hwords
      exact hwords

theorem waiting_of_authorize {c : AuthorizationCallbacks σ} (hs : s.store = k.store)
    (hl : k = .session → 0 < s.options.idLength) (hp : s.dispatcher.ParsesMaps)
    (hprincipal : v.request.principal? s.options.userProperty ≠ some .null)
    (h : (s.authorize c).run v = (.ok (.pending id), v')) : ∃ t, Waiting s k id v' t := by
  obtain ⟨v₁, m, hx, rfl⟩ := counted_cases h
  suffices ∃ t, Waiting s k id v₁ t from this.imp fun _ hw => hw.withMetrics m
  have hcases := runAuthorization_cases hx
  cases hcases with
  | asked hn hv _ hsuspend =>
    exact ⟨_, hsuspend.waiting hs hl (unstored_of_validating hp hprincipal hn hv)⟩
  | tried hn hv _ htry =>
    cases htry with
    | granted _ _ hgrant => cases hgrant
    | deferred _ _ hsuspend =>
      exact ⟨_, hsuspend.waiting hs hl ((unstored_of_validating hp hprincipal hn hv).defer _ _)⟩

/-! ## Suspension again -/

theorem waiting_of_resume {immediate : Immediate σ} {completion : Completion σ} {id' : String}
    (hs : s.store = k.store) (hne : id ≠ "") (ht : v.request.transaction = some t)
    (hpending : t.Pending id)
    (hprincipal : v.request.principal? s.options.userProperty ≠ some .null)
    (h : (s.resume immediate completion).run v = (.ok (.pending id'), v')) :
    id' = id ∧ ∃ t', Waiting s k id v' t' := by
  obtain ⟨v₁, m, hx, rfl⟩ := counted_cases h
  suffices id' = id ∧ ∃ t', Waiting s k id v₁ t' from ⟨this.1, this.2.imp fun _ hw => hw.withMetrics m⟩
  have hcases := runResume_cases hx
  cases hcases with
  | granted _ _ _ hgrant => exact absurd rfl hgrant.ne_pending
  | @deferred t₁ verdict _ _ _ ht' _ _ hsuspend =>
    rw [ht] at ht'
    cases ht'
    have hp' : (((s.renewed t v).mergeLocals verdict.locals).withInfo verdict.info).Pending id :=
      hpending.defer hprincipal _ _ _
    cases hsuspend with
    | stored hput =>
      rw [putBack, hp'.named] at hput
      obtain ⟨rfl, hkept⟩ := kept_of_storeAgain hs hp'.client hput
      refine ⟨rfl, _, ⟨rfl, ?_, ⟨_, rfl, hkept.congr rfl rfl rfl⟩, hne⟩⟩
      rw [hp'.persisted_eq]
      exact hp'

/-! ## Loading again -/

/-- `v` is a new request that names `id`, and the shelf holds under `id` what it held after `u`. -/
structure Follows (s : Server σ) (k : Shelf) (id : String) (u v : Visit σ) : Prop where
  fresh : v.request.transaction = none
  named : v.request.text? s.options.field = some id
  kept : match k with
    | .memory number => (v.world.memories number).value? id = (u.world.memories number).value? id
    | .session => v.request.session = u.request.session

theorem Follows.idParam (h : Follows s k id u v) (hne : id ≠ "") :
    idParam s.options v.request = .ok id := by
  unfold Store.idParam
  rw [h.named, Option.filter_some, if_pos (by simpa using hne)]

/-- What the transaction `t` left by `u` is loaded as in `v`: in a session the client is read anew. -/
def Reloaded (s : Server σ) (u v : Visit σ) (t : Transaction) (host : σ) (t' : Transaction) :
    Shelf → Prop
  | .memory _ => t' = t
  | .session => ∃ client stored client' written,
    t.client = some client ∧
    (s.clients.write client).run written = (.ok stored, u.world.host) ∧
    (s.clients.read stored).run v.world.host = (.ok client', host) ∧
    t' = { t with client := client' }

theorem Waiting.load_memory {number : Nat} (hs : s.store = .memory number none)
    (hw : Waiting s (.memory number) id u t) (hf : Follows s (.memory number) id u v) :
    s.load.run v = (.ok t, v) := by
  obtain ⟨t₀, rfl, hkept⟩ := hw.kept
  cases hkept with
  | memory ht =>
    rw [Server.load_memory hs (hf.idParam hw.nonempty), kept_none, hf.kept, ht]

theorem Waiting.load_session (hs : s.store = .session) (hw : Waiting s .session id u t)
    (hf : Follows s .session id u v) {t' : Transaction} (h : s.load.run v = (.ok t', v')) :
    v' = v.withHost v'.world.host ∧ Reloaded s u v t v'.world.host t' .session := by
  obtain ⟨host, rfl, ⟨e, he⟩ | ⟨id', record, t₁, client', hid, hrecord, hread, hrecalled, hr⟩⟩ :=
    load_session_cases hs h
  · cases he
  · rw [hf.idParam hw.nonempty] at hid
    cases hid
    cases hr
    refine ⟨rfl, ?_⟩
    obtain ⟨t₀, rfl, hkept⟩ := hw.kept
    cases hkept with
    | @session client stored written hclient hwrite hat =>
      rw [Request.recordAt?, hf.kept, ← Request.recordAt?, hat] at hrecord
      cases hrecord
      have hstorable : t₀.Storable := hw.pending.storable.of_eq rfl rfl rfl
      rw [ofRecord_toValue, hstorable.reread_eq (ClientForms.write_ne_null hwrite)] at hread
      cases hread
      cases hrecalled with
      | read hrun =>
        refine ⟨client, stored, client', written, hclient, hwrite, hrun, ?_⟩
        rw [hw.pending.of_persisted]
        rfl

theorem Waiting.loaded (hs : s.store = k.store) (hw : Waiting s k id u t)
    (hf : Follows s k id u v) (h : s.loadTransaction.run v = (.ok (), v')) :
    ∃ t', v'.request.transaction = some t' ∧ t'.client.isSome ∧
      Reloaded s u v t v'.world.host t' k := by
  obtain ⟨t', v₁, m, hload, hclient, rfl⟩ := loaded_of_ok hf.fresh h
  refine ⟨t', rfl, hclient, ?_⟩
  cases k with
  | memory number =>
    rw [hw.load_memory hs hf] at hload
    cases hload
    rfl
  | session => exact (hw.load_session hs hf hload).2

theorem Reloaded.pending {host : σ} {t' : Transaction} (hr : Reloaded s u v t host t' k)
    (h : t.Pending id) (hclient : t'.client.isSome) : t'.Pending id := by
  cases k with
  | memory number => rw [hr]; exact h
  | session =>
    obtain ⟨_, _, client', _, _, _, _, rfl⟩ := hr
    exact ⟨h.named, h.phase, h.unarmed, hclient, h.storable.of_eq rfl rfl rfl⟩

/-! ## Any number of deferrals -/

/-- A visit that left a transaction pending under `id`: where it was authorized, or where it was
resumed after it had been loaded. In between the host may change all but the loaded transaction. -/
inductive Suspended (s : Server σ) (k : Shelf) (id : String) : Visit σ → Prop where
  | authorized {c : AuthorizationCallbacks σ} {v v' : Visit σ} :
    v.request.principal? s.options.userProperty ≠ some .null →
    (s.authorize c).run v = (.ok (.pending id), v') → Suspended s k id v'
  | deferred {immediate : Immediate σ} {completion : Completion σ} {u v v₁ v₂ v' : Visit σ} :
    Suspended s k id u → Follows s k id u v →
    s.loadTransaction.run v = (.ok (), v₁) →
    v₂.request.transaction = v₁.request.transaction →
    v₂.request.principal? s.options.userProperty ≠ some .null →
    (s.resume immediate completion).run v₂ = (.ok (.pending id), v') → Suspended s k id v'

theorem Suspended.waiting (hs : s.store = k.store) (hl : k = .session → 0 < s.options.idLength)
    (hp : s.dispatcher.ParsesMaps) (h : Suspended s k id v) : ∃ t, Waiting s k id v t := by
  induction h with
  | authorized hprincipal hauthorize => exact waiting_of_authorize hs hl hp hprincipal hauthorize
  | deferred _ hf hload hkeep hprincipal hresume ih =>
    obtain ⟨t, hw⟩ := ih
    obtain ⟨t', ht', hclient, hreloaded⟩ := hw.loaded hs hf hload
    exact (waiting_of_resume hs hw.nonempty (hkeep.trans ht') (hreloaded.pending hw.pending hclient)
      hprincipal hresume).2

/-- What is pending is loaded as it was left, after any number of deferrals. A memory gives all of
it back, and always; a session gives back what its client readers make of the stored client. -/
theorem suspended_reload (hs : s.store = k.store) (hl : k = .session → 0 < s.options.idLength)
    (hp : s.dispatcher.ParsesMaps) (hu : Suspended s k id u) (hf : Follows s k id u v)
    {r : Except Fault Unit} (h : s.loadTransaction.run v = (r, v')) :
    ∃ t, u.request.transaction = some t ∧
      t.id = some id ∧ t.decision = none ∧ t.phase = .persisted ∧
      match k with
      | .memory _ => r = .ok () ∧ v'.request.transaction = some t
      | .session => r = .ok () → ∃ client stored client' written,
        t.client = some client ∧
        (s.clients.write client).run written = (.ok stored, u.world.host) ∧
        (s.clients.read stored).run v.world.host = (.ok (some client'), v'.world.host) ∧
        v'.request.transaction = some { t with client := some client' } := by
  obtain ⟨t, hw⟩ := hu.waiting hs hl hp
  refine ⟨t, hw.held, hw.pending.named, hw.pending.storable.undecided, hw.pending.phase, ?_⟩
  cases k with
  | memory number =>
    obtain rfl := loads_of_client (hw.load_memory hs hf) hw.pending.client h
    obtain ⟨t', ht', -, rfl⟩ := hw.loaded hs hf h
    exact ⟨rfl, ht'⟩
  | session =>
    rintro rfl
    obtain ⟨t', ht', hclient, client, stored, client', written, hc, hwrite, hread, rfl⟩ :=
      hw.loaded hs hf h
    obtain ⟨client', rfl⟩ := Option.isSome_iff_exists.1 hclient
    exact ⟨client, stored, client', written, hc, hwrite, hread, ht'⟩

/-! ## One deferral -/

theorem plain_parsesMaps (store : Store Unit) : (plain store).dispatcher.ParsesMaps := by
  intro l hl req host fields host' h
  obtain rfl : l = Layer.ofType "code" fun _ => pure [] := List.mem_singleton.1 hl
  cases h
  exact List.nodup_nil

/-- The first id that a session is given. -/
def firstId : String := "0000000000000000"

def asked : Visit Unit := (((plain .session).authorize trusting).run asking).2

/-- The next request of the same session. -/
def returning (u : Visit Unit) : Visit Unit :=
  ⟨{ Request.empty with
      query := [("transaction_id", .str firstId)], session := u.request.session },
    .empty, u.world⟩

def reloaded (u : Visit Unit) : Visit Unit := ((plain .session).loadTransaction.run (returning u)).2

def deferring : Immediate Unit := fun _ => pure ⟨false, some [("seen", .bool true)], none⟩

def askedAgain : Visit Unit := (((plain .session).resume deferring .none).run (reloaded asked)).2

theorem returning_follows (u : Visit Unit) : Follows (plain .session) .session firstId u (returning u) :=
  ⟨rfl, rfl, rfl⟩

theorem askedAgain_suspended : Suspended (plain .session) .session firstId askedAgain := by
  have hask : ((plain .session).authorize trusting).run asking = (.ok (.pending firstId), asked) := rfl
  have hload : (plain .session).loadTransaction.run (returning asked) = (.ok (), reloaded asked) := rfl
  have hresume : ((plain .session).resume deferring .none).run (reloaded asked) =
      (.ok (.pending firstId), askedAgain) := rfl
  have hnobody : none ≠ some Value.null := nofun
  have hfirst : Suspended (plain .session) .session firstId asked :=
    .authorized (v := asking) hnobody hask
  exact hfirst.deferred (returning_follows asked) hload rfl hnobody hresume

theorem askedAgain_reload : ∃ t client',
    askedAgain.request.transaction = some t ∧ t.id = some firstId ∧
      t.redirectUri = some "https://c1.example/cb" ∧
      (reloaded askedAgain).request.transaction = some { t with client := some client' } := by
  have h : (plain .session).loadTransaction.run (returning askedAgain) =
      (.ok (), reloaded askedAgain) := rfl
  obtain ⟨t, ht, hid, -, -, hreload⟩ :=
    suspended_reload (k := .session) rfl (fun _ => by decide) (plain_parsesMaps .session)
      askedAgain_suspended (returning_follows askedAgain) h
  obtain ⟨_, _, client', _, -, -, -, ht'⟩ := hreload rfl
  refine ⟨t, client', ht, hid, ?_, ht'⟩
  cases ht
  rfl

end Server

end AuthServer

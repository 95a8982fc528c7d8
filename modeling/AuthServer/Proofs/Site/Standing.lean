import AuthServer.Proofs.Endpoint.Error
import AuthServer.Proofs.Endpoint.Token
import AuthServer.Proofs.Site.Waiting

/-!
# What the site keeps between requests

Every transaction in the memory, in the session of a request or in a session of
the host is one that `K` allows to wait there. The endpoints add none but the one
that they suspend; what they take away goes for good.
-/

namespace AuthServer.Site

open Json Store

namespace App

variable {a : App} {K K' : String → Transaction → Prop} {v v' : Visit Issuer}

/-- The records of the pending transactions are those of transactions that may wait. -/
def Filed (a : App) (K : String → Transaction → Prop) (session : Params) : Prop :=
  ∀ records, pending? session a.sessionKey = some records → ∀ m ∈ records,
    ∃ request c uri t, a.Applied request c uri t ∧ K m.1 (t.persisted m.1) ∧ m.2 = c.record t

theorem Filed.mono (hK : ∀ id t, K id t → K' id t) {session : Params} (h : a.Filed K session) :
    a.Filed K' session := by
  intro records hrecords m hm
  obtain ⟨request, c, uri, t, happlied, ht, hrecord⟩ := h records hrecords m hm
  exact ⟨request, c, uri, t, happlied, hK _ _ ht, hrecord⟩

theorem filed_nil : a.Filed K [] := nofun

/-- The transactions within reach may wait, and the response has no hook but removals. -/
structure Standing (a : App) (K : String → Transaction → Prop) (v : Visit Issuer) : Prop where
  memory : ∀ m ∈ v.world.memories 0, K m.1 (m.2.persisted m.1)
  session : ∀ session, v.request.session = some session → a.Filed K session
  hooks : ∀ hook ∈ v.response.hooks, ∃ id, hook = .removal a.server.store a.server.options id

theorem Standing.congr (h : a.Standing K v) (hmemories : v'.world.memories = v.world.memories)
    (hsession : v'.request.session = v.request.session)
    (hhooks : v'.response.hooks = v.response.hooks) : a.Standing K v' :=
  ⟨by rw [hmemories]; exact h.memory, by rw [hsession]; exact h.session,
    by rw [hhooks]; exact h.hooks⟩

theorem Standing.mono (hK : ∀ id t, K id t → K' id t) (h : a.Standing K v) : a.Standing K' v :=
  ⟨fun m hm => hK _ _ (h.memory m hm), fun session hs => (h.session session hs).mono hK, h.hooks⟩

/-! ## The store -/

section Store

variable (ha : a.Installed)
include ha

theorem sessionKey_eq : a.server.options.sessionKey = a.sessionKey := by
  rw [ha.options]
  rfl

/-- A record read back is the transaction it was made of. -/
theorem Applied.reloaded {request : Request} {c : Client} {uri id : String} {t t' : Transaction}
    {client : Option Value} {host host' : Issuer} (happlied : a.Applied request c uri t)
    (hread : ofRecord (c.record t) = .ok t')
    (hrecalled : Server.Recalled a.server.clients host t'.client client host') :
    { t' with client }.persisted id = t.persisted id := by
  have hstored : Value.str c.id ≠ .null := nofun
  rw [Client.record, Server.ofRecord_toValue, happlied.unstored.storable.reread_eq hstored] at hread
  cases hread
  cases hrecalled with
  | read hclient =>
    rw [ha.read_client happlied.listed] at hclient
    cases hclient
    rw [(happlied.unstored.pending id).of_persisted, ← happlied.client]
    rfl

/-- What is loaded was allowed to wait. -/
theorem Standing.load {r : Except Fault Transaction} (h : a.Standing K v)
    (hload : a.server.load.run v = (r, v')) :
    a.Standing K v' ∧ ∀ t, r = .ok t → ∃ id, K id t := by
  obtain hs | ⟨lifetime, hs⟩ := ha.store
  · obtain ⟨host, rfl, ⟨e, rfl⟩ | ⟨id, record, t, client, -, hrecord, hread, hrecalled, rfl⟩⟩ :=
      Server.load_session_cases hs hload
    · exact ⟨h.congr rfl rfl rfl, fun _ => nofun⟩
    · refine ⟨h.congr rfl rfl rfl, ?_⟩
      rintro _ ⟨⟩
      rw [sessionKey_eq ha] at hrecord
      obtain ⟨records, hrecords, hvalue⟩ := Option.bind_eq_some_iff.1 hrecord
      obtain ⟨session, hsession, hpending⟩ := Option.bind_eq_some_iff.1 hrecords
      obtain ⟨request, c, uri, t₀, happlied, hK, rfl⟩ :=
        h.session session hsession records hpending _ (Entries.mem_of_value? hvalue)
      exact ⟨id, happlied.reloaded ha hread hrecalled ▸ hK⟩
  · rcases hid : idParam a.server.options v.request with e | id
    · rw [Server.load_memory_unnamed hs hid] at hload
      cases hload
      exact ⟨h, fun _ => nofun⟩
    · rw [Server.load_memory hs hid] at hload
      rcases ht : (kept lifetime v.world.host (v.world.memories 0)).value? id with _ | t <;> rw [ht] at hload <;>
        cases hload
      · exact ⟨h, fun _ => nofun⟩
      · refine ⟨h, ?_⟩
        rintro _ ⟨⟩
        exact ⟨id, h.memory (id, t) (Entries.mem_of_value? (value?_of_kept ht))⟩

theorem Standing.remove (id : String) : (a.server.remove id).Keeps (a.Standing K) := by
  intro v h
  obtain hs | ⟨lifetime, hs⟩ := ha.store
  · rw [Server.remove_session hs]
    rcases hsession : v.request.session with _ | session
    · exact h
    · refine ⟨h.memory, ?_, h.hooks⟩
      rintro _ ⟨⟩ records hrecords m hm
      have hfiled := h.session session hsession
      rw [sessionKey_eq ha, removeRecord] at hrecords
      rcases hpending : pending? session a.sessionKey with _ | records' <;>
        simp only [hpending, pending?_put] at hrecords
      · cases hrecords
      · cases hrecords
        exact hfiled records' hpending m (Entries.mem_of_mem_swapRemove hm)
  · rw [Server.remove_memory hs]
    refine ⟨fun m hm => ?_, h.session, h.hooks⟩
    simp only [Visit.withMemory, World.memories_setMemory] at hm
    exact h.memory m (List.mem_filter.1 hm).1

/-- A transaction that may wait under the id it gets is stored, and nothing else. -/
theorem Standing.storeNew {request : Request} {c : Client} {uri : String} {t : Transaction}
    {r : Except Fault String} (happlied : a.Applied request c uri t) (h : a.Standing K v)
    (hstore : (a.server.storeNew t).run v = (r, v')) (hK : ∀ id, r = .ok id → K id (t.persisted id)) :
    a.Standing K v' := by
  obtain hs | ⟨lifetime, hs⟩ := ha.store
  · obtain ⟨host, ⟨rfl, e, rfl⟩ | ⟨session, record, hsession, hrecorded, rfl, rfl⟩⟩ :=
      Server.storeNew_session_cases hs hstore
    · exact h.congr rfl rfl rfl
    · refine ⟨h.memory, ?_, h.hooks⟩
      rintro _ ⟨⟩ records hrecords m hm
      have hfiled := h.session session hsession
      rw [sessionKey_eq ha, putRecord, pending?_put] at hrecords
      cases hrecords
      rcases Entries.mem_put hm with rfl | hm
      · refine ⟨request, c, uri, t, happlied, hK _ rfl, ?_⟩
        cases hrecorded with
        | bare hnone => rw [happlied.client] at hnone; cases hnone
        | written hclient hwrite =>
          rw [happlied.client] at hclient
          cases hclient
          rw [ha.write_client] at hwrite
          cases hwrite
          rfl
      · rcases hpending : pending? session a.sessionKey with _ | records' <;> rw [hpending] at hm
        · cases hm
        · exact hfiled records' hpending m hm
  · rw [Server.storeNew_memory hs] at hstore
    cases hstore
    refine ⟨fun m hm => ?_, h.session, h.hooks⟩
    simp only [Visit.withMemory, World.memories_setMemory] at hm
    rcases Entries.mem_put hm with rfl | hm
    · exact hK _ rfl
    · exact h.memory m (mem_of_mem_kept hm)

end Store

/-! ## The endpoints -/

section Endpoints

variable (ha : a.Installed)
include ha

theorem Standing.loadTransaction : a.server.loadTransaction.Keeps (a.Standing K) := by
  intro v h
  rcases hrun : a.server.loadTransaction.run v with ⟨r, v'⟩
  cases Server.loadTransaction_cases hrun with
  | present => exact h
  | failed _ _ hload => exact (h.load ha hload).1.congr rfl rfl rfl
  | loaded _ _ hload => exact (h.load ha hload).1.congr rfl rfl rfl
  | unstored _ _ hload => exact (h.load ha hload).1.congr rfl rfl rfl
  | @removed _ id _ v₁ _ _ _ hload _ _ hremove =>
    have hremoved := Standing.remove ha id v₁ (h.load ha hload).1
    rw [hremove] at hremoved
    exact hremoved.congr rfl rfl rfl
  | @crashed _ id v₁ _ _ _ hload _ _ hremove =>
    have hremoved := Standing.remove ha id v₁ (h.load ha hload).1
    rw [hremove] at hremoved
    exact hremoved.congr rfl rfl rfl

omit ha in
theorem Standing.arm (h : a.Standing K v) : a.Standing K (a.server.arm v) := by
  refine ⟨by rw [Server.arm_world]; exact h.memory, by rw [Server.arm_session]; exact h.session, ?_⟩
  intro hook hmem
  rcases Server.arm_response a.server v with hr | ⟨id, -, hr⟩ <;> rw [hr] at hmem
  · exact h.hooks hook hmem
  · rcases List.mem_append.1 hmem with hmem | hmem
    · exact h.hooks hook hmem
    · exact ⟨id, List.mem_singleton.1 hmem⟩

theorem Standing.responding {completion : Completion Issuer} {t : Transaction}
    {r : Except Fault Unit} (h : a.Standing K v)
    (hrun : Server.Responding a.server completion t v r v') : a.Standing K v' := by
  have hhooks : ∀ {flow reply},
      (a.server.dispatcher.respond t completion).run v.reply = (flow, reply) →
        reply.response.hooks = v.response.hooks := by
    intro flow reply hreply
    have hkeeps := ha.bundled.respond_keeps (redirectable_hooks t.redirectUri v.response.hooks)
      completion v.reply rfl
    rw [hreply] at hkeeps
    exact hkeeps
  cases hrun with
  | answered hreply => exact h.congr rfl rfl (hhooks hreply)
  | unsupported hreply => exact h.congr rfl rfl (hhooks hreply)
  | failed hreply => exact h.congr rfl rfl (hhooks hreply)

theorem Standing.decide (o : DecisionOptions) (c : Server.DecisionCallbacks Issuer) :
    (a.server.decide o c).Keeps (a.Standing K) := by
  intro v h
  rcases hrun : (a.server.decide o c).run v with ⟨r, v'⟩
  obtain ⟨v₁, m, hx, rfl⟩ := Server.counted_cases hrun
  have hrecorded : ∀ {r v₁}, Server.Recording a.server v r v₁ → a.Standing K v₁ := by
    intro r v₁ hrec
    cases hrec with
    | refused => exact h.congr rfl rfl rfl
    | decidedBefore => exact h.congr rfl rfl rfl
    | recorded =>
      refine h.congr ?_ ?_ ?_
      · rw [Server.tally_memories]; rfl
      · rw [Server.tally_request]; rfl
      · rw [Server.tally_response]; rfl
  refine Standing.congr (v := v₁) ?_ rfl rfl rfl
  cases Server.runDecision_cases hx with
  | unrecorded hrec => exact hrecorded hrec
  | answered hrec _ hresponding => exact (hrecorded hrec).arm.responding ha hresponding

theorem Standing.token : a.server.token.Keeps (a.Standing K) := by
  intro v h
  rcases hrun : a.server.token.run v with ⟨r, v'⟩
  obtain ⟨flow, reply, m, hreply, rfl⟩ := Server.token_cases hrun
  have hsettled : Response.Settled fun r : Response Issuer => r.hooks = v.response.hooks :=
    fun _ _ hhooks _ hr => hhooks.trans hr
  have hkeeps := Dispatcher.exchange_keeps (P := fun reply => reply.response.hooks = v.response.hooks)
    (fun l hl => (ha.bundled_exchanges l hl).keeps hsettled v.request)
    (v.request.bodyText? "grant_type") v.reply rfl
  rw [hreply] at hkeeps
  exact h.congr rfl rfl hkeeps

theorem Standing.redirectError (e : OAuthError) :
    (a.server.redirectError e).Keeps (a.Standing K) := by
  intro v h
  rcases hrun : (a.server.redirectError e).run v with ⟨r, v'⟩
  cases Server.redirectError_cases hrun with
  | absent => exact h
  | @handed t _ _ _ hreply =>
    have hkeeps := ha.bundled.respondError_keeps
      (redirectable_hooks t.redirectUri (a.server.arm v).response.hooks) e (a.server.arm v).reply rfl
    rw [hreply] at hkeeps
    exact h.arm.congr rfl rfl hkeeps

omit ha in
theorem Standing.render {renderer : ErrorRenderer Issuer} (hm : renderer.modes.BuiltIn)
    (e : OAuthError) : (renderer.render e).Keeps (a.Standing K) := by
  intro v h
  rcases hrun : (renderer.render e).run v with ⟨r, v'⟩
  cases ErrorRenderer.render_cases hrun with
  | direct => exact h.congr rfl rfl (ErrorRenderer.hooks_writeDirect e v.response)
  | absent => exact h
  | @indirect t _ _ _ _ hreply =>
    have hkeeps := ErrorRenderer.redirect_keeps hm
      (redirectable_hooks t.redirectUri v.response.hooks) e v.reply rfl
    rw [hreply] at hkeeps
    exact h.congr rfl rfl hkeeps

theorem Standing.finish : Visit.finish.Keeps (a.Standing K) := by
  intro v h
  rcases hrun : Visit.finish.run v with ⟨r, v'⟩
  cases Visit.finish_cases hrun with
  | idle => exact h
  | ran _ hran =>
    have hkeeps := Visit.runHooks_keeps (P := a.Standing K) fun hook hmem => by
      obtain ⟨id, rfl⟩ := h.hooks hook hmem
      exact Visit.runHook_removal_keeps (Standing.remove ha id)
    have hclosed := hkeeps v.closed ⟨h.memory, h.session, nofun⟩
    rw [hran] at hclosed
    exact hclosed

end Endpoints

end App

end AuthServer.Site

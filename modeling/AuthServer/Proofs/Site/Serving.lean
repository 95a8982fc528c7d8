import AuthServer.Proofs.Site.Codes
import AuthServer.Proofs.Site.Standing

/-!
# What a turn keeps

However a turn ends, what waits afterwards is what was waiting before and what the
turn itself suspended. The book changes by one code at most.
-/

namespace AuthServer.Site

open Json Store

variable {a : App} {K K' : String → Transaction → Prop} {host : Issuer} {h : Turn}

/-! ## The session of the host -/

theorem rereadMembers_eq_map (members : Params) :
    Value.reread.rereadMembers members = members.map fun m => (m.1, m.2.reread) := by
  induction members with
  | nil => rfl
  | cons m rest ih =>
    rw [Value.reread.rereadMembers, ih]
    rfl

namespace App

theorem Filed.load {session : HostSession} (hfiled : a.Filed K session) (request : Request)
    {session' : Params} (hsession : (session.load a.sessionKey request).session = some session') :
    a.Filed K session' := by
  cases hsession
  rcases hvalue : session.value? a.sessionKey with _ | v
  · exact filed_nil
  · intro records hrecords
    refine hfiled records ?_
    unfold pending? at hrecords ⊢
    rw [hvalue]
    simpa [Entries.value?] using hrecords

theorem Filed.save {session : HostSession} (hfiled : a.Filed K session) {request : Request}
    (hrequest : ∀ session, request.session = some session → a.Filed K session) :
    a.Filed K (session.save a.sessionKey request) := by
  unfold HostSession.save
  rcases hsession : request.session with _ | session'
  · exact hfiled
  simp only
  split
  · rename_i e es hvalue
    intro records hrecords m hm
    simp only [HostSession.insert, Value.reread, pending?_put] at hrecords
    cases hrecords
    -- the session is written as JSON and read back, which leaves the records as they are
    rw [rereadMembers_eq_map] at hm
    obtain ⟨m', hm', rfl⟩ := List.mem_map.1 hm
    have hpending : pending? session' a.sessionKey = some (e :: es) := by
      rw [pending?, hvalue]
      rfl
    obtain ⟨request', c, uri, t, happlied, hK, hrecord⟩ := hrequest session' hsession _ hpending m' hm'
    exact ⟨request', c, uri, t, happlied, hK, by rw [hrecord, happlied.stable]⟩
  · intro records hrecords
    rw [pending?, Entries.value?_remove, if_pos rfl] at hrecords
    cases hrecords

/-! ## Work -/

/-- What is within reach of a request in work may wait, and the code book and the tokens are those
of `host`. -/
structure Sound (a : App) (K : String → Transaction → Prop) (host : Issuer) (w : Work) : Prop where
  standing : a.Standing K w.visit
  session : a.Filed K w.session
  host : w.visit.world.host = host

theorem Sound.mono (hK : ∀ id t, K id t → K' id t) {w : Work} (hw : a.Sound K host w) :
    a.Sound K' host w :=
  ⟨hw.standing.mono hK, hw.session.mono hK, hw.host⟩

theorem Sound.save {w : Work} (hw : a.Sound K host w) :
    a.Sound K host (a.saveSession.run w).2 :=
  ⟨hw.standing, hw.session.save hw.standing.session, hw.host⟩

theorem Sound.onVisit {α : Type} {x : Step (Visit Issuer) α} (hstanding : x.Keeps (a.Standing K))
    (hhost : x.Keeps fun v => v.world.host = host) : (onVisit x).Keeps (a.Sound K host) :=
  fun w hw => ⟨hstanding w.visit hw.standing, hw.session, hhost w.visit hw.host⟩

section

variable (ha : a.Installed)
include ha

theorem Sound.finish : a.finish.Keeps (a.Sound K host) := by
  have hsend : (App.onVisit send).Keeps (a.Sound K host) := by
    intro w hw
    rcases hrun : Visit.finish.run w.visit with ⟨r, v⟩
    have hstanding := Standing.finish ha w.visit hw.standing
    have hhost := ha.sparing.finish_host hw.standing.hooks hrun
    rw [hrun] at hstanding
    have hv : ((App.onVisit send).run w).2 = { w with visit := v } := by
      show { w with visit := (send.run w.visit).2 } = _
      rw [(run_send w.visit).2, hrun]
    rw [hv]
    exact ⟨hstanding, hw.session, hhost.trans hw.host⟩
  exact hsend.bind fun answer => Step.Keeps.bind (fun _ hw => hw.save) fun _ => Step.keeps_pure _

theorem Sound.render {renderer : ErrorRenderer Issuer} (hm : renderer.modes.BuiltIn)
    (e : OAuthError) : (a.render renderer e).Keeps (a.Sound K host) := by
  have hrendered : (App.onVisit (renderer.render e)).Keeps (a.Sound K host) :=
    Sound.onVisit (Standing.render hm e) (ErrorRenderer.render_spares hm e)
  refine hrendered.attempt.bind fun r => ?_
  cases r with
  | ok _ => exact Sound.finish ha
  | error f => exact Step.keeps_pure _

theorem Sound.fail (e : OAuthError) : (a.fail e).Keeps (a.Sound K host) := by
  have htold : (App.onVisit (a.server.redirectError e)).Keeps (a.Sound K host) :=
    Sound.onVisit (Standing.redirectError ha e) (ha.sparing.redirectError_keeps e)
  refine htold.attempt.bind fun r => ?_
  cases r with
  | ok _ => exact Sound.finish ha
  | error f => exact Sound.render ha ResponseModes.standard_builtIn f.report

end

/-! ## From the arrival of a request -/

/-- Whatever is kept in the memory and in the session may wait. -/
structure Backed (a : App) (K : String → Transaction → Prop) (h : Turn) : Prop where
  memory : ∀ m ∈ h.world.memories 0, K m.1 (m.2.persisted m.1)
  session : a.Filed K h.session

theorem Backed.mono (hK : ∀ id t, K id t → K' id t) (hb : a.Backed K h) : a.Backed K' h :=
  ⟨fun m hm => hK _ _ (hb.memory m hm), hb.session.mono hK⟩

theorem Backed.work (hb : a.Backed K h) : a.Sound K h.world.host h.work :=
  ⟨⟨hb.memory, nofun, nofun⟩, hb.session, rfl⟩

theorem Backed.arrival (hb : a.Backed K h) (request : Request) :
    a.Sound K h.world.host ⟨a.arrival h request, h.session⟩ :=
  ⟨⟨hb.memory, fun _ hsession => hb.session.load request hsession, nofun⟩, hb.session, rfl⟩

theorem withRequest_run {request : Request} (hread : h.request.read = .ok request)
    (next : Step Work HttpAnswer) :
    (a.withRequest h.request next).run h.work = next.run ⟨a.arrival h request, h.session⟩ := by
  unfold withRequest
  rw [hread]
  rfl

theorem withRequest_sound (ha : a.Installed) {next : Step Work HttpAnswer} (hb : a.Backed K h)
    (hnext : ∀ request, h.request.read = .ok request →
      a.Sound K host (next.run ⟨a.arrival h request, h.session⟩).2) (hhost : h.world.host = host) :
    a.Sound K host ((a.withRequest h.request next).run h.work).2 := by
  rcases hread : h.request.read with e | request
  · unfold withRequest
    rw [hread]
    exact Sound.render ha ResponseModes.standard_builtIn e _ (hhost ▸ hb.work)
  · rw [withRequest_run hread]
    exact hnext request hread

section Calls

variable {α : Type} {x : Step (Visit Issuer) α} {next : α → Step Work HttpAnswer} {w : Work}
  {v : Visit Issuer}

theorem run_attempt_onVisit {r : Except Fault α} (hrun : x.run w.visit = (r, v)) :
    (onVisit x).attempt.run w = (.ok r, ⟨v, w.session⟩) := by
  rw [Step.run_attempt, onVisit, Step.run_within, hrun]

theorem andThen_ok {r : α} (hrun : x.run w.visit = (.ok r, v)) :
    (a.andThen x next).run w = (next r).run ⟨v, w.session⟩ := by
  unfold andThen
  rw [Step.run_bind, run_attempt_onVisit hrun]

theorem andThen_error {f : Fault} (hrun : x.run w.visit = (.error f, v)) :
    (a.andThen x next).run w = (a.fail f.report).run ⟨v, w.session⟩ := by
  unfold andThen
  rw [Step.run_bind, run_attempt_onVisit hrun]

/-- What the call leaves sound stays so, if the next step leaves it so. -/
theorem Sound.andThen (ha : a.Installed) {r : Except Fault α} (hrun : x.run w.visit = (r, v))
    (hsound : a.Sound K host ⟨v, w.session⟩)
    (hnext : ∀ b, (next b).Keeps (a.Sound K host)) :
    a.Sound K host ((a.andThen x next).run w).2 := by
  cases r with
  | ok b =>
    rw [andThen_ok hrun]
    exact hnext b _ hsound
  | error f =>
    rw [andThen_error hrun]
    exact Sound.fail ha f.report _ hsound

end Calls

/-! ## Suspension -/

/-- An authorization adds the transaction that it suspends. -/
theorem Standing.authorize (ha : a.Installed) {request : Request} {r : Except Fault Outcome}
    {v : Visit Issuer} (hread : h.request.read = .ok request) (hpath : h.request.path = "/oauth/authorize")
    (hmethod : h.request.method = "GET") (hstanding : a.Standing K (a.arrival h request))
    (hasks : ∀ id t, a.Asks h request id t → K id t)
    (hrun : (a.server.authorize ⟨a.clients.validate, none, .none⟩).run (a.arrival h request) = (r, v)) :
    a.Standing K v := by
  obtain ⟨v₁, m, hx, rfl⟩ := Server.counted_cases hrun
  suffices a.Standing K v₁ from this.congr rfl rfl rfl
  rw [Server.runAuthorization_eq] at hx
  rcases Step.bind_cases hx with ⟨t, v₀, hprepare, hsuspend⟩ | ⟨e, hprepare, rfl⟩
  · obtain ⟨c, uri, happlied⟩ := applied_of_prepare ha hread hprepare
    obtain ⟨⟨host, rfl⟩, -⟩ := Server.ready_of_prepare hprepare
    have hprepared : a.Standing K ((a.arrival h request).withHost host) := hstanding.congr rfl rfl rfl
    cases Server.suspend_cases hsuspend with
    | stored hstore =>
      have hstored := hprepared.storeNew ha happlied hstore
      refine Standing.congr (hstored ?_) (Server.tally_memories ..) ?_ ?_
      · rintro _ ⟨⟩
        exact hasks _ _ ⟨hpath, hmethod, hread, _, hrun, by
          simp only [Visit.withMetrics, Server.tally_request]; rfl⟩
      · rw [Server.tally_request]; rfl
      · rw [Server.tally_response]; rfl
    | failed hstore =>
      refine (hprepared.storeNew ha happlied hstore fun id hid => ?_).congr rfl rfl rfl
      cases hid
    | crashed hstore =>
      refine hprepared.storeNew ha happlied hstore fun id hid => ?_
      cases hid
  · rcases Step.bind_cases hprepare with ⟨t, v₀, hn, hv⟩ | ⟨_, hn, -⟩
    · obtain ⟨host, rfl⟩ := (Server.newTransaction_cases hn).withHost
      have hcases := Server.validateClient_cases hv
      generalize hr : (Except.error e : Except Fault Transaction) = r at hcases
      cases hcases with
      | failed => exact hstanding.congr rfl rfl rfl
      | unauthorized => exact hstanding.congr rfl rfl rfl
      | passed => cases hr
    · obtain ⟨host, rfl⟩ := (Server.newTransaction_cases hn).withHost
      exact hstanding.congr rfl rfl rfl

theorem authorize_sound (ha : a.Installed) (hpath : h.request.path = "/oauth/authorize")
    (hmethod : h.request.method = "GET") (hb : a.Backed K h)
    (hasks : ∀ request id t, a.Asks h request id t → K id t) :
    a.Sound K h.world.host ((a.authorize h.request).run h.work).2 := by
  refine withRequest_sound ha hb (fun request hread => ?_) rfl
  have hvalidate : ∀ r, ((a.clients.validate : Validate Issuer) r).Keeps (· = h.world.host) := by
    intro r
    unfold Directory.validate Validate.ofClient
    dsimp only
    split
    · exact Step.keeps_pure _
    · exact (Step.keeps_ofExcept _).bind fun _ => Step.keeps_pure _
  have hstart := hb.arrival request
  have hhost := ha.sparing.authorize_keeps (c := ⟨a.clients.validate, none, .none⟩) hvalidate rfl
    (a.arrival h request) rfl
  rcases hrun : (a.server.authorize ⟨a.clients.validate, none, .none⟩).run (a.arrival h request)
    with ⟨r, v⟩
  rw [hrun] at hhost
  have hsound : a.Sound K h.world.host ⟨v, h.session⟩ :=
    ⟨hstart.standing.authorize ha hread hpath hmethod (hasks request) hrun, hb.session, hhost⟩
  refine hsound.andThen ha hrun fun outcome => ?_
  cases outcome with
  | pending id => exact fun _ hw => hw.save
  | responded => exact Sound.finish ha

/-! ## Decisions -/

theorem load_eq (ha : a.Installed) {v v' : Visit Issuer} {r : Except Fault Transaction}
    (hload : a.server.load.run v = (r, v')) : v' = v := by
  have hhost := ha.sparing.load_keeps v rfl
  rw [hload] at hhost
  obtain hs | ⟨lifetime, hs⟩ := ha.store
  · obtain ⟨host, rfl, -⟩ := Server.load_session_cases hs hload
    have hhost : host = v.world.host := hhost
    rw [hhost]
    rfl
  · rcases hid : idParam a.server.options v.request with e | id
    · rw [Server.load_memory_unnamed hs hid] at hload
      cases hload
      rfl
    · rw [Server.load_memory hs hid] at hload
      cases hload
      rfl

/-- `t` with the answer of the resource owner. -/
def decided (a : App) (t : Transaction) (v : Visit Issuer) (allow : Bool) : Transaction :=
  { a.server.considered t .nothing v with
    decision := some (.withFields allow [])
    phase := .decided }

/-- The visit in which that answer is sent on. -/
def decidedVisit (a : App) (t : Transaction) (v : Visit Issuer) (allow : Bool) : Visit Issuer :=
  a.server.arm (a.server.tally (·.countDecision allow) (v.holding (a.decided t v allow)))

theorem runDecision_eq {t : Transaction} {v : Visit Issuer} {body : Params}
    (ht : v.request.transaction = some t) (hbody : v.request.body = some body)
    (hundecided : t.decision = none) :
    (a.server.runDecision a.config.decision ⟨none, .none⟩).run v =
      (a.server.respond .none).run
        (a.decidedVisit t v !Value.truthy? (body.value? a.config.decision.cancelField)) := by
  have hdecide : (a.server.considered t .nothing v).decide
      (.withFields (Server.allows a.config.decision body .nothing) []) =
        .ok (a.decided t v !Value.truthy? (body.value? a.config.decision.cancelField)) := by
    unfold Transaction.decide
    rw [show (a.server.considered t .nothing v).decision = none from hundecided]
    rfl
  have hinput : (Server.decisionInput (⟨none, .none⟩ : Server.DecisionCallbacks Issuer) v.request).run v =
      (.ok .nothing, v.withHost v.world.host) := rfl
  unfold Server.runDecision
  rw [Step.run_bind, Server.recordDecision_eq ht hbody hinput hdecide]
  rfl

/-- How a decision on an undecided transaction ends: the book stays as it is, or access was not
denied, and the next code goes into the book and to the client. -/
inductive Concluding (a : App) (t : Transaction) (v : Visit Issuer) :
    Except Fault Unit → Visit Issuer → Prop where
  | kept {r : Except Fault Unit} {v' : Visit Issuer} :
    v'.world.host.codes = v.world.host.codes → Concluding a t v r v'
  | issued {body : Params} {uri : String} {place : String → Params → String} {g : GrantedCode}
    {response : Response Issuer} {v' : Visit Issuer} :
    v.request.body = some body →
    Value.truthy? (body.value? a.config.decision.cancelField) = false →
    t.request.type.tokens = ["code"] → Issuer.clientIdOf t.client = some g.clientId →
    t.redirectUri = some uri → Redirect.Placing place →
    g.redirectUri = some uri → g.scope = t.request.scope →
    v.response.Alike response →
    v'.response = response.redirect
      (place uri (Grant.withState (Grant.codeParams v.world.host.nextCode) t)) →
    v'.world.host = ⟨v.world.host.codes.put v.world.host.nextCode g,
      v.world.host.tokens.skip Supply.tokenLength⟩ →
    Concluding a t v (.ok ()) v'

theorem concluding_of_responding (ha : a.Installed) {t : Transaction} {v v' : Visit Issuer}
    {r : Except Fault Unit} {body : Params} {allow : Bool} (hbody : v.request.body = some body)
    (hcancel : allow = true → Value.truthy? (body.value? a.config.decision.cancelField) = false)
    (h : Server.Responding a.server .none (a.decided t v allow).armStored (a.decidedVisit t v allow)
      r v') : Concluding a t v r v' := by
  have hhost : (a.decidedVisit t v allow).reply.host = v.world.host := by
    show (a.server.arm _).world.host = _
    rw [Server.arm_world, Server.tally_host]
    rfl
  have halike : v.response.Alike (a.decidedVisit t v allow).response := by
    have htallied := Server.arm_alike a.server
      (a.server.tally (·.countDecision allow) (v.holding (a.decided t v allow)))
    rw [Server.tally_response] at htallied
    exact htallied
  cases h with
  | answered hreply =>
    have hbooking := respond_booking ha hreply
    generalize hflow : (Except.ok Flow.done : Except Fault Flow) = flow at hbooking
    cases hbooking with
    | kept hcodes => exact .kept (hcodes.trans (by rw [hhost]))
    | @issued c clientId _ _ htype hcontext hallow hclient huri hplace =>
      have hscope : Issuer.scopeOf c = t.request.scope := by
        cases hcontext
        rfl
      have huri' : c.redirectUri = t.redirectUri := by
        cases hcontext
        rfl
      have hallowed : allow = true := by
        cases hcontext
        exact hallow
      refine .issued (g := Issuer.granted c clientId) hbody (hcancel hallowed) htype hclient huri hplace
        (huri'.trans huri) hscope halike ?_ ?_
      · rw [hhost]
        rfl
      · rw [hhost]
        rfl
  | unsupported hreply =>
    cases respond_booking ha hreply with
    | kept hcodes => exact .kept (hcodes.trans (by rw [hhost]))
  | failed hreply =>
    cases respond_booking ha hreply with
    | kept hcodes => exact .kept (hcodes.trans (by rw [hhost]))

theorem decide_concluding (ha : a.Installed) {t : Transaction} {v v' : Visit Issuer}
    {r : Except Fault Unit} (ht : v.request.transaction = some t) (hundecided : t.decision = none)
    (hrun : (a.server.decide a.config.decision ⟨none, .none⟩).run v = (r, v')) :
    Concluding a t v r v' := by
  obtain ⟨v₁, m, hx, rfl⟩ := Server.counted_cases hrun
  rcases hbody : v.request.body with _ | body
  · have hrefused : (a.server.recordDecision a.config.decision ⟨none, .none⟩).run v =
        (.error (.error Server.noBody), v) := by
      unfold Server.recordDecision
      rw [Step.run_gets_bind]
      simp only [hbody]
      rfl
    unfold Server.runDecision at hx
    rw [Step.run_bind, hrefused] at hx
    cases hx
    exact .kept rfl
  · rw [runDecision_eq ht hbody hundecided] at hx
    generalize hallow : (!Value.truthy? (body.value? a.config.decision.cancelField)) = allow at hx
    have htransaction : (a.decidedVisit t v allow).request.transaction =
        some (a.decided t v allow).armStored := by
      rw [decidedVisit, Server.arm_transaction, Server.tally_request]
      rfl
    have hcancel : allow = true → Value.truthy? (body.value? a.config.decision.cancelField) = false := by
      rintro rfl
      simpa using hallow
    cases concluding_of_responding ha hbody hcancel (Server.respond_cases htransaction hx) with
    | kept hcodes => exact .kept hcodes
    | issued hbody hcancel htype hclient huri hplace hguri hscope halike hresponse hhost =>
      exact .issued hbody hcancel htype hclient huri hplace hguri hscope halike hresponse hhost

theorem finish_answer (w : Work) : (a.finish.run w).1 = .ok (.ofResponse w.visit.response) := by
  have hsend := (run_send w.visit).1
  show ((onVisit send >>= fun answer => a.saveSession >>= fun _ => pure answer).run w).1 = _
  rw [Step.run_bind]
  have hrun : (onVisit send).run w = (.ok (.ofResponse w.visit.response),
      { w with visit := (send.run w.visit).2 }) := by
    show ((send.run w.visit).1, { w with visit := (send.run w.visit).2 }) = _
    rw [hsend]
  rw [hrun]
  rfl

/-- The turn put its next code in the book for the client and the URI of `t`, and sent it there. -/
structure Issues (a : App) (h : Turn) (t : Transaction) (uri : String) (g : GrantedCode)
    (host : Issuer) : Prop where
  allows : a.Allows h t
  type : t.request.type.tokens = ["code"]
  client : Issuer.clientIdOf t.client = some g.clientId
  redirectUri : t.redirectUri = some uri
  grantedUri : g.redirectUri = some uri
  scope : g.scope = t.request.scope
  redirects : a.Redirects h uri h.code
  codes : host.codes = h.world.host.codes.put h.code g
  tokens : host.tokens = h.world.host.tokens.skip Supply.tokenLength

theorem decision_loaded {request : Request} (hread : h.request.read = .ok request) {v : Visit Issuer}
    (hload : a.server.loadTransaction.run (a.arrival h request) = (.ok (), v)) :
    (a.decision h.request).run h.work =
      (a.andThen (a.server.decide a.config.decision ⟨none, .none⟩) fun _ => a.finish).run
        ⟨v, h.session⟩ := by
  unfold decision
  rw [withRequest_run hread, andThen_ok hload]

/-- What becomes of the book when a loaded transaction is decided on. -/
theorem decided_sound (ha : a.Installed) (hpath : h.request.path = "/oauth/decision")
    (hmethod : h.request.method = "POST") {request : Request} (hread : h.request.read = .ok request)
    {t : Transaction} {m : Metrics} (hundecided : t.decision = none)
    (hload : a.server.loadTransaction.run (a.arrival h request) =
      (.ok (), ((a.arrival h request).holding t).withMetrics m))
    (hsound : a.Sound K h.world.host ⟨((a.arrival h request).holding t).withMetrics m, h.session⟩) :
    ∃ host, a.Sound K host ((a.decision h.request).run h.work).2 ∧
      (host.codes = h.world.host.codes ∨ ∃ uri g, a.Issues h t uri g host) := by
  have hrun := decision_loaded hread hload
  rcases hdecide : (a.server.decide a.config.decision ⟨none, .none⟩).run
    (((a.arrival h request).holding t).withMetrics m) with ⟨r, v⟩
  have hconcluding := decide_concluding ha rfl hundecided hdecide
  have hstanding := Standing.decide ha a.config.decision ⟨none, .none⟩ _ hsound.standing
  rw [hdecide] at hstanding
  have hdecided : a.Sound K v.world.host ⟨v, h.session⟩ := ⟨hstanding, hsound.session, rfl⟩
  refine ⟨v.world.host, ?_, ?_⟩
  · rw [hrun]
    exact hdecided.andThen ha hdecide fun _ => Sound.finish ha
  · cases hconcluding with
    | kept hcodes => exact .inl hcodes
    | @issued body uri place g response _ hbody hcancel htype hclient huri hplace hguri hscope halike
        hresponse hhost =>
      have hanswer : a.answer h = .ofResponse v.response :=
        answer_eq (by rw [route_decision hpath hmethod, hrun, andThen_ok hdecide]; exact finish_answer _)
      have hredirects : a.Redirects h uri h.code := by
        refine ⟨place, Grant.withState (Grant.codeParams h.code) t, hplace, ?_, ?_⟩
        · unfold Grant.withState
          cases t.request.state <;> rfl
        · rw [hanswer, hresponse]
          exact (halike.redirect _).answer_eq
      exact .inr ⟨uri, g, ⟨hpath, hmethod, request, body, _, hread, hbody, hcancel, hload, rfl⟩,
        htype, hclient, huri, hguri, hscope, hredirects, congrArg Issuer.codes hhost,
        congrArg Issuer.tokens hhost⟩

theorem decision_sound (ha : a.Installed) (hpath : h.request.path = "/oauth/decision")
    (hmethod : h.request.method = "POST") (hb : a.Backed K h)
    (hundecided : ∀ id t, K id t → t.decision = none) :
    ∃ host, a.Sound K host ((a.decision h.request).run h.work).2 ∧
      (host.codes = h.world.host.codes ∨ ∃ id t uri g, K id t ∧ a.Issues h t uri g host) := by
  rcases hread : h.request.read with e | request
  · refine ⟨_, ?_, .inl rfl⟩
    unfold decision withRequest
    rw [hread]
    exact Sound.render ha ResponseModes.standard_builtIn e _ hb.work
  have hstart := hb.arrival request
  rcases hload : a.server.loadTransaction.run (a.arrival h request) with ⟨r, v⟩
  have hstanding := Standing.loadTransaction ha _ hstart.standing
  have hhost := ha.sparing.loadTransaction_keeps _ hstart.host
  rw [hload] at hstanding hhost
  have hloaded : a.Sound K h.world.host ⟨v, h.session⟩ := ⟨hstanding, hb.session, hhost⟩
  cases r with
  | error f =>
    refine ⟨_, ?_, .inl rfl⟩
    unfold decision
    rw [withRequest_run hread, andThen_error hload]
    exact Sound.fail ha f.report _ hloaded
  | ok _ =>
    have hnew : (a.arrival h request).request.transaction = none := by
      obtain ⟨query, body, rfl⟩ := eq_of_read hread
      rfl
    obtain ⟨t, v₁, m, hl, -, rfl⟩ := Server.loaded_of_ok hnew hload
    obtain rfl := load_eq ha hl
    obtain ⟨id, hK⟩ := (hstart.standing.load ha hl).2 t rfl
    obtain ⟨host, hsound, hcodes | ⟨uri, g, hissues⟩⟩ :=
      decided_sound ha hpath hmethod hread (hundecided id t hK) hload hloaded
    · exact ⟨host, hsound, .inl hcodes⟩
    · exact ⟨host, hsound, .inr ⟨id, t, uri, g, hK, hissues⟩⟩

/-! ## Tokens -/

/-- The visit on which a token request of the client is served. -/
def tokenVisit (h : Turn) (request : Request) (c : Client) : Visit Issuer :=
  ⟨{ request with user := some c.toValue }, .empty, h.world⟩

theorem token_unauthenticated {request : Request} (hread : h.request.read = .ok request)
    (hclient : a.authenticated request = none) :
    (a.token h.request).run h.work =
      (a.render tokenErrors authenticationFailed).run ⟨⟨request, .empty, h.world⟩, h.session⟩ := by
  unfold token
  rw [hread]
  simp only [hclient, Step.run_modify_bind]
  rfl

section Authenticated

variable {request : Request} {c : Client} {v : Visit Issuer} (hread : h.request.read = .ok request)
  (hclient : a.authenticated request = some c)
include hread hclient

theorem token_ok (hrun : a.server.token.run (tokenVisit h request c) = (.ok (), v)) :
    (a.token h.request).run h.work = a.finish.run ⟨v, h.session⟩ := by
  unfold token
  rw [hread]
  simp only [hclient, Step.run_modify_bind]
  show ((onVisit a.server.token).attempt >>= _).run ⟨tokenVisit h request c, h.session⟩ = _
  rw [Step.run_bind, run_attempt_onVisit hrun]

theorem token_error {f : Fault}
    (hrun : a.server.token.run (tokenVisit h request c) = (.error f, v)) :
    (a.token h.request).run h.work = (a.render tokenErrors f.report).run ⟨v, h.session⟩ := by
  unfold token
  rw [hread]
  simp only [hclient, Step.run_modify_bind]
  show ((onVisit a.server.token).attempt >>= _).run ⟨tokenVisit h request c, h.session⟩ = _
  rw [Step.run_bind, run_attempt_onVisit hrun]

end Authenticated

theorem render_answer (e : OAuthError) (w : Work) :
    ∃ answer, ((a.render tokenErrors e).run w).1 = .ok answer ∧
      answer.status = OAuthError.httpStatus e.status := by
  have hstatus : (ErrorRenderer.writeDirect e w.visit.response).status = e.status := by
    unfold ErrorRenderer.writeDirect
    cases e.challenge? <;> rfl
  refine ⟨_, finish_answer ⟨w.visit.withReply
    ⟨ErrorRenderer.writeDirect e w.visit.response, w.visit.world.host⟩, w.session⟩, ?_⟩
  show OAuthError.httpStatus (ErrorRenderer.writeDirect e w.visit.response).status = _
  rw [hstatus]

/-- The code that a served token request hands in, if it is one for a code, is out of the book. -/
theorem tokenVisit_sound (ha : a.Installed) (hb : a.Backed K h) {request : Request}
    (hread : h.request.read = .ok request) {c : Client} {r : Except Fault Unit} {v : Visit Issuer}
    (hrun : a.server.token.run (tokenVisit h request c) = (r, v)) :
    a.Sound K v.world.host ⟨v, h.session⟩ ∧
      (v.world.host.codes = h.world.host.codes ∨
        ∃ code, v.world.host.codes = h.world.host.codes.remove code) := by
  have hbefore : a.Standing K (tokenVisit h request c) := by
    obtain ⟨query, body, rfl⟩ := eq_of_read hread
    exact ⟨hb.memory, nofun, nofun⟩
  have hafter := Standing.token ha (tokenVisit h request c) hbefore
  rw [hrun] at hafter
  refine ⟨⟨hafter, hb.session, rfl⟩, ?_⟩
  obtain ⟨flow, reply, m, hexchange, rfl⟩ := Server.token_cases hrun
  by_cases hgrant : (tokenVisit h request c).request.bodyText? "grant_type" = some "authorization_code"
  · rw [hgrant] at hexchange
    cases exchange_handing ha hexchange with
    | unread => exact .inl rfl
    | refused => exact .inr ⟨_, rfl⟩
    | given => exact .inr ⟨_, rfl⟩
  · have hkeeps := exchange_keeps_codes ha (tokenVisit h request c).request hgrant
      h.world.host.codes (tokenVisit h request c).reply rfl
    rw [hexchange] at hkeeps
    exact .inl hkeeps

theorem token_sound (ha : a.Installed) (hb : a.Backed K h) :
    ∃ host, a.Sound K host ((a.token h.request).run h.work).2 ∧
      (host.codes = h.world.host.codes ∨ ∃ code, host.codes = h.world.host.codes.remove code) := by
  rcases hread : h.request.read with e | request
  · refine ⟨_, ?_, .inl rfl⟩
    unfold token
    rw [hread]
    exact hb.work
  rcases hclient : a.authenticated request with _ | c
  · rw [token_unauthenticated hread hclient]
    refine ⟨_, Sound.render ha ResponseModes.standard_builtIn _ _ ?_, .inl rfl⟩
    obtain ⟨query, body, rfl⟩ := eq_of_read hread
    exact ⟨⟨hb.memory, nofun, nofun⟩, hb.session, rfl⟩
  · rcases hrun : a.server.token.run (tokenVisit h request c) with ⟨r, v⟩
    obtain ⟨hsound, hcodes⟩ := tokenVisit_sound ha hb hread hrun
    refine ⟨_, ?_, hcodes⟩
    cases r with
    | ok _ =>
      rw [token_ok hread hclient hrun]
      exact Sound.finish ha _ hsound
    | error f =>
      rw [token_error hread hclient hrun]
      exact Sound.render ha ResponseModes.standard_builtIn f.report _ hsound

theorem authenticationFailed_status : OAuthError.httpStatus authenticationFailed.status ≠ 200 := by
  decide

/-- A code that is not taken is not answered with 200. -/
theorem token_error_status (ha : a.Installed) {request : Request} {c : Client} {f : Fault}
    {v : Visit Issuer} (hgrant : request.bodyText? "grant_type" = some "authorization_code")
    (hrun : a.server.token.run (tokenVisit h request c) = (.error f, v)) :
    OAuthError.httpStatus f.report.status ≠ 200 := by
  have hgrant' : (tokenVisit h request c).request.bodyText? "grant_type" = some "authorization_code" :=
    hgrant
  cases Server.token_exchanging hrun with
  | unsupported m hexchange =>
    rw [hgrant'] at hexchange
    cases exchange_handing ha hexchange
  | failed m hexchange =>
    rw [hgrant'] at hexchange
    cases exchange_handing ha hexchange with
    | unread hstatus => exact hstatus
    | refused hstatus => exact hstatus

section Redeems

variable {request : Request} {code : String} (hredeems : a.Redeems h request code)
include hredeems

theorem Redeems.not_rendered {e : OAuthError} {w : Work}
    (hrun : (a.token h.request).run h.work = (a.render tokenErrors e).run w) :
    OAuthError.httpStatus e.status = 200 := by
  obtain ⟨answer, hanswer, hstatus⟩ := render_answer (a := a) e w
  have hturn : a.answer h = answer :=
    answer_eq (by rw [route_token hredeems.path hredeems.method, hrun, hanswer])
  rw [← hstatus, ← hturn, hredeems.status]

theorem Redeems.served (ha : a.Installed) :
    ∃ c v, a.authenticated request = some c ∧
      a.server.token.run (tokenVisit h request c) = (.ok (), v) := by
  rcases hclient : a.authenticated request with _ | c
  · have hrun := token_unauthenticated hredeems.reads hclient
    exact absurd (hredeems.not_rendered hrun) authenticationFailed_status
  · rcases htoken : a.server.token.run (tokenVisit h request c) with ⟨f | _, v⟩
    · have hrun := token_error hredeems.reads hclient htoken
      exact absurd (hredeems.not_rendered hrun) (token_error_status ha hredeems.grantType htoken)
    · exact ⟨c, v, rfl, htoken⟩

/-- Tokens are given for a code that the book had for this client, and has no more. -/
theorem Redeems.given (ha : a.Installed) (hb : a.Backed K h) :
    ∃ g c token refresh, a.authenticated request = some c ∧
      h.world.host.codes.value? code = some g ∧ g.clientId = c.id ∧
      (∀ uri, request.bodyText? "redirect_uri" = some uri → g.redirectUri = some uri) ∧
      (a.worldAfter h).host.codes = h.world.host.codes.remove code ∧
      (a.answer h).body =
        (Value.obj (Issued.mk token (some refresh) (Issuer.tokenParams g.scope)).members).text := by
  obtain ⟨c, v, hclient, htoken⟩ := hredeems.served ha
  have hroute := route_token (a := a) hredeems.path hredeems.method
  have hrun := token_ok hredeems.reads hclient htoken
  obtain ⟨hsound, -⟩ := tokenVisit_sound ha hb hredeems.reads htoken
  have hgrant : (tokenVisit h request c).request.bodyText? "grant_type" = some "authorization_code" :=
    hredeems.grantType
  cases Server.token_exchanging htoken with
  | @answered reply m hexchange =>
    rw [hgrant] at hexchange
    generalize hflow : (Except.ok Flow.done : Except Fault Flow) = flow at hexchange
    cases exchange_handing ha hexchange with
    | unread => cases hflow
    | refused => cases hflow
    | @given code' token refresh g tokens hcode hg hclientId huri =>
      obtain rfl : code' = code := Option.some.inj (hcode.symm.trans hredeems.code)
      have hanswer : a.answer h = .ofResponse _ :=
        answer_eq (by rw [hroute, hrun]; exact finish_answer _)
      have hafter : a.Sound K ⟨h.world.host.codes.remove code', tokens⟩
          ((a.route h.request).run h.work).2 := by
        rw [hroute, hrun]
        exact Sound.finish ha _ hsound
      refine ⟨g, c, token, refresh, hclient, hg, (Option.some.inj hclientId).symm, huri, ?_, ?_⟩
      · exact congrArg Issuer.codes hafter.host
      · rw [hanswer]
        rfl

end Redeems

/-! ## Any turn -/

/-- What a turn may do to the code book. -/
inductive Turning (a : App) (K : String → Transaction → Prop) (h : Turn) (host : Issuer) : Prop where
  | kept : host.codes = h.world.host.codes → Turning a K h host
  | taken (code : String) : host.codes = h.world.host.codes.remove code → Turning a K h host
  | issued {id uri : String} {t : Transaction} {g : GrantedCode} :
    K id t → a.Issues h t uri g host → Turning a K h host

/-- A turn keeps what waits, and adds what it suspends. -/
theorem turn_sound (ha : a.Installed) (hb : a.Backed K h)
    (hundecided : ∀ id t, K id t → t.decision = none) (hK : ∀ id t, K id t → K' id t)
    (hasks : ∀ request id t, a.Asks h request id t → K' id t) :
    ∃ host, a.Sound K' host ((a.route h.request).run h.work).2 ∧ Turning a K h host := by
  by_cases hauthorize : h.request.path = "/oauth/authorize" ∧ h.request.method = "GET"
  · rw [route_authorize hauthorize.1 hauthorize.2]
    exact ⟨_, authorize_sound ha hauthorize.1 hauthorize.2 (hb.mono hK) hasks, .kept rfl⟩
  by_cases hdecision : h.request.path = "/oauth/decision" ∧ h.request.method = "POST"
  · rw [route_decision hdecision.1 hdecision.2]
    obtain ⟨host, hsound, hcodes | ⟨id, t, uri, g, hid, hissues⟩⟩ :=
      decision_sound ha hdecision.1 hdecision.2 hb hundecided
    · exact ⟨host, hsound.mono hK, .kept hcodes⟩
    · exact ⟨host, hsound.mono hK, .issued hid hissues⟩
  by_cases htoken : h.request.path = "/oauth/token" ∧ h.request.method = "POST"
  · rw [route_token htoken.1 htoken.2]
    obtain ⟨host, hsound, hcodes | ⟨code, hcodes⟩⟩ := token_sound ha hb
    · exact ⟨host, hsound.mono hK, .kept hcodes⟩
    · exact ⟨host, hsound.mono hK, .taken code hcodes⟩
  · have hrest : ((a.route h.request).run h.work).2 = h.work := by
      unfold route
      rw [if_neg hauthorize, if_neg hdecision, if_neg htoken]
      split
      · rfl
      · split <;> rfl
    rw [hrest]
    exact ⟨_, (hb.mono hK).work, .kept rfl⟩

end App

end AuthServer.Site
